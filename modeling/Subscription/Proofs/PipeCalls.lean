import Subscription.Pipe
import Subscription.Proofs.NameReading
import Subscription.Proofs.Reopening
import Subscription.Proofs.UseFrames
import Subscription.Proofs.Waiting

/-!
# What the calls on a pipe do

A path leads to a place where a file can be, or nowhere (`Disk.LeadsTo`).  Pipes come and go, but
directories stay, so that a path leads where it led (`Disk.OnlyName.leadsTo_iff`), and the paths of
two pipes lead to two places (`Disk.LeadsTo.number_eq`), since their last pieces are their names.

At the end of such a path nobody has a pipe open (`Disk.IsIdle`), or one subscriber has, and some
bytes wait in it (`Disk.Hears`).  Each call takes one of these states into the other, or into
itself, whatever else is on the disk:

* creating ends with a subscriber who hears, and nothing waits; or it fails, and nobody has the
  pipe open, though it may have been made (`Pipe.create_idle`);
* notifying reaches a subscriber, and something waits then, also when the pipe was full
  (`Pipe.notify_hears`); where there is none, it does not reach anybody (`Pipe.notify_idle`);
* waiting tells whether something waited, and then nothing does any more (`Pipe.wait_hears`),
  for however much it was, it has been drained (`Pipe.drain_pipe`);
* closing and removing leave a pipe that nobody has open (`Pipe.close_hears`,
  `Pipe.remove_hears`).

All that such a call changes on the disk is what is at the end of the path of its pipe
(`Disk.OnlyPipe`).
-/

namespace Subscription

/-! ## Where paths lead -/

theorem pipeName_injective : Function.Injective pipeName := by
  intro n m hsame
  have hrepr : Nat.repr n.toNat = Nat.repr m.toNat :=
    (String.append_right_inj "sr_evpipe").1 hsame
  have hdigits : Nat.toDigits 10 n.toNat = Nat.toDigits 10 m.toNat := String.ofList_injective hrepr
  have hnumber : n.toNat = m.toNat := by
    calc n.toNat = Nat.ofDigitChars 10 (Nat.toDigits 10 n.toNat) 0 :=
          Nat.ofDigitChars_ten_toDigits.symm
      _ = Nat.ofDigitChars 10 (Nat.toDigits 10 m.toNat) 0 := by rw [hdigits]
      _ = m.toNat := Nat.ofDigitChars_ten_toDigits
  exact UInt32.toNat_inj.1 hnumber

namespace Disk

variable {d d' : Disk} {path last : String} {l l' parent location : Location} {id : FileId}
  {n m : UInt32} {cfg : Config}

/-- A path leads to a place where a file can be; nothing says that there is one. -/
def LeadsTo (d : Disk) (path : String) (l : Location) : Prop :=
  ∃ parent last, d.target path = .ok (.name parent last false) ∧
    last.utf8ByteSize ≤ maxNameLength ∧ l = parent ++ [last]

theorem LeadsTo.ne_root (h : d.LeadsTo path l) : l ≠ [] := by
  obtain ⟨parent, last, -, -, rfl⟩ := h
  simp

theorem LeadsTo.unique (h : d.LeadsTo path l) (h' : d.LeadsTo path l') : l = l' := by
  obtain ⟨parent, last, htarget, -, rfl⟩ := h
  obtain ⟨parent', last', htarget', -, rfl⟩ := h'
  rw [htarget] at htarget'
  cases htarget'
  rfl

/-- A file is found where the path leads. -/
theorem fileAt_eq_some_iff :
    d.fileAt path = some id ↔ ∃ l, d.LeadsTo path l ∧ d.entryAt l = some (.file id) := by
  unfold fileAt find LeadsTo
  cases htarget : d.target path with
  | error e => simp [bind, Except.bind]
  | ok destination =>
      cases destination with
      | dots location => simp [bind, Except.bind]
      | name parent last slash =>
          by_cases hlong : maxNameLength < last.utf8ByteSize
          · simp [lookupName, bind, Except.bind, hlong, Nat.not_le.2 hlong]
          · cases hentry : d.entryAt (parent ++ [last]) with
            | none => simp [lookupName, bind, Except.bind, hlong, hentry]
            | some entry =>
                cases entry with
                | directory => simp [lookupName, bind, Except.bind, hlong, hentry]
                | file found =>
                    cases slash <;>
                      simp [lookupName, bind, Except.bind, hlong, hentry, Nat.not_lt.1 hlong]

theorem openFile_eq_ok_iff {access : Access} :
    d.openFile path access = .ok id ↔ d.fileAt path = some id ∧ d.allows id access = true := by
  unfold openFile fileAt
  cases hfind : d.find path with
  | error e => simp [bind, Except.bind]
  | ok found =>
      obtain ⟨location, entry⟩ := found
      cases entry with
      | directory => simp [bind, Except.bind]
      | file other =>
          by_cases hallowed : d.allows other access
          · simp only [bind, Except.bind, hallowed, if_true, Except.ok.injEq, Option.some.injEq]
            constructor
            · rintro rfl
              exact ⟨rfl, hallowed⟩
            · exact And.left
          · simp only [bind, Except.bind, hallowed]
            constructor
            · exact nofun
            · rintro ⟨hsame, hallows⟩
              cases hsame
              exact absurd hallows hallowed

/-! ## Names that come and go -/

/-- A path leads where it led as long as the directories are the same. -/
theorem leadsTo_congr
    (hsame : ∀ l, d'.entryAt l = some .directory ↔ d.entryAt l = some .directory) :
    d'.LeadsTo path l ↔ d.LeadsTo path l := by
  constructor
  · rintro ⟨parent, last, htarget, hshort, rfl⟩
    exact ⟨parent, last, target_mono (fun l => (hsame l).1) htarget, hshort, rfl⟩
  · rintro ⟨parent, last, htarget, hshort, rfl⟩
    exact ⟨parent, last, target_mono (fun l => (hsame l).2) htarget, hshort, rfl⟩

/-- Two disks that differ in one name at most, which is that of a directory on neither. -/
structure OnlyName (l : Location) (d d' : Disk) : Prop where
  others : ∀ l', l' ≠ l → d'.entryAt l' = d.entryAt l'
  before : d.entryAt l ≠ some .directory
  after : d'.entryAt l ≠ some .directory

namespace OnlyName

variable (honly : OnlyName l d d')

include honly

theorem leadsTo_iff : d'.LeadsTo path l' ↔ d.LeadsTo path l' := by
  refine leadsTo_congr fun other => ?_
  by_cases hother : other = l
  · rw [hother]
    exact iff_of_false honly.after honly.before
  · rw [honly.others other hother]

/-- What a path leads to that leads elsewhere is what it was. -/
theorem fileAt_of_not (hnot : ¬ d.LeadsTo path l) : d'.fileAt path = d.fileAt path := by
  apply Option.ext
  intro found
  rw [fileAt_eq_some_iff, fileAt_eq_some_iff]
  refine exists_congr fun l' => ?_
  rw [honly.leadsTo_iff]
  refine and_congr_right fun hleads => ?_
  rw [honly.others l']
  rintro rfl
  exact hnot hleads

/-- What a path leads to that leads to the name is what the name stands for. -/
theorem fileAt_eq_some_iff_of (h : d.LeadsTo path l) :
    d'.fileAt path = some id ↔ d'.entryAt l = some (.file id) := by
  rw [fileAt_eq_some_iff]
  constructor
  · rintro ⟨l', hleads, hentry⟩
    rwa [← (honly.leadsTo_iff.1 hleads).unique h]
  · exact fun hentry => ⟨l, honly.leadsTo_iff.2 h, hentry⟩

end OnlyName

section Named

variable {node : FileNode}

theorem entryAt_addFile_same (hl : l ≠ []) (hfree : d.entryAt l = none) :
    (d.addFile l node).2.entryAt l = some (.file d.files.length) :=
  (entryAt_link hl hfree rfl l).trans (if_pos rfl)

theorem onlyName_addFile (hl : l ≠ []) (hfree : d.entryAt l = none) :
    OnlyName l d (d.addFile l node).2 where
  others l' hl' := (entryAt_link hl hfree rfl l').trans (if_neg hl')
  before := by simp [hfree]
  after := by simp [entryAt_addFile_same hl hfree]

theorem onlyName_unlinkAt (hl : l ≠ []) (hentry : d.entryAt l = some (.file id)) :
    OnlyName l d (d.unlinkAt l) where
  others l' hl' := (entryAt_unlinkAt hl l').trans (if_neg hl')
  before := by simp [hentry]
  after := by simp [entryAt_unlinkAt hl]

theorem fileAt_addFile (h : d.LeadsTo path l) (hfree : d.entryAt l = none) :
    (d.addFile l node).2.fileAt path = some d.files.length :=
  ((onlyName_addFile h.ne_root hfree).fileAt_eq_some_iff_of h).2
    (entryAt_addFile_same h.ne_root hfree)

theorem fileAt_unlinkAt (h : d.LeadsTo path l) (hentry : d.entryAt l = some (.file id)) :
    (d.unlinkAt l).fileAt path = none := by
  refine Option.eq_none_iff_forall_ne_some.2 fun found hfound => ?_
  rw [(onlyName_unlinkAt h.ne_root hentry).fileAt_eq_some_iff_of h, entryAt_unlinkAt h.ne_root,
    if_pos rfl] at hfound
  cases hfound

end Named

/-! ## The paths of pipes -/

/-- What a path leads to has the last piece of the path as its name. -/
theorem walk_concat {slash : Bool} {front : List String} {destination : Destination}
    (hdot : last ≠ ".") (hdots : last ≠ "..")
    (hwalk : d.walk slash location (front ++ [last]) = .ok destination) :
    ∃ parent, destination = .name parent last slash := by
  induction front generalizing location with
  | nil =>
      rw [List.nil_append, walk, if_neg hdot, if_neg hdots] at hwalk
      cases hwalk
      exact ⟨location, rfl⟩
  | cons piece rest ih =>
      rw [List.cons_append, walk_cons (by simp)] at hwalk
      cases hdescend : d.descend location piece with
      | error e =>
          rw [hdescend] at hwalk
          cases hwalk
      | ok next =>
          rw [hdescend] at hwalk
          exact ih hwalk

theorem slash_not_mem_pipeName (n : UInt32) : '/' ∉ (pipeName n).toList := by
  intro hslash
  rw [pipeName, String.toList_append] at hslash
  rcases List.mem_append.1 hslash with hword | hnumber
  · revert hword
    decide
  · rw [Nat.toString_eq_repr, Nat.toList_repr] at hnumber
    have hdigit := Nat.isDigit_of_mem_toDigits (by decide) (by decide) hnumber
    revert hdigit
    decide

theorem steps_pipePath (cfg : Config) (n : UInt32) :
    Path.steps (cfg.pipePath n) = Path.steps cfg.pipeDir ++ [pipeName n] := by
  have hstart : (pipeName n).startsWith "/" = false := by simp [HeaderKind.toList_pipeName]
  have hne : pipeName n ≠ "" :=
    SegmentKey.ne_empty_of_toList (c := 's') (by simp [HeaderKind.toList_pipeName])
  rw [Config.pipePath, Path.steps_join hstart]
  simp [Path.steps, Path.pieces, List.splitOn_eq_singleton (slash_not_mem_pipeName n), hne]

/-- The path of a pipe leads to its name. -/
theorem LeadsTo.exists_pipeName (h : d.LeadsTo (cfg.pipePath n) l) :
    ∃ parent, l = parent ++ [pipeName n] := by
  obtain ⟨parent, last, htarget, -, rfl⟩ := h
  unfold target at htarget
  split at htarget
  · cases htarget
  · split at htarget
    · cases htarget
    · have hwalk : d.walk ((cfg.pipePath n).endsWith "/") []
          (Path.steps cfg.pipeDir ++ [pipeName n]) = .ok (.name parent last false) := by
        rw [← steps_pipePath]
        exact htarget
      have hdot : pipeName n ≠ "." := fun heq => by
        simpa [HeaderKind.toList_pipeName] using congrArg String.toList heq
      have hdots : pipeName n ≠ ".." := fun heq => by
        simpa [HeaderKind.toList_pipeName] using congrArg String.toList heq
      obtain ⟨other, hdestination⟩ := walk_concat hdot hdots hwalk
      injection hdestination with hparent hlast hslash
      exact ⟨parent, by rw [hlast]⟩

/-- **No two pipes are in one place.** -/
theorem LeadsTo.number_eq (hn : d.LeadsTo (cfg.pipePath n) l) (hm : d.LeadsTo (cfg.pipePath m) l) :
    n = m := by
  obtain ⟨parent, rfl⟩ := hn.exists_pipeName
  obtain ⟨parent', hsame⟩ := hm.exists_pipeName
  exact pipeName_injective (by simpa using (List.append_inj' hsame rfl).2)

/-! ## Who has a pipe open -/

/-- A path leads to no pipe, or to one that nobody has open. -/
def IsIdle (d : Disk) (path : String) : Prop :=
  ∀ id, d.fileAt path = some id → ∃ mode, d.file? id = some (.fifo mode 0 0)

/-- A subscriber, and nobody else, has the pipe open, and some bytes wait in it. -/
structure Hears (d : Disk) (p : Pipe) (waiting : Nat) : Prop where
  plain : Path.hasNul p.path = false
  found : d.fileAt p.path = some p.file
  opened : ∃ mode, Access.both.allowedBy mode = true ∧
    d.file? p.file = some (.fifo mode waiting 1)

/-- Two disks that differ in what is at the end of the path of one pipe at most, and in regular
files.  What is there is the file that was there, or a new one. -/
structure OnlyPipe (cfg : Config) (n : UInt32) (d d' : Disk) : Prop where
  others : ∀ m, m ≠ n → d'.fileAt (cfg.pipePath m) = d.fileAt (cfg.pipePath m)
  pipes : ∀ id mode waiting readers, d.file? id = some (.fifo mode waiting readers) →
    d.fileAt (cfg.pipePath n) ≠ some id → d'.file? id = some (.fifo mode waiting readers)
  here : ∀ id, d'.fileAt (cfg.pipePath n) = some id →
    d.fileAt (cfg.pipePath n) = some id ∨ d.file? id = none

variable {p : Pipe} {waiting : Nat}

theorem fileAt_congr (hentries : d'.entries = d.entries) (path : String) :
    d'.fileAt path = d.fileAt path := by
  rw [fileAt, fileAt, find_congr hentries]

/-- What is in a file is nothing to the paths. -/
theorem fileAt_modifyFile (d : Disk) (id : FileId) (change : FileNode → FileNode)
    (path : String) : (d.modifyFile id change).fileAt path = d.fileAt path :=
  fileAt_congr (show (d.modifyFile id change).entries = d.entries from rfl) path

namespace OnlyPipe

theorem refl (cfg : Config) (n : UInt32) (d : Disk) : OnlyPipe cfg n d d :=
  ⟨fun _ _ => rfl, fun _ _ _ _ hfile _ => hfile, fun _ => .inl⟩

/-- The file that is there may be changed. -/
theorem modifyFile (honly : OnlyPipe cfg n d d') (hfile : d'.fileAt (cfg.pipePath n) = some id)
    (change : FileNode → FileNode) : OnlyPipe cfg n d (d'.modifyFile id change) := by
  refine ⟨fun m hm => (fileAt_modifyFile ..).trans (honly.others m hm), ?_, ?_⟩
  · intro other mode waiting readers hother hnot
    rw [file?_modifyFile_of_ne]
    · exact honly.pipes other mode waiting readers hother hnot
    · rintro rfl
      rcases honly.here other hfile with hold | hnone
      · exact hnot hold
      · rw [hother] at hnone
        cases hnone
  · intro other hthere
    rw [fileAt_modifyFile] at hthere
    exact honly.here other hthere

/-- Its name may be taken away. -/
theorem unlinkAt (honly : OnlyPipe cfg n d d') (h : d'.LeadsTo (cfg.pipePath n) l)
    (hentry : d'.entryAt l = some (.file id)) : OnlyPipe cfg n d (d'.unlinkAt l) where
  others m hm := by
    have hname := onlyName_unlinkAt h.ne_root hentry
    exact (hname.fileAt_of_not fun hleads => hm (hleads.number_eq h)).trans (honly.others m hm)
  pipes := honly.pipes
  here other hthere := by
    rw [fileAt_unlinkAt h hentry] at hthere
    cases hthere

section Elsewhere

variable (honly : OnlyPipe cfg n d d') (hm : m ≠ n)
  (hapart : ∀ id, d.fileAt (cfg.pipePath m) = some id → d.fileAt (cfg.pipePath n) ≠ some id)

include honly hm hapart

/-- Another pipe stays idle. -/
theorem isIdle (hidle : d.IsIdle (cfg.pipePath m)) : d'.IsIdle (cfg.pipePath m) := by
  intro id hthere
  rw [honly.others m hm] at hthere
  obtain ⟨mode, hfile⟩ := hidle id hthere
  exact ⟨mode, honly.pipes id mode 0 0 hfile (hapart id hthere)⟩

/-- What waits in another pipe goes on waiting. -/
theorem hears (hp : p.path = cfg.pipePath m) (hears : d.Hears p waiting) :
    d'.Hears p waiting := by
  obtain ⟨mode, hboth, hfile⟩ := hears.opened
  have hfound : d.fileAt (cfg.pipePath m) = some p.file := hp ▸ hears.found
  refine ⟨hears.plain, ?_, mode, hboth, honly.pipes _ _ _ _ hfile (hapart _ hfound)⟩
  rw [hp, honly.others m hm, hfound]

end Elsewhere

end OnlyPipe

/-- A pipe is made where there was nothing. -/
theorem onlyPipe_addFile {node : FileNode} (h : d.LeadsTo (cfg.pipePath n) l)
    (hfree : d.entryAt l = none) : OnlyPipe cfg n d (d.addFile l node).2 where
  others m hm :=
    (onlyName_addFile h.ne_root hfree).fileAt_of_not fun hleads => hm (hleads.number_eq h)
  pipes id mode waiting readers hfile _ := by
    have hid : id < d.files.length := by
      obtain ⟨hid, -⟩ := List.getElem?_eq_some_iff.1 hfile
      exact hid
    have hold : (d.files ++ [node])[id]? = d.files[id]? := List.getElem?_append_left hid
    exact hold.trans hfile
  here id hthere := by
    rw [fileAt_addFile h hfree] at hthere
    cases hthere
    exact .inr (List.getElem?_eq_none (Nat.le_refl _))

/-- Nobody reaches an idle pipe. -/
theorem IsIdle.openForWriting (hidle : d.IsIdle path) : ∃ e, d.openForWriting path = .error e := by
  unfold Disk.openForWriting
  cases hopen : d.openFile path .write with
  | error e => exact ⟨e, rfl⟩
  | ok id =>
      obtain ⟨mode, hfile⟩ := hidle id (openFile_eq_ok_iff.1 hopen).1
      exact ⟨.noPeer, by simp [bind, Except.bind, hfile]⟩

theorem Hears.openForWriting (hears : d.Hears p waiting) :
    d.openForWriting p.path = .ok p.file := by
  obtain ⟨mode, hboth, hfile⟩ := hears.opened
  have hwrites : Access.write.allowedBy mode = true := by
    simp only [Access.allowedBy, Bool.and_eq_true] at hboth
    exact hboth.2
  have hopen : d.openFile p.path .write = .ok p.file := by
    refine openFile_eq_ok_iff.2 ⟨hears.found, ?_⟩
    rw [allows, hfile]
    exact hwrites
  rw [Disk.openForWriting, hopen]
  simp [bind, Except.bind, hfile]

/-- The number of the bytes may change. -/
theorem Hears.setWaiting (hears : d.Hears p waiting) {mode : Nat}
    (hfile : d.file? p.file = some (.fifo mode waiting 1)) (left : Nat) :
    (d.modifyFile p.file fun _ => .fifo mode left 1).Hears p left := by
  obtain ⟨mode', hboth, hfile'⟩ := hears.opened
  rw [hfile] at hfile'
  cases hfile'
  refine ⟨hears.plain, (fileAt_modifyFile ..).trans hears.found, mode, hboth, ?_⟩
  rw [file?_modifyFile_same, hfile]
  rfl

theorem Hears.pending_eq (hears : d.Hears p waiting) : d.pending p.file = waiting := by
  obtain ⟨mode, -, hfile⟩ := hears.opened
  rw [pending, hfile]

/-- Once the subscriber has closed the pipe, nobody has it open. -/
theorem Hears.isIdle_detach (hears : d.Hears p waiting) : (d.detach p.file).IsIdle p.path := by
  obtain ⟨mode, -, hfile⟩ := hears.opened
  intro id hid
  rw [detach, fileAt_modifyFile, hears.found] at hid
  cases hid
  refine ⟨mode, ?_⟩
  rw [detach, file?_modifyFile_same, hfile]
  rfl

/-- A subscriber who opens an idle pipe hears. -/
theorem IsIdle.hears_attach (hidle : d.IsIdle p.path) (hplain : Path.hasNul p.path = false)
    (hopen : d.openFile p.path .both = .ok p.file) : (d.attach p.file).Hears p 0 := by
  obtain ⟨hfound, hallows⟩ := openFile_eq_ok_iff.1 hopen
  obtain ⟨mode, hfile⟩ := hidle _ hfound
  rw [allows, hfile] at hallows
  refine ⟨hplain, (fileAt_modifyFile ..).trans hfound, mode, hallows, ?_⟩
  rw [attach, file?_modifyFile_same, hfile]
  rfl

/-- Making a pipe fails, or makes an idle one in a free place. -/
theorem makeFifo_cases (d : Disk) (path : String) (mode : Nat) :
    (∃ e, d.makeFifo path mode = .error e) ∨
    ∃ l, d.LeadsTo path l ∧ d.entryAt l = none ∧
      d.makeFifo path mode = .ok (d.addFile l (.fifo (grantedMode mode) 0 0)).2 := by
  unfold makeFifo
  by_cases hkind : hasBit mode otherKinds = true
  · exact .inl ⟨.invalid, by rw [if_pos hkind]⟩
  · rw [if_neg hkind]
    cases htarget : d.target path with
    | error e => exact .inl ⟨e, rfl⟩
    | ok destination =>
        cases destination with
        | dots location => exact .inl ⟨.exists_, rfl⟩
        | name parent last slash =>
            by_cases hlong : maxNameLength < last.utf8ByteSize
            · exact .inl ⟨.nameTooLong, by simp [bind, Except.bind, lookupName, hlong]⟩
            · cases hentry : d.entryAt (parent ++ [last]) with
              | some entry =>
                  exact .inl ⟨.exists_, by simp [bind, Except.bind, lookupName, hlong, hentry]⟩
              | none =>
                  cases slash with
                  | true =>
                      exact .inl ⟨.noEntry, by simp [bind, Except.bind, lookupName, hlong, hentry]⟩
                  | false =>
                      refine .inr ⟨_, ⟨parent, last, htarget, Nat.not_lt.1 hlong, rfl⟩, hentry, ?_⟩
                      simp [bind, Except.bind, lookupName, hlong, hentry]

/-- A pipe that has just been made is idle. -/
theorem isIdle_addFile {mode : Nat} (h : d.LeadsTo path l) (hfree : d.entryAt l = none) :
    (d.addFile l (.fifo mode 0 0)).2.IsIdle path := by
  intro id hid
  rw [fileAt_addFile h hfree] at hid
  cases hid
  exact ⟨mode, List.getElem?_concat_length⟩

/-- The name of a file can be taken away. -/
theorem exists_unlink (hfile : d.fileAt path = some id) :
    ∃ l, d.LeadsTo path l ∧ d.entryAt l = some (.file id) ∧ d.unlink path = .ok (d.unlinkAt l) := by
  obtain ⟨l, hleads, hentry⟩ := fileAt_eq_some_iff.1 hfile
  refine ⟨l, hleads, hentry, ?_⟩
  obtain ⟨parent, last, htarget, hshort, rfl⟩ := hleads
  simp [unlink, htarget, lookupName, Nat.not_lt.2 hshort, hentry, bind, Except.bind]

end Disk

/-! ## The calls -/

/-- No name has changed, and no pipe. -/
def Host.pipes : Frame Host where
  keeps h h' := h'.disk.entries = h.disk.entries ∧ ∀ id mode waiting readers,
    h.disk.file? id = some (.fifo mode waiting readers) →
      h'.disk.file? id = some (.fifo mode waiting readers)
  refl _ := ⟨rfl, fun _ _ _ _ hfile => hfile⟩
  trans hab hbc := ⟨hbc.1.trans hab.1, fun id mode waiting readers hfile =>
    hbc.2 id mode waiting readers (hab.2 id mode waiting readers hfile)⟩

theorem Host.pipes_of_disk {h h' : Host} (hdisk : h'.disk = h.disk) : pipes.keeps h h' := by
  refine ⟨by rw [hdisk], fun id mode waiting readers hfile => ?_⟩
  rw [hdisk]
  exact hfile

/-- Locks lie in regular files. -/
theorem Host.pipes_admitsLocks : AdmitsLocks pipes where
  note _ _ _ := pipes_of_disk rfl
  lock h place lock := by
    cases place with
    | loose id => exact pipes_of_disk rfl
    | inFile file offset =>
        refine ⟨rfl, fun id mode waiting readers hfile => ?_⟩
        show (h.disk.modifyContent file _).file? id = _
        rw [Disk.modifyContent]
        by_cases hsame : id = file
        · subst hsame
          rw [Disk.file?_modifyFile_same, hfile]
          rfl
        · rw [Disk.file?_modifyFile_of_ne _ hsame]
          exact hfile

/-- Who sleeps leaves all pipes as they are. -/
theorem Host.sleep_pipes (span : Span) (h : Host) :
    ∃ h', (Host.sleep span : HostM Error Unit) h = .ok () h' ∧ Host.pipes.keeps h h' := by
  generalize hlimit : (deadline h.now span).toNanos = limit
  obtain ⟨h', helapse, -⟩ := Host.elapse_eq_ok (ε := Error) limit (fun _ => false) h.stepBound h
  have hpipes := Host.pipes_admitsLocks.elapse (ε := Error) (fun _ _ => Host.pipes_of_disk)
    limit (fun _ => false) h.stepBound h
  rw [helapse] at hpipes
  refine ⟨h', ?_, hpipes⟩
  rw [Host.sleep, get_bind_eq, hlimit, Host.pass, get_bind_eq, helapse]

theorem Disk.OnlyPipe.of_pipes {cfg : Config} {n : UInt32} {h h' : Host}
    (hpipes : Host.pipes.keeps h h') : OnlyPipe cfg n h.disk h'.disk where
  others _ _ := fileAt_congr hpipes.1 _
  pipes id mode waiting readers hfile _ := hpipes.2 id mode waiting readers hfile
  here _ hthere := .inl ((fileAt_congr hpipes.1 _).symm.trans hthere)

theorem Disk.Hears.of_pipes {p : Pipe} {waiting : Nat} {h h' : Host}
    (hears : h.disk.Hears p waiting) (hpipes : Host.pipes.keeps h h') :
    h'.disk.Hears p waiting := by
  obtain ⟨mode, hboth, hfile⟩ := hears.opened
  exact ⟨hears.plain, (fileAt_congr hpipes.1 _).trans hears.found, mode, hboth,
    hpipes.2 _ _ _ _ hfile⟩

namespace Pipe

variable {cfg : Config} {n : UInt32} {h : Host} {p : Pipe} {waiting : Nat}

/-! ### Draining -/

theorem drain_of_ok {taken : Nat} {disk : Disk}
    (htake : h.disk.takeBytes p.file drainChunk = .ok (taken, disk)) (htaken : taken ≠ 0) :
    drain p h = drain p { h with disk := disk } := by
  rw [drain]
  split
  · next other disk' hother =>
      rw [htake] at hother
      cases hother
      rw [dif_neg htaken]
  · next e herror =>
      rw [htake] at herror
      cases herror

theorem drain_of_empty (htake : h.disk.takeBytes p.file drainChunk = .error .tryAgain) :
    drain p h = .ok () h := by
  rw [drain]
  split
  · next other disk hother =>
      rw [htake] at hother
      cases hother
  · next e herror =>
      rw [htake] at herror
      cases herror
      rw [if_pos rfl]

/-- **A pipe is drained**, however many bytes wait in it. -/
theorem drain_pipe {mode readers : Nat}
    (hfile : h.disk.file? p.file = some (.fifo mode waiting readers)) :
    ∃ h', drain p h = .ok () h' ∧
      h'.disk = h.disk.modifyFile p.file fun _ => .fifo mode 0 readers := by
  -- By induction on how many they are: each chunk leaves fewer of them.
  induction waiting using Nat.strongRecOn generalizing h with
  | _ waiting ih =>
      by_cases hempty : waiting = 0
      · subst hempty
        have htake : h.disk.takeBytes p.file drainChunk = .error .tryAgain := by
          rw [Disk.takeBytes, hfile]
          rfl
        refine ⟨h, drain_of_empty htake, (Disk.modifyFile_self fun node hnode => ?_).symm⟩
        rw [hfile] at hnode
        cases hnode
        rfl
      · let less := h.disk.modifyFile p.file fun _ => .fifo mode (waiting - drainChunk) readers
        have htake : h.disk.takeBytes p.file drainChunk = .ok (min drainChunk waiting, less) := by
          rw [Disk.takeBytes, hfile]
          simp only [if_neg hempty]
          rfl
        have hleft : less.file? p.file = some (.fifo mode (waiting - drainChunk) readers) := by
          rw [Disk.file?_modifyFile_same, hfile]
          rfl
        have hchunk : 0 < drainChunk := by decide
        obtain ⟨h', hdrain, hdisk⟩ :=
          ih (waiting - drainChunk) (by omega) (h := { h with disk := less }) hleft
        refine ⟨h', (drain_of_ok htake (by omega)).trans hdrain, hdisk.trans ?_⟩
        exact congrArg _ (List.modify_modify_eq ..)

/-! ### What becomes of a pipe -/

/-- After a call on a pipe that fails, or that has closed it, nobody has the pipe open. -/
structure LeavesIdle (cfg : Config) (n : UInt32) (h h' : Host) : Prop where
  only : Disk.OnlyPipe cfg n h.disk h'.disk
  idle : h'.disk.IsIdle (cfg.pipePath n)

/-- After a call on a pipe, a subscriber has it open, and some bytes wait in it. -/
structure LeavesOpen (cfg : Config) (n : UInt32) (p : Pipe) (waiting : Nat) (h h' : Host) :
    Prop where
  only : Disk.OnlyPipe cfg n h.disk h'.disk
  hears : h'.disk.Hears p waiting

theorem LeavesIdle.refl (hidle : h.disk.IsIdle (cfg.pipePath n)) : LeavesIdle cfg n h h :=
  ⟨.refl cfg n h.disk, hidle⟩

theorem requirePath_cases (path : String) (h : Host) :
    Path.hasNul path = false ∧ requirePath path h = .ok () h ∨
    ∃ e, requirePath path h = .error e h := by
  unfold requirePath
  by_cases hnul : Path.hasNul path = true
  · rw [if_pos hnul]
    exact .inr ⟨_, rfl⟩
  · rw [if_neg hnul]
    exact .inl ⟨eq_false_of_ne_true hnul, rfl⟩

theorem make_idle (mode : Nat) (hidle : h.disk.IsIdle (cfg.pipePath n)) :
    (∃ h', make (cfg.pipePath n) mode h = .ok () h' ∧ LeavesIdle cfg n h h') ∨
    ∃ e, make (cfg.pipePath n) mode h = .error e h := by
  unfold make
  rw [get_bind_eq]
  obtain ⟨e, hmake⟩ | ⟨l, hleads, hfree, hmake⟩ := h.disk.makeFifo_cases (cfg.pipePath n) mode
  · simp only [hmake]
    split
    · exact .inl ⟨h, rfl, .refl hidle⟩
    · exact .inr ⟨_, rfl⟩
  · simp only [hmake]
    exact .inl ⟨_, rfl, Disk.onlyPipe_addFile hleads hfree, Disk.isIdle_addFile hleads hfree⟩

/-- **Creating** ends with a subscriber who hears, or fails. -/
theorem create_idle (hidle : h.disk.IsIdle (cfg.pipePath n)) :
    (∃ p h', create cfg n h = .ok p h' ∧ p.path = cfg.pipePath n ∧ LeavesOpen cfg n p 0 h h') ∨
    ∃ e h', create cfg n h = .error e h' ∧ LeavesIdle cfg n h h' := by
  unfold create
  obtain ⟨hplain, hpath⟩ | ⟨e, hpath⟩ := requirePath_cases (cfg.pipePath n) h
  · simp only [bind_of_ok hpath]
    obtain ⟨h₁, hmake, honly, hidle₁⟩ | ⟨e, hmake⟩ := make_idle cfg.mode.toNat hidle
    · simp only [bind_of_ok hmake, get_bind_eq]
      cases hopen : h₁.disk.openFile (cfg.pipePath n) .both with
      | error e => exact .inr ⟨_, _, rfl, honly, hidle₁⟩
      | ok file =>
          have hfound := (Disk.openFile_eq_ok_iff.1 hopen).1
          refine .inl ⟨⟨file, cfg.pipePath n⟩, _, rfl, rfl, honly.modifyFile hfound _, ?_⟩
          exact Disk.IsIdle.hears_attach (p := ⟨file, cfg.pipePath n⟩) hidle₁ hplain hopen
    · exact .inr ⟨_, _, bind_of_error hmake, .refl hidle⟩
  · exact .inr ⟨_, _, bind_of_error hpath, .refl hidle⟩

/-- **Notifying** reaches a subscriber, and then something waits; a full pipe is no obstacle. -/
theorem notify_hears (hears : h.disk.Hears p waiting) (hp : p.path = cfg.pipePath n) :
    ∃ left h', notify cfg n h = .ok true h' ∧ 0 < left ∧ LeavesOpen cfg n p left h h' := by
  have hpath : requirePath (cfg.pipePath n) h = .ok () h := by
    rw [requirePath, ← hp, if_neg (by simp [hears.plain])]
    rfl
  have hopen : h.disk.openForWriting (cfg.pipePath n) = .ok p.file := hp ▸ hears.openForWriting
  have hfound : h.disk.fileAt (cfg.pipePath n) = some p.file := hp ▸ hears.found
  have hcapacity : 0 < pipeCapacity := by decide
  obtain ⟨mode, -, hfile⟩ := hears.opened
  unfold notify
  simp only [bind_of_ok hpath, get_bind_eq, hopen]
  by_cases hroom : waiting < pipeCapacity
  · have hput : h.disk.putByte p.file =
        .ok (h.disk.modifyFile p.file fun _ => .fifo mode (waiting + 1) 1) := by
      rw [Disk.putByte, hfile]
      simp only [if_pos hroom]
    refine ⟨waiting + 1, _, by rw [hput]; rfl, Nat.succ_pos _, ?_, ?_⟩
    · exact (Disk.OnlyPipe.refl cfg n h.disk).modifyFile hfound _
    · exact hears.setWaiting hfile _
  · have hput : h.disk.putByte p.file = .error .tryAgain := by
      rw [Disk.putByte, hfile]
      simp only [if_neg hroom]
    exact ⟨waiting, h, by rw [hput]; rfl, by omega, .refl cfg n h.disk, hears⟩

/-- Where nobody has the pipe open, nobody is reached. -/
theorem notify_idle (hidle : h.disk.IsIdle (cfg.pipePath n)) :
    notify cfg n h = .ok false h ∨ ∃ e, notify cfg n h = .error e h := by
  unfold notify
  obtain ⟨-, hpath⟩ | ⟨e, hpath⟩ := requirePath_cases (cfg.pipePath n) h
  · obtain ⟨e, hopen⟩ := hidle.openForWriting
    simp only [bind_of_ok hpath, get_bind_eq, hopen]
    split
    · exact .inl rfl
    · exact .inr ⟨_, rfl⟩
  · exact .inr ⟨_, bind_of_error hpath⟩

/-- **Waiting** tells whether something waited, and then nothing does. -/
theorem wait_hears (hears : h.disk.Hears p waiting) (hp : p.path = cfg.pipePath n)
    (timeout : Span) :
    ∃ h', wait p timeout h = .ok (decide (0 < waiting)) h' ∧ LeavesOpen cfg n p 0 h h' := by
  obtain ⟨mode, -, hfile⟩ := hears.opened
  have hreadable : h.disk.isReadable p.file = decide (waiting ≠ 0) := by
    rw [Disk.isReadable, hfile]
  unfold wait
  rw [get_bind_eq, hreadable]
  by_cases hempty : waiting = 0
  · subst hempty
    obtain ⟨h', hsleep, hpipes⟩ := Host.sleep_pipes (pollSpan timeout) h
    refine ⟨h', ?_, .of_pipes hpipes, hears.of_pipes hpipes⟩
    rw [if_neg (by simp), bind_of_ok hsleep, decide_eq_false (Nat.lt_irrefl 0)]
    rfl
  · obtain ⟨h', hdrain, hdisk⟩ := drain_pipe hfile
    have hfound : h.disk.fileAt (cfg.pipePath n) = some p.file := hp ▸ hears.found
    refine ⟨h', ?_, ?_, ?_⟩
    · rw [if_pos (by simpa using hempty), bind_of_ok hdrain,
        decide_eq_true (Nat.pos_of_ne_zero hempty)]
      rfl
    · rw [hdisk]
      exact (Disk.OnlyPipe.refl cfg n h.disk).modifyFile hfound _
    · rw [hdisk]
      exact hears.setWaiting hfile 0

/-- **Closing** leaves a pipe that nobody has open. -/
theorem close_hears (hears : h.disk.Hears p waiting) (hp : p.path = cfg.pipePath n) :
    ∃ h', (close p : HostM Error Unit) h = .ok () h' ∧ LeavesIdle cfg n h h' := by
  have hfound : h.disk.fileAt (cfg.pipePath n) = some p.file := hp ▸ hears.found
  refine ⟨_, rfl, (Disk.OnlyPipe.refl cfg n h.disk).modifyFile hfound _, ?_⟩
  rw [← hp]
  exact hears.isIdle_detach

/-- **Removing** takes the name of the pipe away as well. -/
theorem remove_hears (hears : h.disk.Hears p waiting) (hp : p.path = cfg.pipePath n) :
    ∃ h', remove p h = .ok () h' ∧ LeavesIdle cfg n h h' := by
  let closed : Host := { h with disk := h.disk.detach p.file }
  have hpath : requirePath p.path closed = .ok () closed := by
    rw [requirePath, if_neg (by simp [hears.plain])]
    rfl
  have hfound : closed.disk.fileAt p.path = some p.file :=
    (Disk.fileAt_modifyFile ..).trans hears.found
  have honly : Disk.OnlyPipe cfg n h.disk closed.disk :=
    (Disk.OnlyPipe.refl cfg n h.disk).modifyFile (hp ▸ hears.found) _
  obtain ⟨l, hleads, hentry, hunlink⟩ := Disk.exists_unlink hfound
  have hclose : (close p : HostM Error Unit) h = .ok () closed := rfl
  refine ⟨{ closed with disk := closed.disk.unlinkAt l }, ?_, ?_, ?_⟩
  · unfold remove
    refine (bind_of_ok hclose).trans ((bind_of_ok hpath).trans ?_)
    rw [get_bind_eq, hunlink]
    rfl
  · exact honly.unlinkAt (hp ▸ hleads) hentry
  · intro id hid
    rw [← hp, Disk.fileAt_unlinkAt hleads hentry] at hid
    cases hid

end Pipe

end Subscription
