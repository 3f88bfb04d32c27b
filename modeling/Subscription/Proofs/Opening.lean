import Subscription.Segment.Open
import Subscription.Proofs.Channel

/-!
# What opening a segment comes to

There are three ways in which the opening of a subscription segment ends, and
no others (`openSubscription_cases`).

* Nothing has the name: a file is made, and it is a channel without an event
  (`Host.Made`).  Once the file is there, nothing can fail any more.
* A file has the name and can be used: it is opened, and it is as before but for
  being long enough for a header (`Host.Found`).
* Anything else is an error, and leaves names and files as they are
  (`Host.Untouched`).
-/

namespace Subscription

/-! ## Files that are opened and closed -/

namespace Disk

variable {d d' : Disk} {path : String} {mode : Nat} {file id : FileId}

/-- Only pipes keep count of those who have them open. -/
theorem file?_attach (hreg : d.IsRegular id) (file : FileId) :
    (d.attach file).file? id = d.file? id := by
  obtain ⟨mode, c, hid⟩ := hreg
  by_cases hsame : id = file
  · subst hsame
    rw [attach, file?_modifyFile_same, hid]
    rfl
  · rw [attach, file?_modifyFile_of_ne _ hsame]

theorem file?_detach (hreg : d.IsRegular id) (file : FileId) :
    (d.detach file).file? id = d.file? id := by
  obtain ⟨mode, c, hid⟩ := hreg
  by_cases hsame : id = file
  · subst hsame
    rw [detach, file?_modifyFile_same, hid]
    rfl
  · rw [detach, file?_modifyFile_of_ne _ hsame]

theorem isRegular_congr (hfile : d'.file? id = d.file? id) (hreg : d.IsRegular id) :
    d'.IsRegular id := by
  obtain ⟨mode, c, hid⟩ := hreg
  exact ⟨mode, c, hfile.trans hid⟩

/-- A change that keeps pipes and regular files apart. -/
theorem isRegular_modifyFile_iff {change : FileNode → FileNode}
    (hregular : ∀ mode c, ∃ mode' c', change (.regular mode c) = .regular mode' c')
    (hpipe : ∀ mode pending readers, ∃ mode' pending' readers',
      change (.fifo mode pending readers) = .fifo mode' pending' readers') :
    (d.modifyFile file change).IsRegular id ↔ d.IsRegular id := by
  by_cases hsame : id = file
  · subst hsame
    rw [IsRegular, IsRegular, file?_modifyFile_same]
    cases hnode : d.file? id with
    | none => simp
    | some node =>
        cases node with
        | regular mode c =>
            obtain ⟨mode', c', hchange⟩ := hregular mode c
            simp [hchange]
        | fifo mode pending readers =>
            obtain ⟨mode', pending', readers', hchange⟩ := hpipe mode pending readers
            simp [hchange]
  · rw [IsRegular, IsRegular, file?_modifyFile_of_ne _ hsame]

/-- Whether a file is a pipe does not depend on who has it open. -/
theorem isRegular_attach_iff : (d.attach file).IsRegular id ↔ d.IsRegular id :=
  isRegular_modifyFile_iff (fun mode c => ⟨mode, c, rfl⟩)
    fun mode pending readers => ⟨mode, pending, readers + 1, rfl⟩

theorem isRegular_detach_iff : (d.detach file).IsRegular id ↔ d.IsRegular id :=
  isRegular_modifyFile_iff (fun mode c => ⟨mode, c, rfl⟩)
    fun mode pending readers =>
      ⟨mode, if readers ≤ 1 then 0 else pending, readers - 1, rfl⟩

theorem content_congr (hfile : d'.file? id = d.file? id) : d'.content id = d.content id := by
  rw [content, content, hfile]

theorem content_of_not_regular (hnot : ¬ d.IsRegular id) : d.content id = .empty := by
  rw [content]
  split
  · exact absurd ⟨_, _, ‹_›⟩ hnot
  · rfl

/-- A file that is made is a new one, under a name that was free. -/
theorem createFile_ok (hcreate : d.createFile path mode = .ok (file, d')) :
    ∃ parent last, d.target path = .ok (.name parent last false) ∧
      d.lookupName parent last = .ok none ∧ file = d.files.length ∧
      d' = (d.addFile (parent ++ [last]) (.regular (grantedMode mode) .empty)).2 := by
  unfold createFile at hcreate
  cases htarget : d.target path with
  | error e => simp [htarget, bind, Except.bind] at hcreate
  | ok destination =>
      cases destination with
      | dots location => simp [htarget, bind, Except.bind] at hcreate
      | name parent last slash =>
          cases slash with
          | true => simp [htarget, bind, Except.bind] at hcreate
          | false =>
              cases hlookup : d.lookupName parent last with
              | error e => simp [htarget, hlookup, bind, Except.bind] at hcreate
              | ok found =>
                  cases found with
                  | some entry => simp [htarget, hlookup, bind, Except.bind] at hcreate
                  | none =>
                      simp [htarget, hlookup, bind, Except.bind] at hcreate
                      exact ⟨parent, last, rfl, hlookup, congrArg Prod.fst hcreate.symm,
                        congrArg Prod.snd hcreate.symm⟩

/-- A file that can be opened is the one that the path leads to. -/
theorem fileAt_of_openFile {access : Access} (hopen : d.openFile path access = .ok file) :
    d.fileAt path = some file := by
  unfold openFile at hopen
  unfold fileAt
  cases hfind : d.find path with
  | error e => simp [hfind, bind, Except.bind] at hopen
  | ok found =>
      obtain ⟨location, entry⟩ := found
      cases entry with
      | directory => simp [hfind, bind, Except.bind] at hopen
      | file id =>
          by_cases hallowed : d.allows id access
          · simp [hfind, bind, Except.bind, hallowed] at hopen
            rw [hopen]
          · simp [hfind, bind, Except.bind, hallowed] at hopen

end Disk

/-! ## The three outcomes -/

/-- Two hosts that differ in pipes at most, and in what time it is and what has
been logged. -/
structure Host.Untouched (h h' : Host) : Prop where
  entries : h'.disk.entries = h.disk.entries
  count : h'.disk.files.length = h.disk.files.length
  files : ∀ id, h.disk.IsRegular id → h'.disk.file? id = h.disk.file? id
  leavers : h'.leavers = h.leavers
  waiters : h'.waiters = h.waiters

/-- A host, and what it is once a file under a new name has been made a segment. -/
structure Host.Made (location : Location) (kind : HeaderKind) (h h' : Host) : Prop where
  entries : h'.disk.entries = h.disk.entries ++ [(location, .file h.disk.files.length)]
  count : h'.disk.files.length = h.disk.files.length + 1
  files : ∀ id < h.disk.files.length, h'.disk.file? id = h.disk.file? id
  channel : h'.Channel h.disk.files.length kind (.blank kind)
  leavers : h'.leavers = h.leavers
  waiters : h'.waiters = h.waiters

/-- A host, and what it is once a file has been opened as a segment.  Only a file
that is too short for a header is changed. -/
structure Host.Found (file : FileId) (kind : HeaderKind) (h h' : Host) : Prop where
  only : OnlyFile file h h'
  regular : h.disk.IsRegular file
  file : kind.size ≤ (h.disk.content file).length → h'.disk.file? file = h.disk.file? file

namespace Host

variable {h : Host} {file : FileId}

theorem onlyFile_attach (h : Host) (file : FileId) :
    OnlyFile file h { h with disk := h.disk.attach file } :=
  onlyFile_modifyFile h file fun mode c => ⟨mode, c, rfl⟩

/-- What is opened and closed again is as before, unless it is a pipe. -/
theorem untouched_attach_detach (h : Host) (file : FileId) :
    Untouched h { h with disk := (h.disk.attach file).detach file } where
  entries := rfl
  count := by simp [Disk.attach, Disk.detach, Disk.modifyFile]
  files id hreg := by
    have hattach := Disk.file?_attach hreg file
    exact (Disk.file?_detach (Disk.isRegular_congr hattach hreg) file).trans hattach
  leavers := rfl
  waiters := rfl

theorem Untouched.refl (h : Host) : Untouched h h :=
  ⟨rfl, rfl, fun _ _ => rfl, rfl, rfl⟩

/-- The host with an open new file. -/
def withNewFile (h : Host) (location : Location) (mode : Nat) : Host :=
  { h with disk :=
      (h.disk.addFile location (.regular mode .empty)).2.attach h.disk.files.length }

theorem count_withNewFile (h : Host) (location : Location) (mode : Nat) :
    (h.withNewFile location mode).disk.files.length = h.disk.files.length + 1 := by
  simp [withNewFile, Disk.addFile, Disk.attach, Disk.modifyFile, Disk.link]

theorem file?_withNewFile_same (h : Host) (location : Location) (mode : Nat) :
    (h.withNewFile location mode).disk.file? h.disk.files.length =
      some (.regular mode .empty) := by
  have hadded : (h.disk.addFile location (.regular mode .empty)).2.file? h.disk.files.length =
      some (.regular mode .empty) := by
    simp [Disk.addFile, Disk.file?, Disk.link]
  exact (Disk.file?_attach ⟨mode, .empty, hadded⟩ _).trans hadded

theorem file?_withNewFile_of_lt (h : Host) (location : Location) (mode : Nat) {id : FileId}
    (hid : id < h.disk.files.length) :
    (h.withNewFile location mode).disk.file? id = h.disk.file? id := by
  refine (Disk.file?_modifyFile_of_ne _ (Nat.ne_of_lt hid)).trans ?_
  simp [Disk.addFile, Disk.file?, Disk.link, List.getElem?_append_left hid]

end Host

/-! ## A new header -/

/-- The content that a segment is made with. -/
def Content.fresh (kind : HeaderKind) : Content :=
  ((Content.empty.resize kind.size).write 0 (List.replicate kind.size 0)).initLock lockOffset

namespace Content

theorem length_fresh (kind : HeaderKind) : (fresh kind).length = kind.size := by
  cases kind <;> rfl

set_option maxRecDepth 4000 in
theorem lockAt_fresh (kind : HeaderKind) :
    (fresh kind).lockAt lockOffset = RwLock.fresh .ofSegments := by
  cases kind <;> rfl

set_option maxRecDepth 4000 in
/-- A new header holds no event. -/
theorem holds_fresh (kind : HeaderKind) : Holds kind (fresh kind) (.blank kind) where
  covers := by cases kind <;> exact Nat.le_refl _
  event := by cases kind <;> rfl
  requestId := by cases kind <;> rfl
  sid := by cases kind <;> rfl
  ncSid := by cases kind <;> rfl
  payloadLength := by cases kind <;> rfl
  payload := by cases kind <;> rfl
  priority := by cases kind <;> rfl
  subscriberCount := by cases kind <;> rfl

end Content

namespace Segment

variable {h h₁ : Host} {file : FileId} {path : String} {mode : Nat}

/-- The header is set up in any file that is long enough. -/
theorem initHeader_fitted (kind : HeaderKind) (hreg : h.disk.IsRegular file)
    (hlen : (h.disk.content file).length = kind.size) :
    ∃ h', initHeader kind (h.fitted file) = .ok () (h'.fitted file) ∧
      Host.Alters file (fun c =>
        (c.write 0 (List.replicate kind.size 0)).initLock lockOffset) h h' := by
  have hsize := kind.size_bounds
  have hmax : maxFileLength = 17592186040320 := rfl
  obtain ⟨h₁, hzero, hfirst⟩ := change_fitted (ε := Error)
    (f := fun c => c.write 0 (List.replicate kind.size 0)) hreg (Content.length_write _ _ _)
  have hlen₁ : (h₁.disk.content file).length = kind.size := by
    rw [hfirst.content, Content.length_write, hlen]
  have hset : setBytes 0 (List.replicate kind.size 0) (h.fitted file) =
      .ok () (h₁.fitted file) := by
    unfold setBytes
    refine (bind_of_ok (require_fitted ?_ (by omega) rfl)).trans hzero
    rw [List.length_replicate, hlen]
    omega
  have hrequire : require 0 (HeaderKind.size .single) headerAlignment (h₁.fitted file) =
      .ok () (h₁.fitted file) :=
    require_fitted (by rw [hlen₁]; exact hsize.1) (by omega) rfl
  obtain ⟨h₂, hlock, hsecond⟩ := change_fitted (ε := Error)
    (f := fun c => c.initLock lockOffset) (hfirst.only.regular hreg) rfl
  refine ⟨h₂, ?_, hfirst.trans hsecond⟩
  unfold initHeader
  refine (bind_of_ok hset).trans ?_
  exact (bind_of_ok hrequire).trans hlock

/-- A handle on a file that has just been opened.  A file that is too short is made long enough,
if it is no pipe and the length is not excessive; otherwise the handle is given up. -/
theorem mapAtLeast_cases (file : FileId) (n : Nat) (h : Host) :
    (∃ h', mapAtLeast n ⟨⟨some file, none⟩, h⟩ =
        .ok () ⟨(⟨some file, none⟩ : Segment).fittedTo (h'.disk.content file).length, h'⟩ ∧
      Host.Alters file (·.grown n) h h' ∧
      (n ≤ (h.disk.content file).length → h' = h) ∧
      ((h.disk.content file).length < n → h.disk.IsRegular file ∧ n ≤ maxFileLength)) ∨
    (h.disk.content file).length < n ∧ ¬ (h.disk.IsRegular file ∧ n ≤ maxFileLength) ∧
      ∃ e, mapAtLeast n ⟨⟨some file, none⟩, h⟩ =
        .error e ⟨unowned, { h with disk := h.disk.detach file }⟩ := by
  have hlength : fileLength ⟨⟨some file, none⟩, h⟩ =
      .ok (h.disk.content file).length ⟨⟨some file, none⟩, h⟩ := rfl
  by_cases hless : (h.disk.content file).length < n
  · obtain ⟨hzero, -⟩ | ⟨-, disk, hresize, hremap⟩ | ⟨-, e, hrefused, hremap⟩ :=
      remap_some_cases (t := ⟨some file, none⟩) (h := h) rfl n
    · have hnone : n = 0 := hzero
      omega
    · obtain ⟨hreg, hshort, -⟩ := Disk.resizeFile_eq_ok_iff.1 hresize
      have haltered := Host.alters_resizeFile hresize
      have hlong : (disk.content file).length = n := by
        rw [haltered.content, Content.length_resize]
      refine .inl ⟨{ h with disk }, ?_, ⟨haltered.only, ?_⟩, fun hle => by omega,
        fun _ => ⟨hreg, hshort⟩⟩
      · unfold mapAtLeast
        refine (bind_of_ok hlength).trans ?_
        rw [if_pos hless, hlong]
        exact (bind_of_ok (attempt_of_ok hremap)).trans rfl
      · rw [haltered.content, Content.grown, if_pos hless]
    · refine .inr ⟨hless, ?_, e, ?_⟩
      · exact fun hgood => hrefused _ (Disk.resizeFile_eq_ok_iff.2 ⟨hgood.1, hgood.2, rfl⟩)
      · unfold mapAtLeast
        refine (bind_of_ok hlength).trans ?_
        rw [if_pos hless]
        exact (bind_of_ok (attempt_of_error hremap)).trans rfl
  · refine .inl ⟨h, ?_, ⟨Host.OnlyFile.refl h, ?_⟩, fun _ => rfl, fun hlt => absurd hlt hless⟩
    · unfold mapAtLeast
      refine (bind_of_ok hlength).trans ?_
      rw [if_neg hless]
      exact (bind_of_ok (attempt_of_ok (remap_fittedTo rfl))).trans rfl
    · rw [Content.grown, if_neg hless]

/-- A regular file is made long enough. -/
theorem mapAtLeast_regular {n : Nat} (hreg : h.disk.IsRegular file) (hpos : 0 < n)
    (hshort : n ≤ maxFileLength) :
    ∃ h', mapAtLeast n ⟨⟨some file, none⟩, h⟩ = .ok () (h'.fitted file) ∧
      Host.Alters file (·.grown n) h h' ∧
      (n ≤ (h.disk.content file).length → h' = h) := by
  obtain ⟨h', hmap, hgrown, hkept, -⟩ | ⟨-, hbad, -⟩ := mapAtLeast_cases file n h
  · have hlength : 0 < (h'.disk.content file).length := by
      rw [hgrown.content, Content.length_grown]
      omega
    rw [fittedTo_of_pos rfl hlength] at hmap
    exact ⟨h', hmap, hgrown, hkept⟩
  · exact absurd ⟨hreg, hshort⟩ hbad

/-- What is no regular file cannot be made long enough. -/
theorem mapAtLeast_pipe {n : Nat} (hnot : ¬ h.disk.IsRegular file) (hpos : 0 < n) :
    ∃ e, mapAtLeast n ⟨⟨some file, none⟩, h⟩ =
      .error e ⟨unowned, { h with disk := h.disk.detach file }⟩ := by
  have hempty : (h.disk.content file).length < n := by
    rw [Disk.content_of_not_regular hnot]
    exact hpos
  obtain ⟨-, -, -, -, hgood⟩ | ⟨-, -, hfailed⟩ := mapAtLeast_cases file n h
  · exact absurd (hgood hempty).1 hnot
  · exact hfailed

/-! ## Opening -/

/-- Opening the file of a segment gives one that was made under a free name, or
one that was there, or an error. -/
theorem openFile_cases (path : String) (mode : Nat) (h : Host) :
    (∃ parent last, h.disk.target path = .ok (.name parent last false) ∧
      h.disk.lookupName parent last = .ok none ∧
      openFile path mode h = .ok (h.disk.files.length, true)
        (h.withNewFile (parent ++ [last]) (grantedMode mode))) ∨
    (∃ file, h.disk.openFile path .both = .ok file ∧
      openFile path mode h = .ok (file, false) { h with disk := h.disk.attach file }) ∨
    ∃ e, openFile path mode h = .error e h := by
  cases hcreate : h.disk.createFile path mode with
  | ok made =>
      obtain ⟨file, disk⟩ := made
      obtain ⟨parent, last, htarget, hfree, hfile, hdisk⟩ := Disk.createFile_ok hcreate
      refine .inl ⟨parent, last, htarget, hfree, ?_⟩
      unfold openFile
      refine get_bind_eq.trans ?_
      simp only [hcreate]
      rw [hfile, hdisk]
      rfl
  | error e =>
      by_cases hexists : e = .exists_
      · cases hopen : h.disk.openFile path .both with
        | ok file =>
            refine .inr (.inl ⟨file, rfl, ?_⟩)
            unfold openFile
            refine get_bind_eq.trans ?_
            simp only [hcreate, if_pos hexists, hopen]
            rfl
        | error e' =>
            refine .inr (.inr ⟨.system "open" (.errno e'), ?_⟩)
            unfold openFile
            refine get_bind_eq.trans ?_
            simp only [hcreate, if_pos hexists, hopen]
            rfl
      · refine .inr (.inr ⟨.system "open" (.errno e), ?_⟩)
        unfold openFile
        refine get_bind_eq.trans ?_
        simp only [hcreate, if_neg hexists]
        rfl

theorem runOn_of_ok {ε α : Type} {act : SegmentM ε α} {t : Segment} {a : α} {u : Attached}
    (hact : act ⟨t, h⟩ = .ok a u) : runOn t act h = .ok (a, u.segment) u.host := by
  simp [runOn, hact]

theorem runOn_of_error {ε α : Type} {act : SegmentM ε α} {t : Segment} {e : ε} {u : Attached}
    (hact : act ⟨t, h⟩ = .error e u) : runOn t act h = .error e u.host := by
  simp [runOn, hact]

/-- What is made is mapped in full length. -/
theorem openOrCreate_made (kind : HeaderKind) (hnul : Path.hasNul path = false)
    (hopen : openFile path mode h = .ok (file, true) h₁) (hreg : h₁.disk.IsRegular file)
    (hempty : h₁.disk.content file = .empty) :
    ∃ h', openOrCreate path kind.size mode h = .ok ((h'.fitted file).segment, true) h' ∧
      Host.Alters file (·.resize kind.size) h₁ h' := by
  have hsize := kind.size_bounds
  have hmax : maxFileLength = 17592186040320 := rfl
  have hpos : Content.empty.length < kind.size := by
    show 0 < kind.size
    omega
  obtain ⟨h₂, hmap, hgrown, -⟩ :=
    mapAtLeast_regular hreg (show 0 < kind.size by omega) (by omega)
  refine ⟨h₂.note .debug
    s!"Created SHM \"{path}\" ({(h₂.fitted file).segment.size} bytes).", ?_, ?_, ?_⟩
  · unfold openOrCreate
    rw [if_neg (by simp [hnul])]
    refine (bind_of_ok hopen).trans ?_
    exact (bind_of_ok (attempt_of_ok (runOn_of_ok hmap))).trans rfl
  · exact hgrown.only.trans ⟨rfl, rfl, fun _ _ => rfl, id, rfl, rfl⟩
  · refine hgrown.content.trans ?_
    rw [hempty, Content.grown, if_pos hpos]

/-- What is made under a free name is a segment in the end. -/
theorem openSubscription_made (kind : HeaderKind) (hnul : Path.hasNul path = false)
    {location : Location} {m : Nat}
    (hopen : openFile path mode h = .ok (h.disk.files.length, true)
      (h.withNewFile location m)) :
    ∃ s h', openSubscription path kind mode h = .ok (s, true) h' ∧
      s.file = some h.disk.files.length ∧ Host.Made location kind h h' := by
  have hsize := kind.size_bounds
  have hmax : maxFileLength = 17592186040320 := rfl
  have hnew := h.file?_withNewFile_same location m
  have hreg : (h.withNewFile location m).disk.IsRegular h.disk.files.length := ⟨m, .empty, hnew⟩
  obtain ⟨h₁, hmade, hfirst⟩ := openOrCreate_made kind hnul hopen hreg
    (by rw [Disk.content, hnew])
  have hcontent₁ : h₁.disk.content h.disk.files.length = Content.empty.resize kind.size := by
    rw [hfirst.content, Disk.content, hnew]
  obtain ⟨h₂, hinit, hsecond⟩ := initHeader_fitted kind
    (hfirst.only.regular hreg) (by rw [hcontent₁, Content.length_resize])
  have hcontent₂ : h₂.disk.content h.disk.files.length = Content.fresh kind := by
    rw [hsecond.content, hcontent₁]
    rfl
  have honly := hfirst.only.trans hsecond.only
  refine ⟨(h₂.fitted h.disk.files.length).segment, h₂, ?_, rfl, ?_⟩
  · unfold openSubscription
    refine (bind_of_ok hmade).trans ?_
    refine (bind_of_ok (attempt_of_ok (runOn_of_ok (a := ()) (u := h₂.fitted _) ?_))).trans rfl
    exact (bind_of_ok (attempt_of_ok hinit)).trans rfl
  · exact
      { entries := honly.entries
        count := honly.count.trans (h.count_withNewFile location m)
        files := fun id hid =>
          (honly.others id (Nat.ne_of_lt hid)).trans
            (h.file?_withNewFile_of_lt location m hid)
        channel :=
          { regular := honly.regular hreg
            short := by
              rw [hcontent₂, Content.length_fresh]
              omega
            idle := by
              show ((h₂.disk.content h.disk.files.length).lockAt lockOffset).IsIdle
              rw [hcontent₂, Content.lockAt_fresh]
              exact ⟨⟨rfl, rfl, rfl⟩, rfl⟩
            holds := by
              rw [hcontent₂]
              exact Content.holds_fresh kind }
        leavers := honly.leavers
        waiters := honly.waiters }

/-- What is there under the name is a segment, or it is no regular file. -/
theorem openSubscription_found (kind : HeaderKind) (hnul : Path.hasNul path = false)
    (hopen : openFile path mode h = .ok (file, false)
      { h with disk := h.disk.attach file }) :
    (∃ s h', openSubscription path kind mode h = .ok (s, false) h' ∧ s.file = some file ∧
      Host.Found file kind h h') ∨
    ∃ e h', openSubscription path kind mode h = .error e h' ∧ Host.Untouched h h' := by
  have hsize := kind.size_bounds
  have hmax : maxFileLength = 17592186040320 := rfl
  have hattach := Host.onlyFile_attach h file
  by_cases hreg : h.disk.IsRegular file
  · have hsame := Disk.file?_attach hreg file
    obtain ⟨h', hmap, hgrown, hkept⟩ := mapAtLeast_regular
      (h := { h with disk := h.disk.attach file }) (hattach.regular hreg)
      (show 0 < kind.size by omega) (by omega)
    refine .inl ⟨(h'.fitted file).segment, h', ?_, rfl, hattach.trans hgrown.only, hreg, ?_⟩
    · have hfound : openOrCreate path kind.size mode h =
          .ok ((h'.fitted file).segment, false) h' := by
        unfold openOrCreate
        rw [if_neg (by simp [hnul])]
        refine (bind_of_ok hopen).trans ?_
        exact (bind_of_ok (attempt_of_ok (runOn_of_ok hmap))).trans rfl
      unfold openSubscription
      exact (bind_of_ok hfound).trans rfl
    · intro hlong
      rw [hkept (by rw [Disk.content_congr hsame]; exact hlong)]
      exact hsame
  · have hnot : ¬ (h.disk.attach file).IsRegular file :=
      fun hattached => hreg (Disk.isRegular_attach_iff.1 hattached)
    obtain ⟨e, hmap⟩ := mapAtLeast_pipe (h := { h with disk := h.disk.attach file }) hnot
      (show 0 < kind.size by omega)
    refine .inr ⟨e, _, ?_, Host.untouched_attach_detach h file⟩
    have hfailed : openOrCreate path kind.size mode h =
        .error e { h with disk := (h.disk.attach file).detach file } := by
      unfold openOrCreate
      rw [if_neg (by simp [hnul])]
      refine (bind_of_ok hopen).trans ?_
      exact (bind_of_ok (attempt_of_error (runOn_of_error hmap))).trans rfl
    unfold openSubscription
    exact bind_of_error hfailed

/-- **How the opening of a subscription segment ends.** -/
theorem openSubscription_cases (path : String) (kind : HeaderKind) (mode : Nat) (h : Host) :
    (∃ parent last s h', Path.hasNul path = false ∧
      h.disk.target path = .ok (.name parent last false) ∧
      h.disk.lookupName parent last = .ok none ∧
      openSubscription path kind mode h = .ok (s, true) h' ∧
      s.file = some h.disk.files.length ∧ Host.Made (parent ++ [last]) kind h h') ∨
    (∃ file s h', h.disk.fileAt path = some file ∧
      openSubscription path kind mode h = .ok (s, false) h' ∧
      s.file = some file ∧ Host.Found file kind h h') ∨
    ∃ e h', openSubscription path kind mode h = .error e h' ∧ Host.Untouched h h' := by
  have hsize := kind.size_bounds
  have hmax : maxFileLength = 17592186040320 := rfl
  by_cases hnul : Path.hasNul path = true
  · refine .inr (.inr ⟨.invalid (.nulInPath path), h, ?_, Host.Untouched.refl h⟩)
    unfold openSubscription openOrCreate
    rw [if_pos hnul]
    rfl
  · rw [Bool.not_eq_true] at hnul
    rcases openFile_cases path mode h with ⟨parent, last, htarget, hfree, hopen⟩ |
      ⟨file, hopen, hfile⟩ | ⟨e, hfail⟩
    · obtain ⟨s, h', hrun, hfile, hmade⟩ :=
        openSubscription_made kind hnul hopen
      exact .inl ⟨parent, last, s, h', hnul, htarget, hfree, hrun, hfile, hmade⟩
    · rcases openSubscription_found kind hnul hfile with
        ⟨s, h', hrun, hsame, hfound⟩ | hfailed
      · exact .inr (.inl ⟨file, s, h', Disk.fileAt_of_openFile hopen, hrun, hsame, hfound⟩)
      · exact .inr (.inr hfailed)
    · refine .inr (.inr ⟨e, h, ?_, Host.Untouched.refl h⟩)
      unfold openSubscription openOrCreate
      rw [if_neg (by simp [hnul])]
      exact bind_of_error (bind_of_error hfail)

end Segment

end Subscription
