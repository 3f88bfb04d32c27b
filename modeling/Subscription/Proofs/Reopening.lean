import Mathlib.Logic.Function.Iterate
import Subscription.Proofs.SegmentDirectory

/-!
# Opening disturbs nothing

A path can be opened for as many bytes as a segment needs, whatever lies there.  All that can
come of it is told by `Host.Opening`:

* nothing has the name, and a file is made, which is as long as asked for;
* a file has the name, and it is opened; it grows when it is too short, and what was in it stays;
* it fails.  Then names and files are as before (`Host.Kept`), also when a file had been made
  already: its name is taken away again, and that cannot fail, since the path still leads there
  (`Segment.kept_withNewFile`).

A path that has been opened, or that could not be, is *settled* (`Host.Settled`): opening it once
more makes no file and lets none grow.  So opening it any number of times comes to no more than
opening it once (`Segment.kept_openings`).
-/

namespace Subscription

/-! ## Paths -/

namespace Disk

variable {d d' : Disk} {path last : String} {parent location : Location} {file id : FileId}
  {entry : Option Entry} {access : Access}

section SameNames

variable (hentries : d'.entries = d.entries)

include hentries

theorem entryAt_congr (l : Location) : d'.entryAt l = d.entryAt l := by
  rw [entryAt, entryAt, hentries]

theorem walk_congr (slash : Bool) (pieces : List String) :
    d'.walk slash location pieces = d.walk slash location pieces := by
  induction pieces generalizing location with
  | nil => rfl
  | cons piece rest ih =>
      by_cases hlast : rest = []
      · subst hlast
        rfl
      · have hdescend : d'.descend location piece = d.descend location piece := by
          rw [descend, descend, entryAt_congr hentries]
        rw [walk_cons hlast, walk_cons hlast, hdescend]
        exact congrArg _ (funext fun _ => ih)

/-- Where a path leads depends on the names only. -/
theorem find_congr (path : String) : d'.find path = d.find path := by
  have htarget : d'.target path = d.target path := by
    rw [target, target, walk_congr hentries]
  have hlookup (parent : Location) (name : String) :
      d'.lookupName parent name = d.lookupName parent name := by
    rw [lookupName, lookupName, entryAt_congr hentries]
  unfold find
  rw [htarget]
  simp only [hlookup]

end SameNames

theorem find_of_absent (htarget : d.target path = .ok (.name parent last false))
    (hfree : d.lookupName parent last = .ok none) : d.find path = .error .noEntry := by
  simp [find, htarget, hfree, bind, Except.bind]

theorem find_of_openFile (hopen : d.openFile path access = .ok file) :
    ∃ location, d.find path = .ok (location, .file file) := by
  have hfile := fileAt_of_openFile hopen
  unfold fileAt at hfile
  split at hfile
  · next location id hfind =>
      cases hfile
      exact ⟨location, hfind⟩
  · cases hfile

theorem fileAt_of_find (hfind : d.find path = .ok (location, .file file)) :
    d.fileAt path = some file := by
  rw [fileAt, hfind]

theorem lookupName_eq_ok (hlookup : d.lookupName parent last = .ok entry) :
    entry = d.entryAt (parent ++ [last]) ∧
      ∀ d' : Disk, d'.lookupName parent last = .ok (d'.entryAt (parent ++ [last])) := by
  unfold lookupName at hlookup
  split at hlookup
  · cases hlookup
  · next hshort =>
      cases hlookup
      exact ⟨rfl, fun d' => by rw [lookupName, if_neg hshort]⟩

section NewName

variable (htarget : d.target path = .ok (.name parent last false))
  (hfree : d.lookupName parent last = .ok none)
  (hentries : d'.entries = d.entries ++ [(parent ++ [last], .file file)])

include htarget hfree hentries

/-- A name that has just been given is found. -/
theorem target_of_link : d'.target path = .ok (.name parent last false) ∧
    d'.lookupName parent last = .ok (some (.file file)) := by
  obtain ⟨hnone, hlookup⟩ := lookupName_eq_ok hfree
  have hview := entryAt_link (by simp) hnone.symm hentries
  constructor
  · refine target_mono (fun l hl => ?_) htarget
    rw [hview, if_neg, hl]
    intro hsame
    rw [hsame, ← hnone] at hl
    cases hl
  · rw [hlookup, hview, if_pos rfl]

theorem find_of_link : d'.find path = .ok (parent ++ [last], .file file) := by
  obtain ⟨htarget', hlookup'⟩ := target_of_link htarget hfree hentries
  simp [find, htarget', hlookup', bind, Except.bind]

/-- It can be taken away, and then the names are what they were. -/
theorem unlink_of_link : d'.unlink path = .ok (d'.unlinkAt (parent ++ [last])) ∧
    (d'.unlinkAt (parent ++ [last])).entries = d.entries := by
  obtain ⟨htarget', hlookup'⟩ := target_of_link htarget hfree hentries
  obtain ⟨hnone, -⟩ := lookupName_eq_ok hfree
  refine ⟨by simp [unlink, htarget', hlookup', bind, Except.bind], ?_⟩
  have hother : ∀ row ∈ d.entries, row.1 ≠ parent ++ [last] := by
    intro row hrow hsame
    have hlookup : d.entries.lookup (parent ++ [last]) = none := by
      rw [entryAt, if_neg (by simp)] at hnone
      exact hnone.symm
    exact absurd (List.lookup_eq_none_iff.1 hlookup row hrow) (by simp [hsame])
  rw [unlinkAt, hentries, List.filter_append, List.filter_eq_self.2]
  · simp
  · intro row hrow
    simpa using hother row hrow

end NewName

end Disk

/-! ## Hosts before and after -/

namespace Host

variable {h h₁ h₂ : Host} {file : FileId} {path : String} {needed : Nat} {new : Content}

/-- Two hosts with the same names, and with the same in all files.  A pipe may be open more often,
and there may be an empty file more, which has no name. -/
structure Kept (h h' : Host) : Prop where
  entries : h'.disk.entries = h.disk.entries
  paths : ∀ path, h'.disk.find path = h.disk.find path
  contents : ∀ id, h'.disk.content id = h.disk.content id
  files : ∀ id, h.disk.IsRegular id → h'.disk.file? id = h.disk.file? id
  pipes : ∀ id mode pending readers, h.disk.file? id = some (.fifo mode pending readers) →
    (readers = 0 → pending = 0) →
    ∃ readers', readers ≤ readers' ∧ h'.disk.file? id = some (.fifo mode pending readers')

theorem Kept.refl (h : Host) : Kept h h where
  entries := rfl
  paths _ := rfl
  contents _ := rfl
  files _ _ := rfl
  pipes _ _ _ readers hpipe _ := ⟨readers, Nat.le_refl _, hpipe⟩

theorem Kept.trans (hfirst : Kept h h₁) (hsecond : Kept h₁ h₂) : Kept h h₂ where
  entries := hsecond.entries.trans hfirst.entries
  paths path := (hsecond.paths path).trans (hfirst.paths path)
  contents id := (hsecond.contents id).trans (hfirst.contents id)
  files id hreg :=
    (hsecond.files id (Disk.isRegular_congr (hfirst.files id hreg) hreg)).trans
      (hfirst.files id hreg)
  pipes id mode pending readers hpipe hsound := by
    obtain ⟨readers₁, hmore₁, hpipe₁⟩ := hfirst.pipes id mode pending readers hpipe hsound
    obtain ⟨readers₂, hmore₂, hpipe₂⟩ := hsecond.pipes id mode pending readers₁ hpipe₁
      fun hnone => hsound (Nat.le_zero.1 (hnone ▸ hmore₁))
    exact ⟨readers₂, Nat.le_trans hmore₁ hmore₂, hpipe₂⟩

/-- Contents are kept where regular files are, and nothing becomes one. -/
theorem content_of_files {disk : Disk} (hregular : ∀ id, disk.IsRegular id ↔ h.disk.IsRegular id)
    (hfiles : ∀ id, h.disk.IsRegular id → disk.file? id = h.disk.file? id) (id : FileId) :
    disk.content id = h.disk.content id := by
  by_cases hreg : h.disk.IsRegular id
  · exact Disk.content_congr (hfiles id hreg)
  · rw [Disk.content_of_not_regular hreg,
      Disk.content_of_not_regular fun hnew => hreg ((hregular id).1 hnew)]

/-- Opening a file changes nothing but how often a pipe is open. -/
theorem kept_attach (h : Host) (file : FileId) : Kept h { h with disk := h.disk.attach file } where
  entries := rfl
  paths := by
    have hentries : (h.disk.attach file).entries = h.disk.entries := rfl
    exact Disk.find_congr hentries
  contents := content_of_files (fun _ => Disk.isRegular_attach_iff) fun _ hreg =>
    Disk.file?_attach hreg file
  files _ hreg := Disk.file?_attach hreg file
  pipes id mode pending readers hpipe _ := by
    by_cases hid : id = file
    · subst hid
      refine ⟨readers + 1, Nat.le_succ _, ?_⟩
      rw [Disk.attach, Disk.file?_modifyFile_same, hpipe]
      rfl
    · exact ⟨readers, Nat.le_refl _, (Disk.file?_modifyFile_of_ne _ hid).trans hpipe⟩

/-- A file that is opened and closed again is as before. -/
theorem kept_attach_detach (h : Host) (file : FileId) :
    Kept h { h with disk := (h.disk.attach file).detach file } where
  entries := rfl
  paths := by
    have hentries : ((h.disk.attach file).detach file).entries = h.disk.entries := rfl
    exact Disk.find_congr hentries
  contents := content_of_files
    (fun _ => Disk.isRegular_detach_iff.trans Disk.isRegular_attach_iff)
    (h.untouched_attach_detach file).files
  files := (h.untouched_attach_detach file).files
  pipes id mode pending readers hpipe hsound := by
    refine ⟨readers, Nat.le_refl _, ?_⟩
    by_cases hid : id = file
    · subst hid
      rw [Disk.detach, Disk.file?_modifyFile_same, Disk.attach, Disk.file?_modifyFile_same, hpipe]
      by_cases hnone : readers = 0
      · simp [hnone, hsound hnone]
      · have hmany : ¬ readers + 1 ≤ 1 := by omega
        simp [hmany]
    · exact (Disk.file?_modifyFile_of_ne _ hid).trans
        ((Disk.file?_modifyFile_of_ne _ hid).trans hpipe)

/-- Opening a path makes no file and lets none grow. -/
structure Settled (path : String) (needed : Nat) (h : Host) : Prop where
  absent : h.disk.find path = .error .noEntry → maxFileLength < needed
  there : ∀ file, h.disk.fileAt path = some file → (h.disk.content file).length < needed →
    ¬ (h.disk.IsRegular file ∧ needed ≤ maxFileLength)

/-- What a path has been opened to. -/
structure Opened (path : String) (needed : Nat) (file : FileId) (created : Bool)
    (h h' : Host) : Prop where
  reported : created = true ↔ h.disk.find path = .error .noEntry
  reached : h'.disk.fileAt path = some file
  there : created = false → h.disk.fileAt path = some file
  fresh : created = true → file = h.disk.files.length
  names : ∃ location, h'.disk.entries =
    h.disk.entries ++ if created then [(location, .file file)] else []
  others : ∀ id, id ≠ file → h'.disk.file? id = h.disk.file? id
  length : (h'.disk.content file).length = max (h.disk.content file).length needed
  kept : ∀ i, i < (h.disk.content file).length →
    (h'.disk.content file).byte i = (h.disk.content file).byte i
  still : needed ≤ (h.disk.content file).length → h.disk.IsRegular file →
    h'.disk.file? file = h.disk.file? file

/-- How the opening of a path for a number of bytes ends, when a file that is made holds
`new`. -/
inductive Opening (path : String) (needed : Nat) (new : Content) (h : Host) :
    EStateM.Result Error Host (Segment × Bool) → Prop
  | made {parent : Location} {last : String} {s : Segment} {h' : Host}
      (htarget : h.disk.target path = .ok (.name parent last false))
      (hfree : h.disk.lookupName parent last = .ok none)
      (hfits : needed ≤ maxFileLength)
      (hfile : s.file = some h.disk.files.length)
      (hsize : s.size = (h'.disk.content h.disk.files.length).length)
      (hentries : h'.disk.entries =
        h.disk.entries ++ [(parent ++ [last], .file h.disk.files.length)])
      (hothers : ∀ id, id ≠ h.disk.files.length → h'.disk.file? id = h.disk.file? id)
      (hregular : h'.disk.IsRegular h.disk.files.length)
      (hcontent : h'.disk.content h.disk.files.length = new) :
      Opening path needed new h (.ok (s, true) h')
  | found {file : FileId} {s : Segment} {h' : Host}
      (hopen : h.disk.openFile path .both = .ok file)
      (hfile : s.file = some file)
      (hsize : s.size = (h'.disk.content file).length)
      (hgrown : Alters file (·.grown needed) h h')
      (hgood : (h.disk.content file).length < needed →
        h.disk.IsRegular file ∧ needed ≤ maxFileLength)
      (hstill : needed ≤ (h.disk.content file).length →
        h' = { h with disk := h.disk.attach file }) :
      Opening path needed new h (.ok (s, false) h')
  | failed {e : Error} {h' : Host} (hkept : Kept h h')
      (hagain : h' = h ∨ Settled path needed h') :
      Opening path needed new h (.error e h')

/-- A file that does not exist has no bytes. -/
theorem content_of_le {id : FileId} (hid : h.disk.files.length ≤ id) :
    h.disk.content id = .empty := by
  rw [Disk.content, Disk.file?, List.getElem?_eq_none hid]

namespace Opening

variable {s : Segment} {created : Bool} {h' : Host}

/-- **What comes of a path that could be opened.** -/
theorem opened (hopening : Opening path needed new h (.ok (s, created) h'))
    (hnew : new.length = needed) :
    ∃ file, s.file = some file ∧ s.size = (h'.disk.content file).length ∧
      Opened path needed file created h h' ∧
      h'.disk.content file = if created then new else (h.disk.content file).grown needed := by
  cases hopening with
  | @made parent last _ _ htarget hfree hfits hfile hsize hentries hothers _ hcontent =>
      have hempty := content_of_le (Nat.le_refl h.disk.files.length)
      have hnone : (h.disk.content h.disk.files.length).length = 0 := by
        rw [hempty]
        rfl
      refine ⟨h.disk.files.length, hfile, hsize, ?_, hcontent⟩
      exact
        { reported := ⟨fun _ => Disk.find_of_absent htarget hfree, fun _ => rfl⟩
          reached := Disk.fileAt_of_find (Disk.find_of_link htarget hfree hentries)
          there := fun h => by cases h
          fresh := fun _ => rfl
          names := ⟨parent ++ [last], hentries⟩
          others := hothers
          length := by rw [hcontent, hnew, hnone, Nat.zero_max]
          kept := fun i hi => by omega
          still := fun _ hreg => by
            obtain ⟨mode, c, hnode⟩ := hreg
            rw [Disk.file?, List.getElem?_eq_none (Nat.le_refl _)] at hnode
            cases hnode }
  | @found file _ _ hopen hfile hsize hgrown hgood hstill =>
      obtain ⟨location, hfind⟩ := Disk.find_of_openFile hopen
      have hpath := Disk.find_congr hgrown.only.entries path
      refine ⟨file, hfile, hsize, ?_, hgrown.content⟩
      exact
        { reported := by
            rw [hfind]
            constructor <;> (intro h; cases h)
          reached := Disk.fileAt_of_find (hpath.trans hfind)
          there := fun _ => Disk.fileAt_of_find hfind
          fresh := fun h => by cases h
          names := ⟨[], hgrown.only.entries.trans (List.append_nil _).symm⟩
          others := hgrown.only.others
          length := by rw [hgrown.content, Content.length_grown]
          kept := fun i hi => by rw [hgrown.content, Content.byte_grown _ hi]
          still := fun hlong hreg => by
            rw [hstill hlong]
            exact Disk.file?_attach hreg file }

/-- A path that could be opened is settled. -/
theorem settled (hopening : Opening path needed new h (.ok (s, created) h'))
    (hnew : new.length = needed) : Settled path needed h' := by
  obtain ⟨file, -, -, hopened, -⟩ := hopening.opened hnew
  constructor
  · intro habsent
    have hreached := hopened.reached
    rw [Disk.fileAt, habsent] at hreached
    cases hreached
  · intro other hother hshort
    rw [hopened.reached] at hother
    cases hother
    rw [hopened.length] at hshort
    omega

/-- Where a path is settled, opening it changes nothing. -/
theorem kept_of_settled {r : EStateM.Result Error Host (Segment × Bool)}
    (hopening : Opening path needed new h r) (hsettled : Settled path needed h) :
    Kept h (stateAfter r) := by
  cases hopening with
  | made htarget hfree hfits _ _ _ _ _ _ =>
      exact absurd (hsettled.absent (Disk.find_of_absent htarget hfree)) (Nat.not_lt.2 hfits)
  | @found file _ _ hopen _ _ _ hgood hstill =>
      by_cases hlong : needed ≤ (h.disk.content file).length
      · rw [stateAfter, hstill hlong]
        exact kept_attach h file
      · have hshort := Nat.not_le.1 hlong
        exact absurd (hgood hshort)
          (hsettled.there file (Disk.fileAt_of_openFile hopen) hshort)
  | failed hkept _ => exact hkept

/-- Opening a path changes nothing once it has been opened, or could not be. -/
theorem kept_again {run : HostM Error (Segment × Bool)}
    (hrun : ∀ h, Opening path needed new h (run h)) (hnew : new.length = needed) (h : Host) :
    Kept (stateAfter (run h)) (stateAfter (run (stateAfter (run h)))) := by
  have hfirst := hrun h
  cases hresult : run h with
  | ok told h' =>
      obtain ⟨s, created⟩ := told
      rw [hresult] at hfirst
      exact (hrun h').kept_of_settled (hfirst.settled hnew)
  | error e h' =>
      rw [hresult] at hfirst
      cases hfirst with
      | failed hkept hagain =>
          rcases hagain with rfl | hsettled
          · rw [stateAfter, hresult]
            exact hkept
          · exact (hrun h').kept_of_settled hsettled

end Opening

end Host

/-! ## Opening -/

namespace Segment

variable {h h₁ : Host} {file : FileId} {path : String} {mode : Nat}

/-- What a number of openings, one after another, leave behind. -/
def openings (run : HostM Error (Segment × Bool)) (n : Nat) (h : Host) : Host :=
  (fun h => stateAfter (run h))^[n] h

/-- **Opening a path many times comes to no more than opening it once.** -/
theorem kept_openings {run : HostM Error (Segment × Bool)} {needed : Nat} {new : Content}
    (hrun : ∀ h, Host.Opening path needed new h (run h)) (hnew : new.length = needed) (h : Host)
    (n : Nat) : Host.Kept (openings run 1 h) (openings run (n + 1) h) := by
  induction n with
  | zero => exact Host.Kept.refl _
  | succ n ih =>
      refine ih.trans ?_
      unfold openings
      rw [Function.iterate_succ_apply', Function.iterate_succ_apply',
        Function.iterate_succ_apply']
      exact Host.Opening.kept_again hrun hnew _

theorem file?_withNewFile_of_ne (h : Host) (location : Location) (mode : Nat) {id : FileId}
    (hid : id ≠ h.disk.files.length) :
    (h.withNewFile location mode).disk.file? id = h.disk.file? id := by
  rcases Nat.lt_or_gt_of_ne hid with hlt | hgt
  · exact h.file?_withNewFile_of_lt location mode hlt
  · rw [Disk.file?, Disk.file?, List.getElem?_eq_none (Nat.le_of_lt hgt),
      List.getElem?_eq_none]
    have hcount := h.count_withNewFile location mode
    omega

/-- A file that was made and could not be used is gone again. -/
theorem kept_withNewFile {parent : Location} {last : String}
    (hnul : Path.hasNul path = false) (htarget : h.disk.target path = .ok (.name parent last false))
    (hfree : h.disk.lookupName parent last = .ok none) {m : Nat} :
    ∃ h', (unlink path : HostM Error (Option SystemCause))
        { h.withNewFile (parent ++ [last]) m with
          disk := (h.withNewFile (parent ++ [last]) m).disk.detach h.disk.files.length } =
        .ok none h' ∧
      Host.Kept h h' := by
  have hnew := h.file?_withNewFile_same (parent ++ [last]) m
  have hother {id : FileId} (hid : id ≠ h.disk.files.length) :=
    file?_withNewFile_of_ne h (parent ++ [last]) m hid
  have hentries : (h.withNewFile (parent ++ [last]) m).disk.entries =
      h.disk.entries ++ [(parent ++ [last], .file h.disk.files.length)] := rfl
  generalize h.withNewFile (parent ++ [last]) m = h₁ at *
  have hdetached : ∀ id, id ≠ h.disk.files.length →
      (h₁.disk.detach h.disk.files.length).file? id = h.disk.file? id := fun id hid =>
    (Disk.file?_modifyFile_of_ne _ hid).trans (hother hid)
  have hempty : (h₁.disk.detach h.disk.files.length).content h.disk.files.length = .empty := by
    rw [Disk.content, Disk.file?_detach ⟨m, .empty, hnew⟩, hnew]
  have hentries' : (h₁.disk.detach h.disk.files.length).entries =
      h.disk.entries ++ [(parent ++ [last], .file h.disk.files.length)] := hentries
  obtain ⟨hunlink, hnames⟩ := Disk.unlink_of_link htarget hfree hentries'
  have hold : ∀ id node, h.disk.file? id = some node →
      (h₁.disk.detach h.disk.files.length).file? id = h.disk.file? id := by
    intro id node hnode
    refine hdetached id fun hid => ?_
    rw [hid, Disk.file?, List.getElem?_eq_none (Nat.le_refl _)] at hnode
    cases hnode
  refine ⟨{ h₁ with disk := (h₁.disk.detach h.disk.files.length).unlinkAt (parent ++ [last]) },
    ?_, hnames, Disk.find_congr hnames, ?_, ?_, ?_⟩
  · unfold unlink
    rw [if_neg (by simp [hnul]), get_bind_eq]
    simp only [hunlink]
    rfl
  · intro id
    by_cases hid : id = h.disk.files.length
    · rw [hid, Host.content_of_le (Nat.le_refl _)]
      exact hempty
    · exact Disk.content_congr (hdetached id hid)
  · intro id hreg
    obtain ⟨mode, c, hnode⟩ := hreg
    exact hold id _ hnode
  · intro id mode pending readers hpipe _
    exact ⟨readers, Nat.le_refl _, (hold id _ hpipe).trans hpipe⟩

section Outcomes

variable (hnul : Path.hasNul path = false) (minimum : Nat)

include hnul

/-- A file that is made is long enough, or is gone again. -/
theorem openOrCreate_of_made {parent : Location} {last : String} {m : Nat}
    (htarget : h.disk.target path = .ok (.name parent last false))
    (hfree : h.disk.lookupName parent last = .ok none)
    (hopen : openFile path mode h = .ok (h.disk.files.length, true)
      (h.withNewFile (parent ++ [last]) m)) :
    Host.Opening path minimum (Content.empty.grown minimum) h
      (openOrCreate path minimum mode h) := by
  have hnew := h.file?_withNewFile_same (parent ++ [last]) m
  have hempty : (h.withNewFile (parent ++ [last]) m).disk.content h.disk.files.length =
      .empty := by
    rw [Disk.content, hnew]
  obtain ⟨h₂, hmap, hgrown, -, hgood⟩ | ⟨hshort, hbad, e, hmap⟩ := mapAtLeast_cases
    h.disk.files.length minimum (h.withNewFile (parent ++ [last]) m)
  · have hrun : openOrCreate path minimum mode h = .ok ((⟨some h.disk.files.length, none⟩ :
        Segment).fittedTo (h₂.disk.content h.disk.files.length).length, true)
        (h₂.note .debug s!"Created SHM \"{path}\" ({((⟨some h.disk.files.length, none⟩ :
          Segment).fittedTo (h₂.disk.content h.disk.files.length).length).size} bytes).") := by
      unfold openOrCreate
      rw [if_neg (by simp [hnul])]
      refine (bind_of_ok hopen).trans ?_
      exact (bind_of_ok (attempt_of_ok (runOn_of_ok hmap))).trans rfl
    have hfits : minimum ≤ maxFileLength := by
      rw [hempty] at hgood
      rcases Nat.eq_zero_or_pos minimum with hzero | hpos
      · rw [hzero]
        exact Nat.zero_le _
      · exact (hgood hpos).2
    rw [hrun]
    refine .made htarget hfree hfits (file_fittedTo _ _) (size_fittedTo _ _)
      hgrown.only.entries ?_ (hgrown.only.regular ⟨m, .empty, hnew⟩) ?_
    · intro id hid
      exact (hgrown.only.others id hid).trans (file?_withNewFile_of_ne h _ m hid)
    · exact hgrown.content.trans (by rw [hempty])
  · obtain ⟨h₂, hunlink, hkept⟩ := kept_withNewFile hnul htarget hfree (m := m)
    have hrun : openOrCreate path minimum mode h = .error e h₂ := by
      unfold openOrCreate
      rw [if_neg (by simp [hnul])]
      refine (bind_of_ok hopen).trans ?_
      refine (bind_of_ok (attempt_of_error (runOn_of_error hmap))).trans ?_
      exact (bind_of_ok hunlink).trans rfl
    have habsent := (hkept.paths path).trans (Disk.find_of_absent htarget hfree)
    rw [hrun]
    refine .failed hkept (.inr ⟨fun _ => ?_, ?_⟩)
    · exact Nat.not_le.1 fun hfits => hbad ⟨⟨m, .empty, hnew⟩, hfits⟩
    · intro file hfile
      rw [Disk.fileAt, habsent] at hfile
      cases hfile

/-- A file that is found is long enough in the end, or is as before. -/
theorem openOrCreate_of_found (hfound : h.disk.openFile path .both = .ok file)
    (hopen : openFile path mode h = .ok (file, false) { h with disk := h.disk.attach file }) :
    Host.Opening path minimum (Content.empty.grown minimum) h
      (openOrCreate path minimum mode h) := by
  have hattach := Host.kept_attach h file
  obtain ⟨location, hfind⟩ := Disk.find_of_openFile hfound
  obtain ⟨h₂, hmap, hgrown, hstill, hgood⟩ | ⟨hshort, hbad, e, hmap⟩ := mapAtLeast_cases
    file minimum { h with disk := h.disk.attach file }
  · have hrun : openOrCreate path minimum mode h = .ok ((⟨some file, none⟩ : Segment).fittedTo
        (h₂.disk.content file).length, false) h₂ := by
      unfold openOrCreate
      rw [if_neg (by simp [hnul])]
      refine (bind_of_ok hopen).trans ?_
      exact (bind_of_ok (attempt_of_ok (runOn_of_ok hmap))).trans rfl
    rw [hattach.contents] at hstill hgood
    rw [Disk.isRegular_attach_iff] at hgood
    rw [hrun]
    refine .found hfound (file_fittedTo _ _) (size_fittedTo _ _) ⟨?_, ?_⟩ hgood hstill
    · exact (Host.onlyFile_attach h file).trans hgrown.only
    · rw [hgrown.content, hattach.contents]
  · have hrun : openOrCreate path minimum mode h =
        .error e { h with disk := (h.disk.attach file).detach file } := by
      unfold openOrCreate
      rw [if_neg (by simp [hnul])]
      refine (bind_of_ok hopen).trans ?_
      exact (bind_of_ok (attempt_of_error (runOn_of_error hmap))).trans rfl
    have hkept := h.kept_attach_detach file
    rw [Disk.isRegular_attach_iff] at hbad
    rw [hrun]
    refine .failed hkept (.inr ⟨fun habsent => ?_, fun other hother _ => ?_⟩)
    · rw [hkept.paths, hfind] at habsent
      cases habsent
    · rw [Disk.fileAt, hkept.paths, hfind] at hother
      cases hother
      rw [Disk.isRegular_detach_iff, Disk.isRegular_attach_iff]
      exact hbad

end Outcomes

/-- **What opening a path comes to**, for any number of bytes. -/
theorem openOrCreate_opening (path : String) (minimum mode : Nat) (h : Host) :
    Host.Opening path minimum (Content.empty.grown minimum) h
      (openOrCreate path minimum mode h) := by
  by_cases hnul : Path.hasNul path = true
  · have hrun : openOrCreate path minimum mode h = .error (.invalid (.nulInPath path)) h := by
      unfold openOrCreate
      rw [if_pos hnul]
      rfl
    rw [hrun]
    exact .failed (.refl h) (.inl rfl)
  · rw [Bool.not_eq_true] at hnul
    obtain ⟨parent, last, htarget, hfree, hopen⟩ | ⟨file, hfound, hopen⟩ | ⟨e, hfail⟩ :=
      openFile_cases path mode h
    · exact openOrCreate_of_made hnul minimum htarget hfree hopen
    · exact openOrCreate_of_found hnul minimum hfound hopen
    · have hrun : openOrCreate path minimum mode h = .error e h := by
        unfold openOrCreate
        rw [if_neg (by simp [hnul])]
        exact bind_of_error hfail
      rw [hrun]
      exact .failed (.refl h) (.inl rfl)

/-- **What opening a subscription segment comes to**: a header is set up in a file that is made,
and in no other. -/
theorem openSubscription_opening (path : String) (kind : HeaderKind) (mode : Nat) (h : Host) :
    Host.Opening path kind.size (Content.fresh kind) h (openSubscription path kind mode h) := by
  have hpos : 0 < kind.size := Nat.lt_of_lt_of_le (by decide) kind.size_bounds.1
  have hopening := openOrCreate_opening path kind.size mode h
  cases hopen : openOrCreate path kind.size mode h with
  | error e h' =>
      have hrun : openSubscription path kind mode h = .error e h' := bind_of_error hopen
      rw [hopen] at hopening
      rw [hrun]
      cases hopening with
      | failed hkept hagain => exact .failed hkept hagain
  | ok told h' =>
      obtain ⟨s, created⟩ := told
      rw [hopen] at hopening
      cases hopening with
      | found hfound hfile hsize hgrown hgood hstill =>
          have hrun : openSubscription path kind mode h = .ok (s, false) h' :=
            (bind_of_ok hopen).trans rfl
          rw [hrun]
          exact .found hfound hfile hsize hgrown hgood hstill
      | made htarget hfree hfits hfile hsize hentries hothers hregular hcontent =>
          have hresized : Content.empty.grown kind.size = Content.empty.resize kind.size :=
            if_pos hpos
          have hlength : (h'.disk.content h.disk.files.length).length = kind.size := by
            rw [hcontent, hresized, Content.length_resize]
          have hfitted : (⟨s, h'⟩ : Attached) = h'.fitted h.disk.files.length := by
            obtain ⟨_, mapping⟩ := s
            cases hfile
            cases mapping with
            | none =>
                rw [hlength] at hsize
                exact absurd hsize (Nat.ne_of_lt hpos)
            | some size =>
                obtain rfl : size = _ := hsize
                rfl
          obtain ⟨h₂, hinit, haltered⟩ := initHeader_fitted kind hregular hlength
          rw [← hfitted] at hinit
          have hrun : openSubscription path kind mode h =
              .ok ((h₂.fitted h.disk.files.length).segment, true) h₂ := by
            unfold openSubscription
            refine (bind_of_ok hopen).trans ?_
            refine (bind_of_ok (attempt_of_ok (runOn_of_ok (a := ()) (u := h₂.fitted _) ?_))).trans
              rfl
            exact (bind_of_ok (attempt_of_ok hinit)).trans rfl
          rw [hrun]
          refine .made htarget hfree hfits rfl rfl (haltered.only.entries.trans hentries) ?_
            (haltered.only.regular hregular) ?_
          · intro id hid
            exact (haltered.only.others id hid).trans (hothers id hid)
          · rw [haltered.content, hcontent, hresized]
            rfl

/-- **Opening disturbs nothing.**  A path that can be opened leads to a file with at least as many
bytes as asked for, and opening it tells whether it was there.  What was in the file stays, and
the bytes that are added are zero; a header is set up only in a file that was made.  No other
file changes.  A path that cannot be opened leaves names and files as they were, and so does
whoever opens the path again, however often. -/
theorem opening_disturbs_nothing (path : String) (minimum mode : Nat) (kind : HeaderKind)
    (h : Host) :
    (∀ s created h', openOrCreate path minimum mode h = .ok (s, created) h' →
      ∃ file, s.file = some file ∧ s.size = (h'.disk.content file).length ∧
        Host.Opened path minimum file created h h' ∧
        ∀ i, (h.disk.content file).length ≤ i → i < (h'.disk.content file).length →
          (h'.disk.content file).byte i = 0) ∧
    (∀ s created h', openSubscription path kind mode h = .ok (s, created) h' →
      ∃ file, s.file = some file ∧ s.size = (h'.disk.content file).length ∧
        Host.Opened path kind.size file created h h' ∧
        (created = true → h'.disk.content file = Content.fresh kind) ∧
        (created = false → ∀ i, (h.disk.content file).length ≤ i →
          i < (h'.disk.content file).length → (h'.disk.content file).byte i = 0)) ∧
    (∀ e h', openOrCreate path minimum mode h = .error e h' ∨
      openSubscription path kind mode h = .error e h' → Host.Kept h h') ∧
    ∀ n, Host.Kept (openings (openOrCreate path minimum mode) 1 h)
        (openings (openOrCreate path minimum mode) (n + 1) h) ∧
      Host.Kept (openings (openSubscription path kind mode) 1 h)
        (openings (openSubscription path kind mode) (n + 1) h) := by
  have hplain := openOrCreate_opening path minimum mode
  have hheader := openSubscription_opening path kind mode
  have hgrown : (Content.empty.grown minimum).length = minimum := by
    rw [Content.length_grown]
    exact Nat.zero_max _
  refine ⟨?_, ?_, ?_, fun n => ⟨kept_openings hplain hgrown h n,
    kept_openings hheader (Content.length_fresh kind) h n⟩⟩
  · intro s created h' hrun
    have hopening := hplain h
    rw [hrun] at hopening
    obtain ⟨file, hfile, hsize, hopened, hcontent⟩ := hopening.opened hgrown
    refine ⟨file, hfile, hsize, hopened, fun i hlow hhigh => ?_⟩
    have hsame : h'.disk.content file = (h.disk.content file).grown minimum := by
      rw [hcontent]
      split
      · next hcreated => rw [Host.content_of_le (Nat.le_of_eq (hopened.fresh hcreated).symm)]
      · rfl
    rw [hsame] at hhigh ⊢
    exact Content.byte_grown_of_le hlow hhigh
  · intro s created h' hrun
    have hopening := hheader h
    rw [hrun] at hopening
    obtain ⟨file, hfile, hsize, hopened, hcontent⟩ :=
      hopening.opened (Content.length_fresh kind)
    refine ⟨file, hfile, hsize, hopened, fun hcreated => ?_, fun hfound i hlow hhigh => ?_⟩
    · rw [hcontent, if_pos hcreated]
    · rw [hcontent, if_neg (by simp [hfound])] at hhigh ⊢
      exact Content.byte_grown_of_le hlow hhigh
  · intro e h' hrun
    have hfailed {needed : Nat} {new : Content}
        (hopening : Host.Opening path needed new h (.error e h')) : Host.Kept h h' := by
      cases hopening with
      | failed hkept _ => exact hkept
    rcases hrun with hrun | hrun
    · exact hfailed (hrun ▸ hplain h)
    · exact hfailed (hrun ▸ hheader h)

/-- A path that nothing has led to is opened, and opened again. -/
theorem opening_disturbs_nothing_anew :
    ∃ s h', openSubscription "x" .multi 0o600 Host.fresh = .ok (s, true) h' ∧
      h'.disk.content 0 = Content.fresh .multi ∧
      Host.Kept h' (openings (openSubscription "x" .multi 0o600) 3 Host.fresh) := by
  have hopen : openFile "x" 0o600 Host.fresh =
      .ok (0, true) (Host.fresh.withNewFile ["x"] (grantedMode 0o600)) := by
    with_unfolding_all rfl
  obtain ⟨s, h', hrun, hfile, -⟩ := openSubscription_made .multi (by decide) hopen
  obtain ⟨-, hheader, -, hagain⟩ := opening_disturbs_nothing "x" 32 0o600 .multi Host.fresh
  obtain ⟨file, hsame, -, -, hfresh, -⟩ := hheader s true h' hrun
  obtain rfl : 0 = file := Option.some.inj (hfile.symm.trans hsame)
  have hfirst : openings (openSubscription "x" .multi 0o600) 1 Host.fresh = h' :=
    congrArg stateAfter hrun
  exact ⟨s, h', hrun, hfresh rfl, hfirst ▸ (hagain 2).2⟩

end Segment

end Subscription
