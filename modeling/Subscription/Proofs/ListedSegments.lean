import Subscription.Listing
import Subscription.Proofs.Inspection

/-!
# What is listed

Segments are listed one after the other, and each of them is opened, read and closed.  What its row
comes to is decided by the disk (`Listing.rowOf`), and marks in mutexes do not show there
(`Listing.rowOf_congr`).  So it does not matter for a row what has been read before it: all rows
come to what they would be on the host as it was found (`Listing.exists_readTexts`), whether the
segments between them can be read or not.
-/

namespace Subscription

open LockLayout

/-! ## A row -/

namespace Disk

variable {d : Disk} {file : FileId}

theorem attach_of_regular (hreg : d.IsRegular file) : d.attach file = d := by
  obtain ⟨mode, c, hfile⟩ := hreg
  apply modifyFile_self
  intro node hnode
  cases hfile.symm.trans hnode
  rfl

theorem detach_of_regular (hreg : d.IsRegular file) : d.detach file = d := by
  obtain ⟨mode, c, hfile⟩ := hreg
  apply modifyFile_self
  intro node hnode
  cases hfile.symm.trans hnode
  rfl

end Disk

namespace Segment

variable {h : Host} {file : FileId} {path : String}

/-- A segment that is there is opened and mapped as it is. -/
theorem openExisting_of_found (hnul : ¬ Path.hasNul path)
    (hopen : h.disk.openFile path .both = .ok file) :
    openExisting path h = .ok (some ((⟨some file, none⟩ : Segment).fittedTo
      (h.disk.content file).length)) { h with disk := h.disk.attach file } := by
  have hcontent := (h.kept_attach file).contents file
  have hmap : mapAtLeast 0 ⟨⟨some file, none⟩, { h with disk := h.disk.attach file }⟩ =
      .ok () ⟨(⟨some file, none⟩ : Segment).fittedTo (h.disk.content file).length,
        { h with disk := h.disk.attach file }⟩ := by
    obtain ⟨h', hmap, -, hkept, -⟩ | ⟨hshort, -⟩ := mapAtLeast_cases
      file 0 { h with disk := h.disk.attach file }
    · rw [hkept (Nat.zero_le _), hcontent] at hmap
      exact hmap
    · exact absurd hshort (Nat.not_lt_zero _)
  unfold openExisting
  rw [if_neg hnul]
  refine get_bind_eq.trans ?_
  simp only [hopen]
  refine (bind_of_ok rfl).trans ?_
  exact (bind_of_ok (runOn_of_ok hmap)).trans rfl

theorem openExisting_of_error (hnul : ¬ Path.hasNul path) {e : Errno}
    (hopen : h.disk.openFile path .both = .error e) :
    openExisting path h =
      ofExcept (if e = .noEntry then .ok none else .error (.system "open" (.errno e))) h := by
  unfold openExisting
  rw [if_neg hnul]
  refine get_bind_eq.trans ?_
  simp only [hopen]
  split <;> rfl

end Segment

namespace Listing

open Segment Host

variable {cfg : Config} {h h' : Host} {name : String} {kind : HeaderKind}

/-- What the row of a segment comes to, from what is on the disk. -/
def rowOf (cfg : Config) (d : Disk) (name : String) (kind : HeaderKind) :
    Except Error (Option Row) :=
  if Path.hasNul (Path.join cfg.segmentDir name) then
    .error (.invalid (.nulInPath (Path.join cfg.segmentDir name)))
  else
    match d.openFile (Path.join cfg.segmentDir name) .both with
    | .error e => if e = .noEntry then .ok none else .error (.system "open" (.errno e))
    | .ok file =>
        ((d.content file).told kind ((⟨some file, none⟩ : Segment).fittedTo
          (d.content file).length)).map fun told => some ⟨name, (d.content file).length, told⟩

/-- In the lock at the start of the file that a name leads to, if there is room for one, the main
party is on record if it can take the mutex once more, and one more reader can be counted. -/
def Approachable (cfg : Config) (d : Disk) (name : String) : Prop :=
  ∀ file, d.fileAt (Path.join cfg.segmentDir name) = some file →
    lockSize ≤ (d.content file).length → (d.content file).IsApproachable

/-- What is done with a segment once it is open: it is read and closed again. -/
def readAndClose (cfg : Config) (kind : HeaderKind) : SegmentM Failure Snapshot := do
  let result ← attempt (readEvent kind cfg.readSpan cfg.readSpan)
  clear
  ofExcept result

theorem runOn_readAndClose {file : FileId} {s t : Segment} {result : Except Error Snapshot}
    (hread : readEvent kind cfg.readSpan cfg.readSpan ⟨s, h⟩ =
      ofExcept (result.mapError .error) ⟨t, h'⟩) (hfile : t.file = some file) :
    runOn s (readAndClose cfg kind) h =
      ofExcept ((result.mapError .error).map fun told => (told, unowned))
        { h' with disk := h'.disk.detach file } := by
  have hclear : (clear : SegmentM Failure Unit) ⟨t, h'⟩ =
      .ok () ⟨unowned, { h' with disk := h'.disk.detach file }⟩ := by
    obtain ⟨_, mapping⟩ := t
    cases hfile
    rfl
  cases result with
  | ok told =>
      have hrun : readAndClose cfg kind ⟨s, h⟩ =
          .ok told ⟨unowned, { h' with disk := h'.disk.detach file }⟩ :=
        (bind_of_ok (attempt_of_ok hread)).trans (bind_of_ok hclear)
      exact runOn_of_ok hrun
  | error e =>
      have hrun : readAndClose cfg kind ⟨s, h⟩ =
          .error (.error e) ⟨unowned, { h' with disk := h'.disk.detach file }⟩ :=
        (bind_of_ok (attempt_of_error hread)).trans (bind_of_ok hclear)
      exact runOn_of_error hrun

/-- The seconds of a span of milliseconds are not too many. -/
theorem seconds_readSpan_lt (cfg : Config) :
    cfg.readSpan.seconds.toNat < 0x8000000000000000 := by
  have hlt := cfg.readTimeout.toNat_lt
  show (cfg.readTimeout.toUInt64 / 1000).toNat < _
  rw [UInt64.toNat_div, UInt32.toNat_toUInt64]
  exact Nat.lt_of_le_of_lt (Nat.div_le_self _ _) (by omega)

/-- A file that has room for a lock is no pipe. -/
theorem isRegular_of_le {file : FileId} (hin : lockSize ≤ (h.disk.content file).length) :
    h.disk.IsRegular file := by
  refine Classical.byContradiction fun hnot => ?_
  rw [Disk.content_of_not_regular hnot] at hin
  exact absurd hin (by decide)

/-- **A segment is read once it is open**, and is marked at most. -/
theorem exists_runOn_readAndClose (cfg : Config) {file : FileId} (hquiet : h.IsQuiet)
    (happroachable : lockSize ≤ (h.disk.content file).length →
      (h.disk.content file).IsApproachable) (kind : HeaderKind) :
    ∃ h', runOn ((⟨some file, none⟩ : Segment).fittedTo (h.disk.content file).length)
        (readAndClose cfg kind) { h with disk := h.disk.attach file } =
      ofExcept ((((h.disk.content file).told kind ((⟨some file, none⟩ : Segment).fittedTo
        (h.disk.content file).length)).mapError .error).map fun told => (told, unowned)) h' ∧
      h.Inspected (· = file) h' ∧ h.log <+: h'.log := by
  have hopen := file_fittedTo ⟨some file, none⟩ (h.disk.content file).length
  by_cases hin : lockSize ≤ (h.disk.content file).length
  · have hreg := isRegular_of_le hin
    obtain ⟨h₁, c, hread, hlater, hmarked⟩ := exists_readEvent_any hreg hquiet hopen hin
      (happroachable hin) kind (seconds_readSpan_lt cfg)
    rw [withContent_content hreg, fittedTo_fittedTo] at hread
    have hclosed : (h₁.withContent file c).disk.detach file = (h₁.withContent file c).disk :=
      Disk.detach_of_regular (isRegular_withContent (by rwa [hlater.disk]) c)
    have hrun := runOn_readAndClose hread hopen
    rw [hclosed] at hrun
    rw [Disk.attach_of_regular hreg]
    exact ⟨_, hrun, inspected_withContent hreg hlater hmarked, hlater.log⟩
  · have hcontent := (h.kept_attach file).contents file
    have hread := readEvent_of_lt (h := { h with disk := h.disk.attach file }) hopen
      (by rw [hcontent]; exact Nat.lt_of_not_le hin) kind cfg.readSpan
    rw [hcontent, fittedTo_fittedTo] at hread
    exact ⟨_, runOn_readAndClose hread hopen, inspected_attach_detach h file, List.prefix_rfl⟩

/-- **A row**: it comes to what is on the disk, and the segment is marked at most. -/
theorem exists_readRow (hquiet : h.IsQuiet) (happroachable : Approachable cfg h.disk name)
    (kind : HeaderKind) :
    ∃ h', readRow cfg name kind h =
        ofExcept ((rowOf cfg h.disk name kind).mapError .error) h' ∧
      h.Inspected (fun id => h.disk.fileAt (Path.join cfg.segmentDir name) = some id) h' ∧
      h.log <+: h'.log := by
  unfold readRow rowOf
  by_cases hnul : Path.hasNul (Path.join cfg.segmentDir name)
  · have hopening : openExisting (Path.join cfg.segmentDir name) h =
        .error (.invalid (.nulInPath (Path.join cfg.segmentDir name))) h := by
      unfold openExisting
      rw [if_pos hnul]
      rfl
    rw [if_pos hnul]
    exact ⟨h, bind_of_error (mapFailure_of_error hopening), .refl h, List.prefix_rfl⟩
  · rw [if_neg hnul]
    cases hopen : h.disk.openFile (Path.join cfg.segmentDir name) .both with
    | error e =>
        have hopening := openExisting_of_error hnul hopen
        refine ⟨h, ?_, .refl h, List.prefix_rfl⟩
        by_cases hgone : e = .noEntry
        · simp only [if_pos hgone] at hopening ⊢
          exact (bind_of_ok (mapFailure_of_ok hopening)).trans rfl
        · simp only [if_neg hgone] at hopening ⊢
          exact bind_of_error (mapFailure_of_error hopening)
    | ok file =>
        have hfound := Disk.fileAt_of_openFile hopen
        obtain ⟨h', hrun, hinspected, hlog⟩ :=
          exists_runOn_readAndClose cfg hquiet (happroachable file hfound) kind
        refine ⟨h', ?_, hinspected.mono fun id (hid : id = file) => hid ▸ hfound, hlog⟩
        refine (bind_of_ok (mapFailure_of_ok (openExisting_of_found hnul hopen))).trans ?_
        show (runOn _ (readAndClose cfg kind) >>= _) _ = _
        dsimp only
        generalize (h.disk.content file).told kind _ = told at hrun ⊢
        cases told with
        | ok told =>
            refine (bind_of_ok hrun).trans ?_
            rw [size_fittedTo]
            rfl
        | error e => exact bind_of_error hrun

/-- What a row comes to does not depend on marks. -/
theorem rowOf_congr {isRead : FileId → Prop} (hinspected : h.Inspected isRead h') (name : String)
    (kind : HeaderKind) :
    rowOf cfg h'.disk name kind = rowOf cfg h.disk name kind := by
  unfold rowOf
  rw [hinspected.openFile_eq]
  cases hopen : h.disk.openFile (Path.join cfg.segmentDir name) .both with
  | error e => rfl
  | ok file =>
      have hmarked := hinspected.content file
      simp only [hmarked.length, hmarked.told_eq]

end Listing

/-! ## All rows -/

/-- A row tells the length of the file with its name, and what whoever reads that file is told. -/
def Row.IsTold (row : Row) (cfg : Config) (h : Host) (kind : HeaderKind) :
    Prop :=
  ¬ Path.hasNul (Path.join cfg.segmentDir row.name) ∧
    ∃ file, h.disk.openFile (Path.join cfg.segmentDir row.name) .both = .ok file ∧
      row.size = (h.disk.content file).length ∧
      resultOf (Segment.readEvent kind cfg.readSpan cfg.readSpan ⟨⟨some file, none⟩, h⟩) =
        .ok row.snapshot

namespace Listing

open Segment Host

variable {cfg : Config} {h h' : Host} {name : String} {kind : HeaderKind}
  {found : List String} {rows : List Row}

/-- The row, if there is one. -/
def shown (result : Except Error (Option Row)) : Option Row :=
  match result with
  | .ok row => row
  | .error _ => none

/-- What is said about a segment that cannot be read. -/
def warning (name : String) (e : Error) : LogLine :=
  ⟨.warn, s!"Failed to read \"{name}\" ({e.message})."⟩

/-- The rows of some segments, from what is on the disk. -/
def rowsOf (cfg : Config) (d : Disk) (segments : List (String × HeaderKind)) : List Row :=
  segments.filterMap fun segment => shown (rowOf cfg d segment.1 segment.2)

theorem Approachable.inspected {isRead : FileId → Prop}
    (happroachable : Approachable cfg h.disk name) (hinspected : h.Inspected isRead h') :
    Approachable cfg h'.disk name := by
  intro file hfile hin
  have hmarked := hinspected.content file
  have hfound : h.disk.fileAt (Path.join cfg.segmentDir name) = some file := by
    rw [← hfile, Disk.fileAt, Disk.fileAt, Disk.find_congr hinspected.entries]
  rw [hmarked.length] at hin
  exact hmarked.approachable hin (happroachable file hfound hin)

/-- **One segment**: its row is shown, or it is said why it cannot be read. -/
theorem exists_readText (hquiet : h.IsQuiet) (happroachable : Approachable cfg h.disk name)
    (kind : HeaderKind) :
    ∃ h' more, readText cfg name kind h =
        .ok ((shown (rowOf cfg h.disk name kind)).toList.map Row.text) h' ∧
      h.Inspected (fun id => h.disk.fileAt (Path.join cfg.segmentDir name) = some id) h' ∧
      h'.log = h.log ++ more ∧
      ∀ e, rowOf cfg h.disk name kind = .error e → warning name e ∈ more := by
  obtain ⟨h₁, hrow, hinspected, more, hmore⟩ := exists_readRow hquiet happroachable kind
  unfold readText
  cases hresult : rowOf cfg h.disk name kind with
  | ok row =>
      rw [hresult] at hrow
      refine ⟨h₁, more, (bind_of_ok (attempt_of_ok hrow)).trans ?_, hinspected, hmore.symm, nofun⟩
      cases row <;> rfl
  | error e =>
      rw [hresult] at hrow
      refine ⟨h₁.note .warn (warning name e).text, more ++ [warning name e],
        (bind_of_ok (attempt_of_error hrow)).trans rfl,
        ⟨hinspected.entries, hinspected.others, hinspected.files, hinspected.leavers,
          hinspected.waiters⟩, ?_, ?_⟩
      · show h₁.log ++ [_] = _
        rw [← hmore, List.append_assoc]
        rfl
      · intro e' he'
        cases he'
        exact List.mem_append_right _ (List.mem_singleton.2 rfl)

/-- **All segments**, one after the other: what has been read before does not show. -/
theorem exists_readTexts (segments : List (String × HeaderKind)) (hquiet : h.IsQuiet)
    (happroachable : ∀ segment ∈ segments, Approachable cfg h.disk segment.1) :
    ∃ h' more, readTexts cfg segments h =
        .ok ((rowsOf cfg h.disk segments).map Row.text) h' ∧
      h.Inspected (fun id => ∃ segment ∈ segments,
        h.disk.fileAt (Path.join cfg.segmentDir segment.1) = some id) h' ∧
      h'.log = h.log ++ more ∧
      ∀ segment ∈ segments, ∀ e, rowOf cfg h.disk segment.1 segment.2 = .error e →
        warning segment.1 e ∈ more := by
  induction segments generalizing h with
  | nil => exact ⟨h, [], rfl, .refl h, (List.append_nil _).symm, nofun⟩
  | cons segment rest ih =>
      obtain ⟨name, kind⟩ := segment
      have hfirst := happroachable (name, kind) List.mem_cons_self
      have hrest : ∀ segment ∈ rest, Approachable cfg h.disk segment.1 :=
        fun segment hmem => happroachable segment (List.mem_cons_of_mem _ hmem)
      obtain ⟨h₁, more₁, htext, hinspected₁, hlog₁, hsaid₁⟩ := exists_readText hquiet hfirst kind
      obtain ⟨h₂, more₂, htexts, hinspected₂, hlog₂, hsaid₂⟩ := ih (hinspected₁.quiet hquiet)
        fun segment hmem => (hrest segment hmem).inspected hinspected₁
      have hsame : ∀ segment ∈ rest, rowOf cfg h₁.disk segment.1 segment.2 =
          rowOf cfg h.disk segment.1 segment.2 :=
        fun segment _ => rowOf_congr hinspected₁ segment.1 segment.2
      have hrows : rowsOf cfg h₁.disk rest = rowsOf cfg h.disk rest :=
        List.filterMap_congr fun segment hmem => by rw [hsame segment hmem]
      refine ⟨h₂, more₁ ++ more₂, ?_, ?_, ?_, ?_⟩
      · refine (bind_of_ok htext).trans ((bind_of_ok htexts).trans ?_)
        rw [hrows, rowsOf, rowsOf, List.filterMap_cons]
        cases shown (rowOf cfg h.disk name kind) <;> rfl
      · refine (hinspected₁.mono ?_).trans (hinspected₂.mono ?_)
        · exact fun id hid => ⟨(name, kind), List.mem_cons_self, hid⟩
        · intro id hid
          obtain ⟨segment, hmem, hfile⟩ := hid
          refine ⟨segment, List.mem_cons_of_mem _ hmem, ?_⟩
          rw [← hfile, Disk.fileAt, Disk.fileAt, Disk.find_congr hinspected₁.entries]
      · rw [hlog₂, hlog₁, List.append_assoc]
      · intro segment hmem e he
        obtain rfl | hlater := List.mem_cons.1 hmem
        · exact List.mem_append_left _ (hsaid₁ e he)
        · exact List.mem_append_right _ (hsaid₂ segment hlater e (by rw [hsame segment hlater, he]))

/-! ### Which rows there are -/

/-- The segments are the names that are recognised. -/
theorem mem_segments_iff : (name, kind) ∈ segments found ↔
    name ∈ found ∧ HeaderKind.ofName name = some kind := by
  simp only [segments, List.mem_filterMap, List.mem_mergeSort, Option.map_eq_some_iff,
    Prod.mk.injEq]
  constructor
  · intro h
    obtain ⟨other, hmem, other', hkind, rfl, rfl⟩ := h
    exact ⟨hmem, hkind⟩
  · intro h
    exact ⟨name, h.1, kind, h.2, rfl, rfl⟩

/-- Their names ascend. -/
theorem segments_ascend (hdistinct : found.Nodup) :
    (segments found).Pairwise fun a b => a.1 < b.1 := by
  have hsorted : (found.mergeSort fun a b => !decide (b < a)).Pairwise
      fun a b => (!decide (b < a)) = true := by
    refine List.pairwise_mergeSort ?_ ?_ found
    · intro a b c hab hbc
      simp only [Bool.not_eq_true', decide_eq_false_iff_not] at *
      exact String.le_trans hab hbc
    · intro a b
      simp only [Bool.or_eq_true, Bool.not_eq_true', decide_eq_false_iff_not]
      exact String.le_total a b
  have hnodup : (found.mergeSort fun a b => !decide (b < a)).Nodup :=
    List.nodup_mergeSort.2 hdistinct
  have hstrict : (found.mergeSort fun a b => !decide (b < a)).Pairwise (· < ·) := by
    refine hsorted.imp₂ ?_ hnodup
    intro a b hle hne
    simp only [Bool.not_eq_true', decide_eq_false_iff_not] at hle
    refine Classical.byContradiction fun hnot => hne ?_
    exact String.le_antisymm hle (String.not_lt.1 hnot)
  refine hstrict.filterMap _ ?_
  intro a b hlt first hfirst second hsecond
  obtain ⟨kind, -, rfl⟩ := Option.map_eq_some_iff.1 hfirst
  obtain ⟨kind', -, rfl⟩ := Option.map_eq_some_iff.1 hsecond
  exact hlt

/-- What whoever reads a file is told. -/
theorem resultOf_readEvent {file : FileId} (hquiet : h.IsQuiet)
    (happroachable : lockSize ≤ (h.disk.content file).length →
      (h.disk.content file).IsApproachable) (kind : HeaderKind) :
    resultOf (readEvent kind cfg.readSpan cfg.readSpan ⟨⟨some file, none⟩, h⟩) =
      ((h.disk.content file).told kind ((⟨some file, none⟩ : Segment).fittedTo
        (h.disk.content file).length)).mapError .error := by
  by_cases hin : lockSize ≤ (h.disk.content file).length
  · have hreg := isRegular_of_le hin
    obtain ⟨h', c', hread, -⟩ := exists_readEvent_any (t := ⟨some file, none⟩) hreg hquiet rfl
      hin (happroachable hin) kind (seconds_readSpan_lt cfg)
    rw [withContent_content hreg] at hread
    rw [hread, resultOf_ofExcept]
  · rw [readEvent_of_lt rfl (Nat.lt_of_not_le hin), resultOf_ofExcept]

/-- **A row is shown when its file can be read**, with what is told then. -/
theorem shown_eq_some_iff {row : Row} (hquiet : h.IsQuiet)
    (happroachable : Approachable cfg h.disk name) :
    shown (rowOf cfg h.disk name kind) = some row ↔ row.name = name ∧ row.IsTold cfg h kind := by
  have htold : ∀ file, h.disk.openFile (Path.join cfg.segmentDir name) .both = .ok file →
      resultOf (readEvent kind cfg.readSpan cfg.readSpan ⟨⟨some file, none⟩, h⟩) =
        ((h.disk.content file).told kind ((⟨some file, none⟩ : Segment).fittedTo
          (h.disk.content file).length)).mapError .error :=
    fun file hopen => resultOf_readEvent hquiet (happroachable file (Disk.fileAt_of_openFile hopen))
      kind
  constructor
  · intro hshown
    unfold rowOf at hshown
    split at hshown
    · cases hshown
    · next hnul =>
        cases hopen : h.disk.openFile (Path.join cfg.segmentDir name) .both with
        | error e =>
            simp only [hopen] at hshown
            split at hshown <;> cases hshown
        | ok file =>
            simp only [hopen] at hshown
            have hresult := htold file hopen
            cases hread : (h.disk.content file).told kind ((⟨some file, none⟩ : Segment).fittedTo
                (h.disk.content file).length) with
            | error e =>
                rw [hread] at hshown
                cases hshown
            | ok told =>
                rw [hread] at hshown hresult
                cases hshown
                exact ⟨rfl, hnul, file, hopen, rfl, hresult⟩
  · intro h
    obtain ⟨rfl, hnul, file, hopen, hsize, hread⟩ := h
    rw [htold file hopen, mapError_eq_ok_iff] at hread
    rw [rowOf, if_neg hnul]
    simp only [hopen, hread]
    obtain ⟨name, size, snapshot⟩ := row
    cases hsize
    rfl

end Listing

/-! ## Listing -/

/-- A host whose segments can be listed by the main party: their directory is there, with names
that are distinct, nobody else is to come up meanwhile, the main party is on record where it can
take a mutex once more, and one more reader can be counted everywhere. -/
structure Host.IsListable (h : Host) (cfg : Config) (found : List String) : Prop where
  quiet : h.IsQuiet
  names : Listing.names cfg h.disk = .ok found
  distinct : found.Nodup
  approachable : ∀ name ∈ found, HeaderKind.ofName name ≠ none →
    Listing.Approachable cfg h.disk name

namespace Host.IsListable

open Listing

variable {cfg : Config} {h : Host} {found : List String} {segment : String × HeaderKind}
  {row : Row}

theorem approachable_of_mem (hlistable : h.IsListable cfg found)
    (hmem : segment ∈ segments found) : Approachable cfg h.disk segment.1 := by
  obtain ⟨hname, hkind⟩ := mem_segments_iff.1 hmem
  exact hlistable.approachable segment.1 hname (by simp [hkind])

theorem shown_iff (hlistable : h.IsListable cfg found) (hmem : segment ∈ segments found) :
    shown (rowOf cfg h.disk segment.1 segment.2) = some row ↔
      row.name = segment.1 ∧ row.IsTold cfg h segment.2 :=
  shown_eq_some_iff hlistable.quiet (hlistable.approachable_of_mem hmem)

/-- What is shown is told by a file whose name is recognised. -/
theorem mem_rowsOf_iff (hlistable : h.IsListable cfg found) :
    row ∈ rowsOf cfg h.disk (segments found) ↔
      row.name ∈ found ∧ ∃ kind, HeaderKind.ofName row.name = some kind ∧
        row.IsTold cfg h kind := by
  rw [rowsOf, List.mem_filterMap]
  constructor
  · intro hrow
    obtain ⟨⟨name, kind⟩, hmem, hrow⟩ := hrow
    obtain ⟨rfl, htold⟩ := (hlistable.shown_iff hmem).1 hrow
    obtain ⟨hname, hkind⟩ := mem_segments_iff.1 hmem
    exact ⟨hname, kind, hkind, htold⟩
  · intro hrow
    obtain ⟨hname, kind, hkind, htold⟩ := hrow
    have hmem : (row.name, kind) ∈ segments found := mem_segments_iff.2 ⟨hname, hkind⟩
    exact ⟨_, hmem, (hlistable.shown_iff hmem).2 ⟨rfl, htold⟩⟩

/-- The rows ascend. -/
theorem rowsOf_ascend (hlistable : h.IsListable cfg found) :
    ((rowsOf cfg h.disk (segments found)).map Row.name).Pairwise (· < ·) := by
  rw [rowsOf, List.pairwise_map, List.pairwise_filterMap]
  refine (segments_ascend hlistable.distinct).imp_of_mem ?_
  intro first second hfirst hsecond hlt row hrow row' hrow'
  rw [((hlistable.shown_iff hfirst).1 hrow).1, ((hlistable.shown_iff hsecond).1 hrow').1]
  exact hlt

end Host.IsListable

namespace Listing

open Segment Host

variable {cfg : Config} {h h' : Host} {found : List String}

theorem names_congr (hentries : h'.disk.entries = h.disk.entries) :
    names cfg h'.disk = names cfg h.disk := by
  have hlist : ∀ path, h'.disk.listDirectory path = h.disk.listDirectory path := by
    intro path
    simp only [Disk.listDirectory, Disk.find_congr hentries, Disk.children, hentries]
  rw [names, names, hlist]

/-- **Listing is complete and leaves marks at most.**  Whatever the files hold and whoever has
their locks, as long as one more reader can be counted, and the main party is on record where it
can take a mutex once more:

* there is a row for each name that is recognised and whose event can be read, with what is told
  then, and no other row; the names ascend;
* of each segment that cannot be read it is said why;
* the names are as before, and so are all files but those that recognised names lead to;
* no file has become longer or shorter, nothing has changed in it but words of the mutex at its
  start, and where nobody has that mutex, nothing but those that say nothing of who has it;
* a pipe is as before. -/
theorem listing_is_complete_and_marks_at_most (hlistable : h.IsListable cfg found) :
    ∃ (rows : List Row) (h' : Host), make cfg h = .ok ⟨heading :: rows.map Row.text, none⟩ h' ∧
      (∀ row : Row, row ∈ rows ↔
        row.name ∈ found ∧ ∃ kind, HeaderKind.ofName row.name = some kind ∧ row.IsTold cfg h kind) ∧
      (rows.map Row.name).Pairwise (· < ·) ∧
      (∃ more, h'.log = h.log ++ more ∧
        ∀ name ∈ found, ∀ kind e, HeaderKind.ofName name = some kind →
          resultOf (readRow cfg name kind h) = .error (.error e) → warning name e ∈ more) ∧
      names cfg h'.disk = .ok found ∧
      (∀ id, (∀ name ∈ found, HeaderKind.ofName name ≠ none →
        h.disk.fileAt (Path.join cfg.segmentDir name) ≠ some id) →
          h'.disk.file? id = h.disk.file? id) ∧
      (∀ id mode c, h.disk.file? id = some (.regular mode c) →
        ∃ c', h'.disk.file? id = some (.regular mode c') ∧ c'.length = c.length ∧
          (∀ i, ¬ IsMutexWord lockOffset i → c'.byte i = c.byte i) ∧
          (c.length < lockSize → c' = c) ∧
          (lockSize ≤ c.length → (c.lockAt lockOffset).mutex.IsAtRest → c.Unharmed c')) ∧
      ∀ id mode pending readers, h.disk.file? id = some (.fifo mode pending readers) →
        (readers = 0 → pending = 0) → h'.disk.file? id = h.disk.file? id := by
  obtain ⟨h', more, htexts, hinspected, hlog, hsaid⟩ :=
    exists_readTexts (segments found) hlistable.quiet fun _ => hlistable.approachable_of_mem
  refine ⟨rowsOf cfg h.disk (segments found), h', ?_, fun _ => hlistable.mem_rowsOf_iff,
    hlistable.rowsOf_ascend, ⟨more, hlog, ?_⟩, ?_, ?_, ?_, ?_⟩
  · unfold make
    refine get_bind_eq.trans ?_
    simp only [hlistable.names]
    exact (bind_of_ok htexts).trans rfl
  · intro name hname kind e hkind hread
    have hmem : (name, kind) ∈ segments found := mem_segments_iff.2 ⟨hname, hkind⟩
    obtain ⟨h₁, hrow, -⟩ :=
      exists_readRow hlistable.quiet (hlistable.approachable_of_mem hmem) kind
    rw [hrow, resultOf_ofExcept] at hread
    obtain ⟨e', hfails, hsame⟩ := mapError_eq_error_iff.1 hread
    cases hsame
    exact hsaid _ hmem _ hfails
  · rw [names_congr hinspected.entries, hlistable.names]
  · intro id hid
    refine hinspected.others id fun hread => ?_
    obtain ⟨segment, hmem, hfile⟩ := hread
    obtain ⟨hname, hkind⟩ := mem_segments_iff.1 hmem
    exact hid segment.1 hname (by simp [hkind]) hfile
  · intro id mode c hfile
    obtain ⟨c', hfile', hmarked⟩ := hinspected.regular hfile
    exact ⟨c', hfile', hmarked.length, fun i => hmarked.byte_eq, hmarked.short,
      fun hin hrest => hmarked.unharmed hin hrest⟩
  · intro id mode pending readers hfile hsound
    exact hinspected.pipe hfile hsound

/-- Segments lie in the working directory. -/
def workingConfig : Config := .withRoot "."

/-- A plain mutex that somebody has, and behind it nothing but zeros. -/
def takenContent : Content := .ofBytes ([1, 0, 0, 0] ++ List.replicate 116 0)

/-- Two segments, of which the first one cannot be read. -/
def sharedHost : Host :=
  { Host.fresh with
    disk := ⟨[(["sr_m.notif"], .file 0), (["sr_a.rpc"], .file 1)],
      [.regular 0o600 takenContent, .regular 0o600 (.ofBytes (List.replicate 120 0))]⟩ }

theorem isListable_sharedHost :
    sharedHost.IsListable workingConfig ["sr_m.notif", "sr_a.rpc"] where
  quiet := ⟨rfl, rfl⟩
  names := by decide +kernel
  distinct := by decide
  approachable := by
    intro name hname _ file hfile _
    have hcases : name = "sr_m.notif" ∨ name = "sr_a.rpc" := by simpa using hname
    obtain rfl | rfl := hcases
    · have hfound : sharedHost.disk.fileAt (Path.join workingConfig.segmentDir "sr_m.notif") =
          some 0 := by decide +kernel
      cases hfound.symm.trans hfile
      exact ⟨fun hcounts => absurd hcounts (by decide +kernel), by decide +kernel⟩
    · have hfound : sharedHost.disk.fileAt (Path.join workingConfig.segmentDir "sr_a.rpc") =
          some 1 := by decide +kernel
      cases hfound.symm.trans hfile
      exact ⟨fun hcounts => absurd hcounts (by decide +kernel), by decide +kernel⟩

/-- The second one of two segments is shown although somebody has the lock of the first one, and
no harm is done to it. -/
theorem listing_is_complete_and_marks_at_most_shared :
    sharedHost.IsListable workingConfig ["sr_m.notif", "sr_a.rpc"] ∧
      ∃ (rows : List Row) (h' : Host), make workingConfig sharedHost =
          .ok ⟨heading :: rows.map Row.text, none⟩ h' ∧
        ⟨"sr_a.rpc", 120, ⟨.none, 0, 0, 0, none, none, []⟩⟩ ∈ rows ∧
        ∃ c', h'.disk.file? 1 = some (.regular 0o600 c') ∧
          (Content.ofBytes (List.replicate 120 0)).Unharmed c' := by
  refine ⟨isListable_sharedHost, ?_⟩
  obtain ⟨rows, h', hmake, hrows, -, -, -, -, hfiles, -⟩ :=
    listing_is_complete_and_marks_at_most isListable_sharedHost
  obtain ⟨c', hfile, -, -, -, hunharmed⟩ := hfiles 1 _ _ rfl
  refine ⟨rows, h', hmake, (hrows _).2 ⟨by decide, .single, by decide +kernel, ?_⟩, c', hfile,
    hunharmed (by decide +kernel) ⟨by decide +kernel, by decide +kernel, by decide +kernel⟩⟩
  exact ⟨by decide +kernel, 1, by decide +kernel, by decide +kernel, by decide +kernel⟩

/-- A segment that cannot be read. -/
def takenHost : Host :=
  { Host.fresh with disk := ⟨[(["sr_m.notif"], .file 0)], [.regular 0o600 takenContent]⟩ }

/-- **A mark is left**: the listing is made, and the mutex of a segment that could not be read
says afterwards that somebody has waited for it. -/
theorem a_mark_is_left :
    names workingConfig takenHost.disk = .ok ["sr_m.notif"] ∧
      resultOf (make workingConfig takenHost) = .ok ⟨[heading], none⟩ ∧
      (takenHost.disk.content 0).byte 0 = 1 ∧
      ((stateAfter (make workingConfig takenHost)).disk.content 0).byte 0 = 2 := by
  refine ⟨by decide +kernel, by decide +kernel, by decide +kernel, by decide +kernel⟩

end Listing

end Subscription
