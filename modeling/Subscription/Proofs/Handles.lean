import Mathlib.Logic.Basic
import Subscription.Proofs.ListedSegments

/-!
# What a handle is at any time

A handle is opened, mapped anew and given up in any order, and each of these calls may fail.  It
stays *sound* (`Segment.IsSound`): what it maps is not empty, and the file under it is open.

* A remap through a sound handle ends in one of three ways (`Segment.IsSound.remap_cases`).  It
  makes the mapping as long as it should be; or it fails with the handle as it was; or it fails
  after the mapping has been given up, and then the file is still open.
* So a remap that has failed can be made up for: mapped as it is, the file gives the handle a
  mapping of its length again (`Segment.IsSound.remap_none`).
* What is given up is a handle on nothing, and stays that (`Segment.clear_unowned`).
* Of a handle that is sound, exactly what lies inside its mapping can be accessed
  (`Segment.Spans`), for numbers and bytes as for locks.

A rack holds all handles that somebody has opened on a host, on any files (`Rack`).
-/

namespace Subscription

namespace Segment

variable {s t : Segment} {h : Host} {file : FileId} {ε α : Type}

/-- What is mapped is not empty, and its file is open. -/
structure IsSound (s : Segment) : Prop where
  nonempty : s.mapping ≠ some 0
  isOpen : s.isMapped = true → s.isOpen = true

theorem isSound_unowned : unowned.IsSound := ⟨nofun, nofun⟩

namespace IsSound

theorem isMapped_iff (hs : s.IsSound) : s.isMapped = true ↔ 0 < s.size := by
  have hnonempty := hs.nonempty
  rw [isMapped, size]
  cases hmapping : s.mapping with
  | none => simp
  | some length =>
      have hpos : 0 < length := by
        refine Nat.pos_of_ne_zero fun hzero => hnonempty ?_
        rw [hmapping, hzero]
      simpa using hpos

/-- A sound handle without a file is a handle on nothing. -/
theorem eq_unowned (hs : s.IsSound) (hfile : s.file = none) : s = unowned := by
  obtain ⟨_, mapping⟩ := s
  cases hfile
  cases mapping with
  | none => rfl
  | some length => cases hs.isOpen rfl

theorem of_unmapped (file : Option FileId) : IsSound ⟨file, none⟩ := ⟨nofun, nofun⟩

theorem fittedTo (hs : s.IsSound) (hfile : s.file = some file) (length : Nat) :
    (s.fittedTo length).IsSound := by
  unfold Segment.fittedTo
  by_cases hsame : length = s.size
  · rw [if_pos hsame]
    exact hs
  · rw [if_neg hsame]
    refine ⟨?_, fun _ => by rw [Segment.isOpen, hfile]; rfl⟩
    split
    · exact nofun
    · next hzero => exact fun hempty => hzero (Option.some.inj hempty)

end IsSound

/-! ## Mapping anew -/

/-- A handle on nothing can be mapped to no bytes at most. -/
theorem remap_unowned (asked : Option Nat) (h : Host) :
    (asked = some 0 ∧ remap asked ⟨unowned, h⟩ = .ok () ⟨unowned, h⟩) ∨
    asked ≠ some 0 ∧ ∃ e, remap asked ⟨unowned, h⟩ = .error e ⟨unowned, h⟩ := by
  cases asked with
  | none => exact .inr ⟨nofun, _, bind_of_error rfl⟩
  | some n =>
      cases n with
      | zero => exact .inl ⟨rfl, rfl⟩
      | succ n =>
          refine .inr ⟨nofun, ?_⟩
          have hrefused : ∃ e, truncate (n + 1) ⟨unowned, h⟩ = .error e ⟨unowned, h⟩ := by
            unfold truncate
            rw [get_bind_eq]
            split
            · exact ⟨_, rfl⟩
            · exact ⟨_, rfl⟩
          obtain ⟨e, hrefused⟩ := hrefused
          have hunmap : (unmap : SegmentM Error Unit) ⟨unowned, h⟩ = .ok () ⟨unowned, h⟩ := rfl
          refine ⟨e, ?_⟩
          unfold remap
          refine (bind_of_ok rfl).trans ?_
          refine get_bind_eq.trans ?_
          have hother : n + 1 ≠ unowned.size := Nat.succ_ne_zero n
          rw [if_neg hother]
          exact (bind_of_ok hunmap).trans (bind_of_error hrefused)

/-- **How a remap through a sound handle ends.** -/
theorem IsSound.remap_cases (hs : s.IsSound) (asked : Option Nat) (h : Host) :
    (∃ t h', remap asked ⟨s, h⟩ = .ok () ⟨t, h'⟩ ∧ t.IsSound ∧ t.file = s.file) ∨
    (∃ e, remap asked ⟨s, h⟩ = .error e ⟨s, h⟩) ∨
    ∃ e, remap asked ⟨s, h⟩ = .error e ⟨⟨s.file, none⟩, h⟩ ∧ s.isOpen = true := by
  cases hfile : s.file with
  | none =>
      rw [hs.eq_unowned hfile]
      obtain ⟨-, hdone⟩ | ⟨-, e, hfailed⟩ := remap_unowned asked h
      · exact .inl ⟨unowned, h, hdone, isSound_unowned, rfl⟩
      · exact .inr (.inl ⟨e, hfailed⟩)
  | some file =>
      have hopen : s.isOpen = true := by rw [Segment.isOpen, hfile]; rfl
      cases asked with
      | none =>
          exact .inl ⟨_, h, remap_fittedTo hfile, hs.fittedTo hfile _,
            (file_fittedTo _ _).trans hfile⟩
      | some n =>
          obtain ⟨-, hdone⟩ | ⟨-, disk, -, hdone⟩ | ⟨-, e, -, hfailed⟩ :=
            remap_some_cases (h := h) hfile n
          · exact .inl ⟨s, h, hdone, hs, hfile⟩
          · exact .inl ⟨_, _, hdone, hs.fittedTo hfile n, (file_fittedTo _ _).trans hfile⟩
          · rw [hfile] at hfailed
            exact .inr (.inr ⟨e, hfailed, hopen⟩)

theorem IsSound.remap (hs : s.IsSound) (asked : Option Nat) (h : Host) :
    (stateAfter (remap asked ⟨s, h⟩)).segment.IsSound := by
  obtain ⟨t, h', hdone, ht, -⟩ | ⟨e, hfailed⟩ | ⟨e, hfailed, -⟩ := hs.remap_cases asked h
  · rw [hdone]
    exact ht
  · rw [hfailed]
    exact hs
  · rw [hfailed]
    exact .of_unmapped _

/-- The file as it is can always be mapped. -/
theorem IsSound.remap_none (hs : s.IsSound) (hfile : s.file = some file) (h : Host) :
    ∃ t, Segment.remap none ⟨s, h⟩ = .ok () ⟨t, h⟩ ∧ t.IsSound ∧ t.file = some file ∧
      t.size = (h.disk.content file).length :=
  ⟨_, remap_fittedTo hfile, hs.fittedTo hfile _, (file_fittedTo _ _).trans hfile,
    size_fittedTo _ _⟩

/-! ## Opening and giving up -/

/-- A handle that is opened is sound. -/
theorem isSound_of_openOrCreate {path : String} {minimum mode : Nat} {created : Bool} {h' : Host}
    (hrun : openOrCreate path minimum mode h = .ok (s, created) h') : s.IsSound := by
  unfold openOrCreate at hrun
  split at hrun
  · cases hrun
  · obtain ⟨⟨file, made⟩, h₁, -, hmap⟩ := exists_of_bind_ok hrun
    obtain ⟨h₂, hfitted, -⟩ | ⟨-, -, e, hfailed⟩ := mapAtLeast_cases file minimum h₁
    · have hrest := (bind_of_ok (attempt_of_ok (runOn_of_ok hfitted))).symm.trans hmap
      cases made <;> cases hrest <;> exact (IsSound.of_unmapped _).fittedTo rfl _
    · -- What is said about the file that was made does not turn the failure into a handle.
      have hrest := (bind_of_ok (attempt_of_error (runOn_of_error hfailed))).symm.trans hmap
      cases made with
      | false => cases hrest
      | true =>
          refine absurd hrest (bind_ne_ok_of_rest (fun cause mid _ _ => ?_) _ _)
          cases cause with
          | none => exact nofun
          | some cause => exact nofun

theorem isSound_of_openExisting {path : String} {h' : Host}
    (hrun : openExisting path h = .ok (some s) h') : s.IsSound := by
  by_cases hnul : Path.hasNul path = true
  · unfold openExisting at hrun
    rw [if_pos hnul] at hrun
    cases hrun
  · cases hopen : h.disk.openFile path .both with
    | ok file =>
        rw [openExisting_of_found hnul hopen] at hrun
        cases hrun
        exact (IsSound.of_unmapped _).fittedTo rfl _
    | error e =>
        rw [openExisting_of_error hnul hopen] at hrun
        split at hrun <;> cases hrun

/-- A handle that is given up is one on nothing. -/
theorem clear_eq (s : Segment) (h : Host) :
    ∃ h', (clear : SegmentM ε Unit) ⟨s, h⟩ = .ok () ⟨unowned, h'⟩ := by
  obtain ⟨file, mapping⟩ := s
  cases file with
  | none => exact ⟨h, rfl⟩
  | some file => exact ⟨{ h with disk := h.disk.detach file }, rfl⟩

/-- Giving up nothing changes nothing. -/
theorem clear_unowned (h : Host) :
    (clear : SegmentM ε Unit) ⟨unowned, h⟩ = .ok () ⟨unowned, h⟩ := rfl

/-! ## Access -/

/-- Bytes that lie inside the mapping, from an offset on that is aligned. -/
structure Spans (s : Segment) (offset count alignment : Nat) : Prop where
  isMapped : s.isMapped = true
  representable : offset + count < addressBound
  inside : offset + count ≤ s.size
  aligned : offset % alignment = 0

theorem check_eq_ok_iff_spans {offset count alignment : Nat} :
    s.check offset count alignment = .ok () ↔ s.Spans offset count alignment := by
  rw [check_eq_ok_iff]
  constructor
  · rintro ⟨length, hmapping, hsmall, hinside, haligned⟩
    refine ⟨?_, hsmall, ?_, haligned⟩
    · rw [Segment.isMapped, hmapping]
      rfl
    · rw [size, hmapping]
      exact hinside
  · rintro ⟨hmapped, hsmall, hinside, haligned⟩
    obtain ⟨length, hmapping⟩ := Option.isSome_iff_exists.1 hmapped
    refine ⟨length, hmapping, hsmall, ?_, haligned⟩
    rw [size, hmapping] at hinside
    exact hinside

/-- An access to some bytes succeeds just where the mapping spans them; anywhere else it is a fault
and changes nothing. -/
structure IsConfined (access : SegmentM Error α) (s : Segment) (h : Host)
    (offset count alignment : Nat) : Prop where
  succeeds_iff : (∃ a b, access ⟨s, h⟩ = .ok a b) ↔ s.Spans offset count alignment
  fault : ∀ e b, access ⟨s, h⟩ = .error e b → (∃ f, e = .fault f) ∧ b = ⟨s, h⟩

section Access

variable {offset count alignment : Nat}

/-- An access that is checked first is confined when it cannot fail any more after that. -/
theorem isConfined_require_bind {rest : Unit → SegmentM Error α}
    (hrest : s.Spans offset count alignment → ∃ a b, rest () ⟨s, h⟩ = .ok a b) :
    IsConfined (require offset count alignment >>= rest) s h offset count alignment := by
  cases hcheck : s.check offset count alignment with
  | ok u =>
      have hspans : s.Spans offset count alignment := check_eq_ok_iff_spans.1 hcheck
      have hdone : require offset count alignment ⟨s, h⟩ = .ok () ⟨s, h⟩ := by
        rw [require_eq, hcheck]
        rfl
      obtain ⟨a, b, hrest⟩ := hrest hspans
      have hrun := (bind_of_ok hdone).trans hrest
      constructor
      · exact ⟨fun _ => hspans, fun _ => ⟨a, b, hrun⟩⟩
      · intro e b' herror
        rw [hrun] at herror
        cases herror
  | error e =>
      have hfailed : require offset count alignment ⟨s, h⟩ = .error e ⟨s, h⟩ := by
        rw [require_eq, hcheck]
        rfl
      have hrun := bind_of_error (f := rest) hfailed
      constructor
      · constructor
        · rintro ⟨a, b, hok⟩
          rw [hrun] at hok
          cases hok
        · intro hspans
          rw [check_eq_ok_iff_spans.2 hspans] at hcheck
          cases hcheck
      · intro e' b herror
        rw [hrun] at herror
        cases herror
        exact ⟨exists_fault_of_check hcheck, rfl⟩

theorem isConfined_require : IsConfined (require offset count alignment) s h offset count
    alignment := by
  have hsame : require offset count alignment = require offset count alignment >>= pure :=
    (bind_pure _).symm
  rw [hsame]
  exact isConfined_require_bind fun _ => ⟨(), ⟨s, h⟩, rfl⟩

theorem isConfined_bytes : IsConfined (bytes offset count) s h offset count 1 :=
  isConfined_require_bind fun _ => ⟨_, _, rfl⟩

theorem isConfined_setBytes (new : List UInt8) :
    IsConfined (setBytes offset new) s h offset new.length 1 :=
  isConfined_require_bind fun _ => ⟨_, _, rfl⟩

theorem isConfined_number : IsConfined (number offset count) s h offset count count :=
  isConfined_require_bind fun _ => ⟨_, _, rfl⟩

theorem isConfined_setNumber (n : Nat) :
    IsConfined (setNumber offset count n) s h offset count count :=
  isConfined_require_bind fun _ => ⟨_, _, rfl⟩

/-- A lock that is spanned lies in a file. -/
theorem IsSound.isConfined_lockPlace (hs : s.IsSound) :
    IsConfined (lockPlace offset) s h offset lockSize lockAlignment := by
  refine isConfined_require_bind fun hspans => ?_
  obtain ⟨file, hfile⟩ := Option.isSome_iff_exists.1 (hs.isOpen hspans.isMapped)
  refine ⟨.inFile file offset, ⟨s, h⟩, ?_⟩
  rw [get_bind_eq]
  simp only [hfile]
  rfl

end Access

end Segment

/-! ## All handles on a host -/

/-- The handles that have been opened on a host, the first one first. -/
structure Rack where
  host : Host
  handles : List Segment

/-- A call that opens a handle, or that goes through one, which is given by its number; or
whatever others do to the host in between. -/
inductive HandleCall where
  | openOrCreate (path : String) (minimum mode : Nat)
  | openExisting (path : String)
  | remap (handle : Nat) (length : Option Nat)
  | clear (handle : Nat)
  | others (after : Host)

namespace Rack

open Segment

/-- No handle has been opened yet. -/
def opening (h : Host) : Rack := ⟨h, []⟩

/-- What an action through a handle leaves behind, however it ends. -/
def through (r : Rack) (handle : Nat) (act : SegmentM Error Unit) : Rack :=
  match r.handles[handle]? with
  | none => r
  | some s =>
      let after := stateAfter (act ⟨s, r.host⟩)
      ⟨after.host, r.handles.set handle after.segment⟩

/-- What a call leaves behind, whether it succeeds or not. -/
def call (r : Rack) : HandleCall → Rack
  | .openOrCreate path minimum mode =>
      match Segment.openOrCreate path minimum mode r.host with
      | .ok (s, _) h => ⟨h, r.handles ++ [s]⟩
      | .error _ h => { r with host := h }
  | .openExisting path =>
      match Segment.openExisting path r.host with
      | .ok found h => ⟨h, r.handles ++ found.toList⟩
      | .error _ h => { r with host := h }
  | .remap handle length => r.through handle (Segment.remap length)
  | .clear handle => r.through handle Segment.clear
  | .others after => { r with host := after }

/-- What a run of calls leaves behind. -/
def run (r : Rack) (calls : List HandleCall) : Rack := calls.foldl call r

/-- Every handle is sound. -/
def AllSound (r : Rack) : Prop := ∀ s ∈ r.handles, s.IsSound

variable {r : Rack}

theorem AllSound.append (hr : r.AllSound) {h : Host} {opened : List Segment}
    (hopened : ∀ s ∈ opened, s.IsSound) : AllSound ⟨h, r.handles ++ opened⟩ := by
  intro s hs
  rcases List.mem_append.1 hs with hold | hnew
  · exact hr s hold
  · exact hopened s hnew

theorem AllSound.through (hr : r.AllSound) (handle : Nat) {act : SegmentM Error Unit}
    (hact : ∀ s : Segment, s.IsSound → (stateAfter (act ⟨s, r.host⟩)).segment.IsSound) :
    (r.through handle act).AllSound := by
  unfold Rack.through
  split
  · exact hr
  · next s hhandle =>
      intro other hother
      rcases List.mem_or_eq_of_mem_set hother with hold | rfl
      · exact hr other hold
      · exact hact s (hr s (List.mem_of_getElem? hhandle))

/-- A call leaves all handles sound. -/
theorem AllSound.call (hr : r.AllSound) (c : HandleCall) : (r.call c).AllSound := by
  cases c with
  | openOrCreate path minimum mode =>
      simp only [Rack.call]
      split
      · next hrun =>
          refine hr.append fun s hs => ?_
          rw [List.mem_singleton.1 hs]
          exact isSound_of_openOrCreate hrun
      · exact hr
  | openExisting path =>
      simp only [Rack.call]
      split
      · next found _ hrun =>
          refine hr.append fun s hs => ?_
          rw [Option.mem_toList.1 hs] at hrun
          exact isSound_of_openExisting hrun
      · exact hr
  | remap handle length => exact hr.through handle fun s hs => hs.remap length r.host
  | clear handle =>
      refine hr.through handle fun s _ => ?_
      obtain ⟨h', hdone⟩ := clear_eq (ε := Error) s r.host
      rw [hdone]
      exact isSound_unowned
  | others after => exact hr

theorem AllSound.run (hr : r.AllSound) (calls : List HandleCall) : (r.run calls).AllSound := by
  induction calls generalizing r with
  | nil => exact hr
  | cons c rest ih => exact ih (hr.call c)

/-- **What a handle is at any time.**  Take any handle after any run of calls, between which others
may do anything to the host.  It is mapped just when its size is positive; then its file is open,
and its size is the length of the mapping.  A remap that fails leaves the handle as it was, or
without a mapping and with the file still open; and as long as the file is open it can be mapped
in the length that it has.  Giving the handle up leaves a handle on nothing, and giving that up
changes nothing.  Exactly what lies inside the mapping can be accessed: bytes, numbers, whatever
else has a size and an alignment, and locks. -/
theorem handles_stay_sound (h : Host) (calls : List HandleCall) :
    ∀ s ∈ ((opening h).run calls).handles,
      (s.isMapped = true ↔ 0 < s.size) ∧
      (s.isMapped = true → s.isOpen = true ∧ s.mapping = some s.size) ∧
      ∀ host : Host,
        (∀ asked e a, remap asked ⟨s, host⟩ = .error e a →
          (a.segment = s ∨ a.segment = ⟨s.file, none⟩ ∧ a.segment.isMapped = false ∧
            a.segment.size = 0 ∧ a.segment.isOpen = true) ∧
          ∀ file, a.segment.file = some file → ∃ t, remap none a = .ok () ⟨t, a.host⟩ ∧
            t.file = some file ∧ t.size = (a.host.disk.content file).length ∧
            (t.isMapped = true ↔ 0 < t.size)) ∧
        (∀ file, s.file = some file → ∃ t, remap none ⟨s, host⟩ = .ok () ⟨t, host⟩ ∧
          t.file = some file ∧ t.size = (host.disk.content file).length ∧
          (t.isMapped = true ↔ 0 < t.size)) ∧
        (∃ host', (clear : SegmentM Error Unit) ⟨s, host⟩ = .ok () ⟨unowned, host'⟩ ∧
          (clear : SegmentM Error Unit) ⟨unowned, host'⟩ = .ok () ⟨unowned, host'⟩) ∧
        ∀ offset count,
          (∀ alignment, IsConfined (require offset count alignment) s host offset count
            alignment) ∧
          IsConfined (bytes offset count) s host offset count 1 ∧
          (∀ new, IsConfined (setBytes offset new) s host offset new.length 1) ∧
          IsConfined (number offset count) s host offset count count ∧
          (∀ n, IsConfined (setNumber offset count n) s host offset count count) ∧
          IsConfined (lockPlace offset) s host offset lockSize lockAlignment := by
  intro s hmem
  have hopening : (opening h).AllSound := fun _ hs => nomatch hs
  have hs : s.IsSound := hopening.run calls s hmem
  have hrestored {t : Segment} (ht : t.IsSound) {file : FileId} (hfile : t.file = some file)
      (host : Host) : ∃ u, remap none ⟨t, host⟩ = .ok () ⟨u, host⟩ ∧ u.file = some file ∧
        u.size = (host.disk.content file).length ∧ (u.isMapped = true ↔ 0 < u.size) := by
    obtain ⟨u, hdone, hu, hsame, hsize⟩ := ht.remap_none hfile host
    exact ⟨u, hdone, hsame, hsize, hu.isMapped_iff⟩
  refine ⟨hs.isMapped_iff, fun hmapped => ⟨hs.isOpen hmapped, ?_⟩, fun host => ⟨?_, ?_, ?_, ?_⟩⟩
  · obtain ⟨length, hmapping⟩ := Option.isSome_iff_exists.1 hmapped
    rw [size, hmapping]
    rfl
  · intro asked e a hfailed
    obtain ⟨t, h', hdone, -⟩ | ⟨e', hsame⟩ | ⟨e', hlost, hopen⟩ := hs.remap_cases asked host
    · rw [hdone] at hfailed
      cases hfailed
    · rw [hsame] at hfailed
      cases hfailed
      exact ⟨.inl rfl, fun file hfile => hrestored hs hfile host⟩
    · rw [hlost] at hfailed
      cases hfailed
      exact ⟨.inr ⟨rfl, rfl, rfl, hopen⟩, fun file hfile => hrestored (.of_unmapped _) hfile host⟩
  · exact fun file hfile => hrestored hs hfile host
  · obtain ⟨host', hcleared⟩ := clear_eq (ε := Error) s host
    exact ⟨host', hcleared, clear_unowned host'⟩
  · intro offset count
    exact ⟨fun _ => isConfined_require, isConfined_bytes, isConfined_setBytes, isConfined_number,
      isConfined_setNumber, hs.isConfined_lockPlace⟩

/-- A handle that a remap to an impossible length has left without a mapping is mapped again. -/
theorem handles_stay_sound_when_unmapped :
    ∃ r : Rack, r = (opening Host.fresh).run
        [.openOrCreate "x" 32 0o600, .remap 0 (some (maxLength + 1))] ∧
      r.handles = [⟨some 0, none⟩] ∧
      ∃ t, remap none ⟨⟨some 0, none⟩, r.host⟩ = .ok () ⟨t, r.host⟩ ∧ t.size = 32 ∧
        t.isMapped = true := by
  refine ⟨_, rfl, ?_⟩
  generalize hr : (opening Host.fresh).run
    [.openOrCreate "x" 32 0o600, .remap 0 (some (maxLength + 1))] = r
  have hhandles : r.handles = [⟨some 0, none⟩] := by
    rw [← hr]
    with_unfolding_all rfl
  have hlength : (r.host.disk.content 0).length = 32 := by
    rw [← hr]
    with_unfolding_all rfl
  obtain ⟨-, -, hanywhere⟩ := handles_stay_sound Host.fresh _ ⟨some 0, none⟩
    (hr.symm ▸ hhandles ▸ List.mem_singleton.2 rfl)
  obtain ⟨-, hrestored, -⟩ := hanywhere r.host
  obtain ⟨t, hdone, -, hsize, hmapped⟩ := hrestored 0 rfl
  rw [hlength] at hsize
  exact ⟨hhandles, t, hdone, hsize, hmapped.2 (by rw [hsize]; decide)⟩

end Rack

end Subscription
