import Mathlib.Logic.Basic
import Subscription.Proofs.Action
import Subscription.Segment.Guard

/-!
# Mappings

What may be accessed lies inside the mapping (`Segment.check_eq_ok_iff`), and whatever else
is asked for is a fault (`Segment.exists_fault_of_check`).  A handle *reaches* a lock when its
mapping covers it (`Segment.Reaches`).

A remap makes the mapping of a handle as long as the file, whatever it was before
(`Segment.remap_fittedTo`).  A file that is empty leaves the handle with no bytes to access:
without a mapping, as a rule.  `Segment.remap_some_cases` says all that a remap to a given
length can do.
-/

namespace Subscription

namespace Segment

variable {s t : Segment} {h : Host} {file : FileId} {offset : Nat}

/-! ## What may be accessed -/

/-- A handle whose mapping covers the lock at an offset of a file. -/
structure Reaches (t : Segment) (file : FileId) (offset : Nat) : Prop where
  file : t.file = some file
  covers : t.check offset lockSize lockAlignment = .ok ()

/-- What may be accessed lies inside the mapping. -/
theorem check_eq_ok_iff {count alignment : Nat} :
    t.check offset count alignment = .ok () ↔
      ∃ size, t.mapping = some size ∧ offset + count < addressBound ∧
        offset + count ≤ size ∧ offset % alignment = 0 := by
  unfold check
  cases hmapping : t.mapping with
  | none => simp
  | some size =>
      simp only [Option.some.injEq, exists_eq_left']
      by_cases hbound : addressBound ≤ offset + count
      · simp [if_pos hbound, Nat.not_lt.2 hbound]
      · by_cases hsize : size < offset + count
        · simp [if_neg hbound, if_pos hsize, Nat.not_le.2 hsize]
        · by_cases halign : offset % alignment = 0
          · simp [hbound, hsize, halign, Nat.lt_of_not_le hbound, Nat.le_of_not_lt hsize]
          · simp [hbound, hsize, halign]

/-- What does not fit into the mapping is a fault. -/
theorem exists_fault_of_check {offset count alignment : Nat} {e : Error}
    (h : s.check offset count alignment = .error e) : ∃ f, e = .fault f := by
  unfold check at h
  split at h
  · cases h
    exact ⟨_, rfl⟩
  · split at h
    · cases h
      exact ⟨_, rfl⟩
    · split at h
      · cases h
        exact ⟨_, rfl⟩
      · split at h
        · cases h
          exact ⟨_, rfl⟩
        · cases h

/-- What lies inside the mapping may be accessed, where numbers may lie. -/
theorem check_of_le (s : Segment) {offset count alignment : Nat}
    (hin : offset + count ≤ s.size) (hsome : 0 < offset + count)
    (hsmall : offset + count < addressBound) (halign : offset % alignment = 0) :
    s.check offset count alignment = .ok () := by
  rw [size] at hin
  cases hmapping : s.mapping with
  | none =>
      rw [hmapping, Option.getD_none] at hin
      omega
  | some size =>
      rw [hmapping, Option.getD_some] at hin
      exact check_eq_ok_iff.2 ⟨size, hmapping, hsmall, hin, halign⟩

theorem require_eq (offset count alignment : Nat) (a : Attached) :
    require offset count alignment a = ofExcept (a.segment.check offset count alignment) a :=
  rfl

theorem lockPlace_of_reaches (ht : t.Reaches file offset) (h : Host) :
    lockPlace offset ⟨t, h⟩ = .ok (.inFile file offset) ⟨t, h⟩ := by
  have hrequire : require offset lockSize lockAlignment ⟨t, h⟩ = .ok () ⟨t, h⟩ := by
    rw [require_eq, ht.covers]
    rfl
  unfold lockPlace
  rw [bind_of_ok hrequire, get_bind_eq]
  simp only [ht.file]
  rfl

/-! ## As long as the file -/

/-- A handle once its mapping is as long as the file. -/
def fittedTo (t : Segment) (length : Nat) : Segment :=
  if length = t.size then t
  else { t with mapping := if length = 0 then none else some length }

theorem file_fittedTo (t : Segment) (length : Nat) : (t.fittedTo length).file = t.file := by
  unfold fittedTo
  split <;> rfl

@[simp] theorem size_fittedTo (t : Segment) (length : Nat) :
    (t.fittedTo length).size = length := by
  unfold fittedTo
  split
  · next heq => exact heq.symm
  · by_cases hzero : length = 0
    · rw [if_pos hzero, hzero]
      rfl
    · rw [if_neg hzero]
      rfl

/-- Nothing is left to be done for a mapping that is as long as the file. -/
theorem fittedTo_fittedTo (t : Segment) (length : Nat) :
    (t.fittedTo length).fittedTo length = t.fittedTo length := by
  have hsize := t.size_fittedTo length
  rw [fittedTo, if_pos hsize.symm]

/-- A remap makes any mapping as long as the file, of whatever length that is. -/
theorem remap_fittedTo (hfile : t.file = some file) :
    remap none ⟨t, h⟩ = .ok () ⟨t.fittedTo (h.disk.content file).length, h⟩ := by
  obtain ⟨_, mapping⟩ := t
  cases hfile
  have hlength : fileLength ⟨⟨some file, mapping⟩, h⟩ =
      .ok (h.disk.content file).length ⟨⟨some file, mapping⟩, h⟩ := rfl
  unfold remap
  refine (bind_of_ok hlength).trans ?_
  refine get_bind_eq.trans ?_
  unfold fittedTo
  by_cases hsame : (h.disk.content file).length = (⟨some file, mapping⟩ : Segment).size
  · rw [if_pos hsame, if_pos hsame]
    rfl
  · have hunmap : (unmap : SegmentM Error Unit) ⟨⟨some file, mapping⟩, h⟩ =
        .ok () ⟨⟨some file, none⟩, h⟩ := rfl
    rw [if_neg hsame, if_neg hsame]
    refine (bind_of_ok hunmap).trans ?_
    by_cases hzero : (h.disk.content file).length = 0
    · rw [if_neg (not_not.2 hzero), if_pos hzero]
      rfl
    · rw [if_pos hzero, if_neg hzero]
      rfl

/-- A remap to a given length leaves everything as it is when the mapping has that length.
Otherwise the file gets the length first; if the file is refused it, the mapping is lost. -/
theorem remap_some_cases (hfile : t.file = some file) (n : Nat) :
    (n = t.size ∧ remap (some n) ⟨t, h⟩ = .ok () ⟨t, h⟩) ∨
    (n ≠ t.size ∧ ∃ disk, h.disk.resizeFile file n = .ok disk ∧
      remap (some n) ⟨t, h⟩ = .ok () ⟨t.fittedTo n, { h with disk }⟩) ∨
    (n ≠ t.size ∧ ∃ e, (∀ disk, h.disk.resizeFile file n ≠ .ok disk) ∧
      remap (some n) ⟨t, h⟩ = .error e ⟨{ t with mapping := none }, h⟩) := by
  obtain ⟨_, mapping⟩ := t
  cases hfile
  by_cases hsame : n = (⟨some file, mapping⟩ : Segment).size
  · refine .inl ⟨hsame, ?_⟩
    unfold remap
    refine (bind_of_ok rfl).trans ?_
    refine get_bind_eq.trans ?_
    rw [if_pos hsame]
    rfl
  · have hunmap : (unmap : SegmentM Error Unit) ⟨⟨some file, mapping⟩, h⟩ =
        .ok () ⟨⟨some file, none⟩, h⟩ := rfl
    have hremap : remap (some n) ⟨⟨some file, mapping⟩, h⟩ = (truncate n >>= fun _ =>
        if n ≠ 0 then modify fun a => { a with segment := { a.segment with mapping := some n } }
        else pure ()) ⟨⟨some file, none⟩, h⟩ := by
      unfold remap
      refine (bind_of_ok rfl).trans ?_
      refine get_bind_eq.trans ?_
      rw [if_neg hsame]
      exact bind_of_ok hunmap
    by_cases hlong : maxLength < n
    · refine .inr (.inr ⟨hsame, .system "ftruncate" (.errno .invalid), ?_, ?_⟩)
      · intro disk hresize
        rw [Disk.resizeFile, if_pos hlong] at hresize
        cases hresize
      · rw [hremap]
        apply bind_of_error
        unfold truncate
        rw [get_bind_eq]
        simp only [if_pos hlong]
        rfl
    · cases hresize : h.disk.resizeFile file n with
      | error e =>
          refine .inr (.inr ⟨hsame, .system "ftruncate" (.errno e), nofun, ?_⟩)
          rw [hremap]
          apply bind_of_error
          unfold truncate
          rw [get_bind_eq]
          simp only [if_neg hlong, hresize]
          rfl
      | ok disk =>
          have htruncate : truncate n ⟨⟨some file, none⟩, h⟩ =
              .ok () ⟨⟨some file, none⟩, { h with disk }⟩ := by
            unfold truncate
            rw [get_bind_eq]
            simp only [if_neg hlong, hresize]
            rfl
          refine .inr (.inl ⟨hsame, disk, rfl, ?_⟩)
          rw [hremap]
          refine (bind_of_ok htruncate).trans ?_
          rw [fittedTo, if_neg hsame]
          by_cases hzero : n = 0
          · rw [if_neg (not_not.2 hzero), if_pos hzero]
            rfl
          · rw [if_pos hzero, if_neg hzero]
            rfl

/-- A file with bytes is mapped. -/
theorem fittedTo_of_pos (hfile : t.file = some file) {length : Nat} (hpos : 0 < length) :
    t.fittedTo length = ⟨some file, some length⟩ := by
  obtain ⟨_, mapping⟩ := t
  cases hfile
  unfold fittedTo
  by_cases hsame : length = (⟨some file, mapping⟩ : Segment).size
  · rw [if_pos hsame]
    cases mapping with
    | none =>
        rw [hsame] at hpos
        exact absurd hpos (Nat.lt_irrefl 0)
    | some n => rw [show length = n from hsame]
  · rw [if_neg hsame, if_neg (Nat.ne_of_gt hpos)]

end Segment

end Subscription
