/-!
# Bytes with long gaps

A file may be huge and hold a handful of bytes.  A `Sparse` is a sequence of
bytes that is kept in stretches, and a stretch of zeros is kept as a count.

The view is `Sparse.toList`, the bytes one by one.  Cutting off
(`Sparse.takePadded`), leaving out (`Sparse.drop`) and joining
(`Sparse.append`) do to it what they do to lists, but take as much work as
there are stretches.  `Sparse.overwrite` is made of these three.
-/

namespace Subscription

/-- A sequence of bytes, kept in stretches. -/
inductive Sparse where
  | nil
  /-- A count of zeros, and what follows. -/
  | zeros (count : Nat) (rest : Sparse)
  /-- Some bytes, and what follows. -/
  | bytes (stretch : List UInt8) (rest : Sparse)
  deriving Repr, Inhabited

namespace Sparse

/-- The bytes one by one. -/
def toList : Sparse → List UInt8
  | nil => []
  | zeros count rest => List.replicate count 0 ++ rest.toList
  | bytes stretch rest => stretch ++ rest.toList

/-- The number of bytes. -/
def size : Sparse → Nat
  | nil => 0
  | zeros count rest => count + rest.size
  | bytes stretch rest => stretch.length + rest.size

/-- One sequence after another. -/
def append : Sparse → Sparse → Sparse
  | nil, other => other
  | zeros count rest, other => zeros count (rest.append other)
  | bytes stretch rest, other => bytes stretch (rest.append other)

/-- The first `n` bytes of a sequence that goes on with zeros. -/
def takePadded : Sparse → Nat → Sparse
  | _, 0 => nil
  | nil, n + 1 => zeros (n + 1) nil
  | zeros count rest, n + 1 =>
      if count ≤ n + 1 then zeros count (rest.takePadded (n + 1 - count))
      else zeros (n + 1) nil
  | bytes stretch rest, n + 1 =>
      if stretch.length ≤ n + 1 then bytes stretch (rest.takePadded (n + 1 - stretch.length))
      else bytes (stretch.take (n + 1)) nil

/-- All but the first `n` bytes. -/
def drop : Sparse → Nat → Sparse
  | s, 0 => s
  | nil, _ + 1 => nil
  | zeros count rest, n + 1 =>
      if count ≤ n + 1 then rest.drop (n + 1 - count) else zeros (count - (n + 1)) rest
  | bytes stretch rest, n + 1 =>
      if stretch.length ≤ n + 1 then rest.drop (n + 1 - stretch.length)
      else bytes (stretch.drop (n + 1)) rest

/-- The sequence with other bytes from a place on. -/
def overwrite (s : Sparse) (start : Nat) (new : List UInt8) : Sparse :=
  (s.takePadded start).append (bytes new (s.drop (start + new.length)))

/-- There are as many bytes as the size says. -/
@[simp] theorem length_toList (s : Sparse) : s.toList.length = s.size := by
  induction s with
  | nil => rfl
  | zeros count rest ih => rw [toList, List.length_append, List.length_replicate, ih, size]
  | bytes stretch rest ih => rw [toList, List.length_append, ih, size]

/-- Joining joins the bytes. -/
@[simp] theorem toList_append (s t : Sparse) : (s.append t).toList = s.toList ++ t.toList := by
  induction s with
  | nil => rfl
  | zeros count rest ih => rw [append, toList, toList, ih, List.append_assoc]
  | bytes stretch rest ih => rw [append, toList, toList, ih, List.append_assoc]

/-- Leaving bytes out leaves them out of the view. -/
@[simp] theorem toList_drop (s : Sparse) (n : Nat) : (s.drop n).toList = s.toList.drop n := by
  fun_induction drop s n with
  | case1 => rfl
  | case2 => rfl
  | case3 count rest n le ih =>
      rw [ih, toList, List.drop_append, List.drop_replicate, List.length_replicate,
        Nat.sub_eq_zero_of_le le, List.replicate_zero, List.nil_append]
  | case4 count rest n gt =>
      rw [toList, toList, List.drop_append, List.drop_replicate, List.length_replicate,
        Nat.sub_eq_zero_of_le (by omega : n + 1 ≤ count), List.drop_zero]
  | case5 stretch rest n le ih =>
      rw [ih, toList, List.drop_append, List.drop_eq_nil_of_le le, List.nil_append]
  | case6 stretch rest n gt =>
      rw [toList, toList, List.drop_append,
        Nat.sub_eq_zero_of_le (by omega : n + 1 ≤ stretch.length), List.drop_zero]

/-- Cutting off cuts the view off, and adds the missing zeros. -/
@[simp] theorem toList_takePadded (s : Sparse) (n : Nat) :
    (s.takePadded n).toList = s.toList.take n ++ List.replicate (n - s.size) 0 := by
  fun_induction takePadded s n with
  | case1 s => simp [toList]
  | case2 n => simp [toList, size]
  | case3 count rest n le ih =>
      rw [toList, ih, toList, List.take_append, List.take_replicate, List.length_replicate,
        Nat.min_eq_right le, List.append_assoc, size, Nat.sub_add_eq]
  | case4 count rest n gt =>
      rw [toList, toList, toList, List.append_nil, List.take_append, List.take_replicate,
        List.length_replicate, Nat.min_eq_left (by omega : n + 1 ≤ count), size,
        Nat.sub_eq_zero_of_le (by omega : n + 1 ≤ count),
        Nat.sub_eq_zero_of_le (by omega : n + 1 ≤ count + rest.size), List.take_zero,
        List.append_nil, List.replicate_zero, List.append_nil]
  | case5 stretch rest n le ih =>
      rw [toList, ih, toList, List.take_append, List.take_of_length_le le, List.append_assoc,
        size, Nat.sub_add_eq]
  | case6 stretch rest n gt =>
      rw [toList, toList, toList, List.append_nil, List.take_append, size,
        Nat.sub_eq_zero_of_le (by omega : n + 1 ≤ stretch.length),
        Nat.sub_eq_zero_of_le (by omega : n + 1 ≤ stretch.length + rest.size), List.take_zero,
        List.append_nil, List.replicate_zero, List.append_nil]

/-- Joining adds the sizes up. -/
@[simp] theorem size_append (s t : Sparse) : (s.append t).size = s.size + t.size := by
  rw [← length_toList, toList_append, List.length_append, length_toList, length_toList]

/-- What is left has lost as many bytes as were left out. -/
@[simp] theorem size_drop (s : Sparse) (n : Nat) : (s.drop n).size = s.size - n := by
  rw [← length_toList, toList_drop, List.length_drop, length_toList]

/-- Cutting off gives as many bytes as asked for. -/
@[simp] theorem size_takePadded (s : Sparse) (n : Nat) : (s.takePadded n).size = n := by
  rw [← length_toList, toList_takePadded, List.length_append, List.length_take,
    List.length_replicate, length_toList]
  omega

/-- Bytes that lie inside the sequence replace as many. -/
theorem size_overwrite {s : Sparse} {start : Nat} {new : List UInt8}
    (inside : start + new.length ≤ s.size) : (s.overwrite start new).size = s.size := by
  rw [overwrite, size_append, size_takePadded, size, size_drop]
  omega

end Sparse

end Subscription
