/-!
# Words as bytes

A number is stored as a fixed count of bytes, the least significant one
first.  `Word.ofBytes` reads back what `Word.toBytes` writes, as far as the
bytes can hold it (`Word.ofBytes_toBytes`).
-/

namespace Subscription

namespace Word

/-- The lowest `count` bytes of a number, the least significant one first. -/
def toBytes : Nat → Nat → List UInt8
  | 0, _ => []
  | count + 1, n => UInt8.ofNat (n % 256) :: toBytes count (n / 256)

/-- The number that bytes stand for, the least significant one first. -/
def ofBytes : List UInt8 → Nat
  | [] => 0
  | byte :: rest => byte.toNat + 256 * ofBytes rest

/-- How many numbers `count` bytes tell apart. -/
def capacity : Nat → Nat
  | 0 => 1
  | count + 1 => 256 * capacity count

@[simp] theorem length_toBytes (count n : Nat) : (toBytes count n).length = count := by
  induction count generalizing n with
  | zero => rfl
  | succ count ih => simp [toBytes, ih]

/-- Bytes keep a number up to what they can hold. -/
theorem ofBytes_toBytes (count n : Nat) : ofBytes (toBytes count n) = n % capacity count := by
  induction count generalizing n with
  | zero => exact (Nat.mod_one n).symm
  | succ count ih =>
      have low : (UInt8.ofNat (n % 256)).toNat = n % 256 :=
        UInt8.toNat_ofNat_of_lt' (Nat.mod_lt n (by decide))
      rw [toBytes, ofBytes, ih, low, capacity, Nat.mod_mul]

/-- Bytes stand for one of the numbers that they tell apart. -/
theorem ofBytes_lt (bytes : List UInt8) : ofBytes bytes < capacity bytes.length := by
  induction bytes with
  | nil => exact Nat.zero_lt_one
  | cons byte rest ih =>
      have := byte.toNat_lt
      rw [ofBytes, List.length_cons, capacity]
      omega

end Word

end Subscription
