import Subscription.Number.Digits

/-!
# Integer leaves

The eight integer types of a leaf differ in signedness and width.  A leaf
text is an integer when it is an optional sign and one or more ASCII
digits, a minus sign being reserved for the signed types, and when the
number fits the type (`IntegerType.parse`).  `IntegerType.parse_bounds`
says that a parsed number always fits.
-/

namespace Subscription

/-- The integer types of leaves. -/
inductive IntegerType where
  | int8
  | int16
  | int32
  | int64
  | uint8
  | uint16
  | uint32
  | uint64
  deriving DecidableEq, Repr, Inhabited

namespace IntegerType

/-- Every integer type. -/
def all : List IntegerType :=
  [int8, int16, int32, int64, uint8, uint16, uint32, uint64]

/-- The name of a type, as written in messages. -/
def name : IntegerType → String
  | int8 => "int8"
  | int16 => "int16"
  | int32 => "int32"
  | int64 => "int64"
  | uint8 => "uint8"
  | uint16 => "uint16"
  | uint32 => "uint32"
  | uint64 => "uint64"

/-- Whether a type has negative numbers. -/
def signed : IntegerType → Bool
  | int8 | int16 | int32 | int64 => true
  | _ => false

/-- The number of bits of a type. -/
def bits : IntegerType → Nat
  | int8 | uint8 => 8
  | int16 | uint16 => 16
  | int32 | uint32 => 32
  | int64 | uint64 => 64

/-- How many numbers a type has from zero on. -/
def upward (t : IntegerType) : Nat :=
  Nat.pow 2 (if t.signed then t.bits - 1 else t.bits)

/-- The least number of a type. -/
def least (t : IntegerType) : Int :=
  if t.signed then -(t.upward : Int) else 0

/-- The greatest number of a type. -/
def greatest (t : IntegerType) : Int :=
  (t.upward : Int) - 1

/-- The number that an optional sign and digits write; a minus sign needs
a signed type. -/
def signedValue? (t : IntegerType) : List Char → Option Int
  | '+' :: digits => (digitsValue? digits).map Int.ofNat
  | '-' :: digits => if t.signed then (digitsValue? digits).map fun n => -Int.ofNat n else none
  | digits => (digitsValue? digits).map Int.ofNat

/-- The number of the type that a text writes. -/
def parse (t : IntegerType) (text : String) : Option Int :=
  (t.signedValue? text.toList).filter fun v => decide (t.least ≤ v ∧ v ≤ t.greatest)

/-- A parsed number fits its type. -/
theorem parse_bounds {t : IntegerType} {text : String} {v : Int} (h : t.parse text = some v) :
    t.least ≤ v ∧ v ≤ t.greatest := by
  simp only [parse, Option.filter_eq_some_iff, decide_eq_true_eq] at h
  exact h.2

end IntegerType

end Subscription
