/-!
# Runs of digits

A run of one or more ASCII digits stands for a number
(`digitsValue?`).  The digits that the number is written with stand for it
again (`digitsValue?_toDigits`).
-/

namespace Subscription

/-- The number that one or more ASCII digits write. -/
def digitsValue? (digits : List Char) : Option Nat :=
  if digits ≠ [] ∧ digits.all Char.isDigit then some (Nat.ofDigitChars 10 digits 0) else none

/-- The written form of a number stands for that number. -/
theorem digitsValue?_toDigits (n : Nat) : digitsValue? (Nat.toDigits 10 n) = some n := by
  have digit : ∀ c ∈ Nat.toDigits 10 n, c.isDigit = true := fun c hc =>
    Nat.isDigit_of_mem_toDigits (by decide) (by decide) hc
  have nonempty : Nat.toDigits 10 n ≠ [] := Nat.toDigits_ne_nil
  have all : (Nat.toDigits 10 n).all Char.isDigit = true := List.all_eq_true.2 digit
  rw [digitsValue?, if_pos ⟨nonempty, all⟩,
    Nat.ofDigitChars_toDigits (by decide) (by decide)]

end Subscription
