import Subscription.Number.Binary64
import Subscription.Number.Digits

/-!
# Decimal literals

The text of a decimal leaf is an optional sign and then either one of the
words `inf`, `infinity`, `nan` in any case, or digits with at most one
point among, before or behind them and an optional exponent.  There must
be a digit besides the exponent's.  `Binary64.parse` reads such a text as
the nearest double.
-/

namespace Subscription

namespace Decimal

/-- A decimal number without its sign: `digits · 10 ^ exponent`. -/
structure Unsigned where
  digits : Nat
  exponent : Int
  deriving DecidableEq, Repr

/-- The exponent behind the mark `e`: an optional sign and digits. -/
def exponent? : List Char → Option Int
  | '+' :: digits => (digitsValue? digits).map Int.ofNat
  | '-' :: digits => (digitsValue? digits).map fun n => -Int.ofNat n
  | digits => (digitsValue? digits).map Int.ofNat

/-- Digits, at most one point and an optional exponent. -/
def unsigned? (text : List Char) : Option Unsigned :=
  let whole := text.takeWhile Char.isDigit
  let rest := text.dropWhile Char.isDigit
  let (fraction, rest) :=
    match rest with
    | '.' :: more => (more.takeWhile Char.isDigit, more.dropWhile Char.isDigit)
    | _ => ([], rest)
  if whole = [] ∧ fraction = [] then none
  else
    let number (e : Int) : Unsigned :=
      ⟨Nat.ofDigitChars 10 (whole ++ fraction) 0, e - fraction.length⟩
    match rest with
    | [] => some (number 0)
    | mark :: more => if mark = 'e' ∨ mark = 'E' then (exponent? more).map number else none

/-- The double that an unsigned text stands for under the given sign. -/
def read (negative : Bool) (text : List Char) : Option Binary64 :=
  match unsigned? text with
  | some u => some (Binary64.ofDecimal negative u.digits u.exponent)
  | none =>
      let word := String.ofList (text.map Char.toLower)
      if word = "inf" ∨ word = "infinity" then some (Binary64.infinity negative)
      else if word = "nan" then some Binary64.notANumber
      else none

end Decimal

/-- The double that a decimal text stands for. -/
def Binary64.parse (text : String) : Option Binary64 :=
  match text.toList with
  | '+' :: body => Decimal.read false body
  | '-' :: body => Decimal.read true body
  | body => Decimal.read false body

end Subscription
