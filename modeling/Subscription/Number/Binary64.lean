/-!
# Double precision numbers

A double is kept as its 64 bits, so that every statement about it is a
statement about natural numbers.

* `Binary64.ofRatio` — the double nearest to a fraction, a tie going to
  the even mantissa;
* `Binary64.ofDecimal` — the double nearest to a decimal number;
* `Binary64.shortest` — the fewest decimal digits that read back as the
  same double, and among those the nearest ones;
* `Binary64.text` — those digits written out, never with an exponent.

A finite double is `mantissa · 2 ^ power` with `power ≥ -1074`.  The
fractions that round to it form an interval around it, which contains its
ends exactly when the mantissa is even; `shortest` looks for a point of
the coarsest decimal grid in that interval.
-/

namespace Subscription

/-- A double precision number, as its bits. -/
structure Binary64 where
  /-- Sign, eleven bits of exponent, fifty-two bits of fraction. -/
  bits : UInt64
  deriving DecidableEq, Repr, Inhabited

namespace Binary64

/-- The sign bit. -/
def signBit : Nat := 0x8000000000000000

/-- The bit above the fraction: the one that the mantissa of a number starts
with, unless the number is too small. -/
def leadingBit : Nat := 0x10000000000000

/-- The bits of positive infinity, above those of every finite number. -/
def infinityBits : Nat := 0x7FF * leadingBit

/-- The number with the given sign and magnitude bits. -/
def ofMagnitude (negative : Bool) (magnitude : Nat) : Binary64 :=
  ⟨UInt64.ofNat ((if negative then signBit else 0) + magnitude)⟩

/-- Infinity of either sign. -/
def infinity (negative : Bool) : Binary64 :=
  ofMagnitude negative infinityBits

/-- Not a number. -/
def notANumber : Binary64 :=
  ofMagnitude false (infinityBits + leadingBit / 2)

/-- Whether the sign bit is set. -/
def negative (x : Binary64) : Bool :=
  decide (signBit ≤ x.bits.toNat)

/-- The bits without the sign. -/
def magnitude (x : Binary64) : Nat :=
  x.bits.toNat % signBit

/-- Whether the bits stand for no number. -/
def isNaN (x : Binary64) : Bool :=
  decide (infinityBits < x.magnitude)

/-- The quotient rounded to the nearest integer, a tie to the even one. -/
def roundQuotient (num den : Nat) : Nat :=
  let quotient := num / den
  let remainder := num % den
  if 2 * remainder > den ∨ (2 * remainder = den ∧ quotient % 2 = 1) then quotient + 1
  else quotient

/-- The fraction `num / den · 2 ^ -power` as a numerator and a denominator. -/
def scaled (num den : Nat) (power : Int) : Nat × Nat :=
  if power ≤ 0 then (num * Nat.pow 2 power.natAbs, den)
  else (num, den * Nat.pow 2 power.natAbs)

/-- The exponent of the last mantissa bit of the double nearest to a
positive fraction. -/
def lastBitPower (num den : Nat) : Int :=
  let guess := max ((Nat.log2 num : Int) - Nat.log2 den - 53) (-1074)
  let (n, d) := scaled num den guess
  if 2 * leadingBit ≤ n / d then guess + 1 else guess

/-- The magnitude bits of the double nearest to `num / den`; they run past
`infinityBits` when the fraction is too large. -/
def nearestMagnitude (num den : Nat) : Nat :=
  if num = 0 then 0
  else
    let power := lastBitPower num den
    let (n, d) := scaled num den power
    min ((power + 1074).toNat * leadingBit + roundQuotient n d) infinityBits

/-- The double nearest to a signed fraction. -/
def ofRatio (negative : Bool) (num den : Nat) : Binary64 :=
  ofMagnitude negative (nearestMagnitude num den)

/-- The double nearest to `± digits · 10 ^ exponent`.  An exponent far
outside the range of doubles gives infinity or zero outright. -/
def ofDecimal (negative : Bool) (digits : Nat) (exponent : Int) : Binary64 :=
  let top := exponent + (Nat.toDigits 10 digits).length
  if digits = 0 ∨ top < -400 then ofMagnitude negative 0
  else if top > 400 then infinity negative
  else if exponent ≥ 0 then ofRatio negative (digits * Nat.pow 10 exponent.natAbs) 1
  else ofRatio negative digits (Nat.pow 10 exponent.natAbs)

/-- The mantissa of a finite double. -/
def mantissa (x : Binary64) : Nat :=
  if x.magnitude < leadingBit then x.magnitude else leadingBit + x.magnitude % leadingBit

/-- The exponent of the last mantissa bit of a finite double. -/
def power (x : Binary64) : Int :=
  if x.magnitude < leadingBit then -1074 else (x.magnitude / leadingBit : Nat) - 1075

/-- A fraction of natural numbers. -/
structure Fraction where
  num : Nat
  den : Nat

/-- `m · 2 ^ p` as a fraction. -/
def Fraction.ofPower (m : Nat) (p : Int) : Fraction :=
  if p ≥ 0 then ⟨m * Nat.pow 2 p.natAbs, 1⟩ else ⟨m, Nat.pow 2 p.natAbs⟩

/-- Whether `n · 10 ^ t` rounds to the double `x`: it lies between the
midpoints to the two neighbours of `x`, which count when the mantissa is
even.  The gap below a power of two is half as wide. -/
def readsBack (x : Binary64) (n : Nat) (t : Int) : Bool :=
  let low :=
    if x.mantissa = leadingBit ∧ x.power ≠ -1074 then
      Fraction.ofPower (4 * x.mantissa - 1) (x.power - 2)
    else Fraction.ofPower (2 * x.mantissa - 1) (x.power - 1)
  let high := Fraction.ofPower (2 * x.mantissa + 1) (x.power - 1)
  let point : Fraction := if t ≥ 0 then ⟨n * Nat.pow 10 t.natAbs, 1⟩ else ⟨n, Nat.pow 10 t.natAbs⟩
  let fromBelow := low.num * point.den
  let fromPoint := point.num * low.den
  let toAbove := high.num * point.den
  let toPoint := point.num * high.den
  if x.mantissa % 2 = 0 then fromBelow ≤ fromPoint && toPoint ≤ toAbove
  else fromBelow < fromPoint && toPoint < toAbove

/-- The count of decimal places of `num / den` before its first digit other
than zero, for a fraction below one. -/
def leadingZeros (num den : Nat) : Nat → Nat
  | 0 => 0
  | fuel + 1 => if 10 * num < den then leadingZeros (10 * num) den fuel + 1 else 0

/-- The position of the decimal point of a positive finite double: the
number of its digits before the point, or minus the zeros behind it. -/
def pointPosition (x : Binary64) : Int :=
  let f := Fraction.ofPower x.mantissa x.power
  if f.den ≤ f.num then (Nat.toDigits 10 (f.num / f.den)).length
  else -(leadingZeros f.num f.den 330 : Int)

/-- The nearer one of the two grid points next to `x` on the grid of
`10 ^ t`, if it reads back, else the other one, if that does. -/
def gridPoint (x : Binary64) (t : Int) : Option Nat :=
  let f := Fraction.ofPower x.mantissa x.power
  let (num, den) :=
    if t ≥ 0 then (f.num, f.den * Nat.pow 10 t.natAbs) else (f.num * Nat.pow 10 t.natAbs, f.den)
  let below := num / den
  let nearer := if 2 * (num % den) < den then below else below + 1
  let farther := if 2 * (num % den) < den then below + 1 else below
  if x.readsBack nearer t then some nearer
  else if x.readsBack farther t then some farther
  else none

/-- The first grid that holds a point which reads back, from `count` digits
on. -/
def firstGrid (x : Binary64) (position : Int) : Nat → Nat → Nat × Int
  | 0, count => (0, position - count)
  | fuel + 1, count =>
      match x.gridPoint (position - count) with
      | some n => (n, position - count)
      | none => firstGrid x position fuel (count + 1)

/-- Digits `n` and exponent `t` of the shortest decimal `n · 10 ^ t` that
reads back as a positive finite double. -/
def shortest (x : Binary64) : Nat × Int :=
  x.firstGrid x.pointPosition 20 1

/-- `n · 10 ^ t` written without an exponent and without idle zeros at the
end of the fraction. -/
def positional (n : Nat) (t : Int) : List Char :=
  let digits := Nat.toDigits 10 n
  if t ≥ 0 then digits ++ List.replicate t.natAbs '0'
  else
    let places := t.natAbs
    let digits := List.replicate (places + 1 - digits.length) '0' ++ digits
    let whole := digits.take (digits.length - places)
    let fraction := (digits.drop (digits.length - places)).reverse.dropWhile (· == '0') |>.reverse
    if fraction.isEmpty then whole else whole ++ '.' :: fraction

/-- A double as text. -/
def text (x : Binary64) : String :=
  if x.isNaN then "NaN"
  else
    let sign := if x.negative then ['-'] else []
    let body :=
      if x.magnitude = infinityBits then "inf".toList
      else if x.magnitude = 0 then ['0']
      else positional x.shortest.1 x.shortest.2
    String.ofList (sign ++ body)

end Binary64

end Subscription
