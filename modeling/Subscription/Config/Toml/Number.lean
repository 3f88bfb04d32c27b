import Subscription.Config.Toml.Text
import Subscription.Number.Decimal

/-!
# Numbers and dates

A number is an optional sign and digits, among which single underscores may
stand; a number that does not start with a zero, or is one.  Integers also
come in base 16, 8 and 2, without a sign, and all of them fit 64 bits.  A
number with a fraction or an exponent, an infinity or a not-a-number only
has to be written right, as has a date or a time: what they stand for is
nowhere asked.
-/

namespace Subscription

namespace Toml

/-- Digits, with single underscores between them. -/
def digitRun (isDigit : Char → Bool) : List Char → List Char × List Char
  | '_' :: c :: rest =>
      if isDigit c then
        let (digits, rest) := digitRun isDigit rest
        (c :: digits, rest)
      else ([], '_' :: c :: rest)
  | c :: rest =>
      if isDigit c then
        let (digits, rest) := digitRun isDigit rest
        (c :: digits, rest)
      else ([], c :: rest)
  | [] => ([], [])

/-- One or more digits, the first of them not behind an underscore. -/
def digits (isDigit : Char → Bool) : Scan (List Char)
  | c :: rest => if isDigit c then some (digitRun isDigit (c :: rest)) else none
  | [] => none

/-- An optional sign. -/
def sign : List Char → List Char × List Char
  | '+' :: rest => (['+'], rest)
  | '-' :: rest => (['-'], rest)
  | text => ([], text)

/-- Digits that do not start with a zero, or a single zero. -/
def wholeDigits : Scan (List Char)
  | '0' :: rest => some (['0'], rest)
  | text => digits Char.isDigit text

/-- An optional sign and a whole number. -/
def whole (text : List Char) : Option (List Char × List Char) :=
  let (s, rest) := sign text
  (wholeDigits rest).map fun r => (s ++ r.1, r.2)

/-- The range of integers. -/
def inRange (n : Int) : Bool := -0x8000000000000000 ≤ n && n ≤ 0x7FFFFFFFFFFFFFFF

/-- The number that digits write in a base. -/
def inBase (base : Nat) (ds : List Char) : Int :=
  ds.foldl (fun n d => n * base + (hexValue? d).getD 0) (0 : Int)

/-- An integer in a base, behind the mark of the base. -/
def basedInteger (base : Nat) (text : List Char) : Option (Int × List Char) := do
  let (ds, rest) ← digits (fun c => (hexValue? c).any fun v => v < base) text
  if inRange (inBase base ds) then some (inBase base ds, rest) else none

/-- An integer. -/
def integer : Scan Int
  | '0' :: 'x' :: rest => basedInteger 16 rest
  | '0' :: 'o' :: rest => basedInteger 8 rest
  | '0' :: 'b' :: rest => basedInteger 2 rest
  | text => do
      let (ds, rest) ← whole text
      let n :=
        match ds with
        | '-' :: ds => -(inBase 10 ds)
        | '+' :: ds => inBase 10 ds
        | ds => inBase 10 ds
      if inRange n then some (n, rest) else none

/-- An exponent. -/
def exponent : Scan (List Char)
  | c :: rest =>
      if c == 'e' || c == 'E' then
        let (s, rest) := sign rest
        (digits Char.isDigit rest).map fun r => ('e' :: s ++ r.1, r.2)
      else none
  | [] => none

/-- A fraction and an exponent, one of which may be missing. -/
def fraction : Scan (List Char)
  | '.' :: rest => do
      let (ds, rest) ← digits Char.isDigit rest
      match exponent rest with
      | some (e, rest) => some ('.' :: ds ++ e, rest)
      | none => some ('.' :: ds, rest)
  | text => exponent text

/-- A number with a fraction or an exponent, no greater than the greatest
double, or one of the words for what is no finite number. -/
def float (text : List Char) : Option (Unit × List Char) :=
  match whole text with
  | some (n, rest) => do
      let (f, rest) ← fraction rest
      if Binary64.parse (String.ofList (n ++ f)) = some (Binary64.infinity false) then none
      else some ((), rest)
  | none =>
      match (sign text).2 with
      | 'i' :: 'n' :: 'f' :: rest => some ((), rest)
      | 'n' :: 'a' :: 'n' :: rest => some ((), rest)
      | _ => none

/-- A number of exactly two digits that is not above a bound. -/
def twoDigits (least most : Nat) : Scan Nat
  | a :: b :: rest =>
      match digitsValue? [a, b] with
      | some n => if least ≤ n && n ≤ most then some (n, rest) else none
      | none => none
  | _ => none

/-- A number of exactly four digits. -/
def fourDigits : Scan Nat
  | a :: b :: c :: d :: rest => (digitsValue? [a, b, c, d]).map fun n => (n, rest)
  | _ => none

/-- A given character. -/
def mark (c : Char) : Scan Unit
  | d :: rest => if c == d then some ((), rest) else none
  | [] => none

/-- The number of days in a month. -/
def daysIn (year month : Nat) : Nat :=
  if month = 2 then
    if year % 4 = 0 && (year % 100 != 0 || year % 400 = 0) then 29 else 28
  else if month ∈ [4, 6, 9, 11] then 30
  else 31

/-- A day. -/
def date (text : List Char) : Option (Unit × List Char) := do
  let (year, rest) ← fourDigits text
  let ((), rest) ← mark '-' rest
  let (month, rest) ← twoDigits 1 12 rest
  let ((), rest) ← mark '-' rest
  let (_, rest) ← twoDigits 1 (daysIn year month) rest
  return ((), rest)

/-- A part of a second, if there is one. -/
def secondPart : List Char → Option (List Char)
  | '.' :: rest =>
      match rest.takeWhile Char.isDigit with
      | [] => none
      | _ => some (rest.dropWhile Char.isDigit)
  | text => some text

/-- A time of the day. -/
def time (text : List Char) : Option (Unit × List Char) := do
  let (_, rest) ← twoDigits 0 23 text
  let ((), rest) ← mark ':' rest
  let (_, rest) ← twoDigits 0 59 rest
  let ((), rest) ← mark ':' rest
  let (_, rest) ← twoDigits 0 60 rest
  let rest ← secondPart rest
  return ((), rest)

/-- The text behind an offset from universal time, if there is one. -/
def skipOffset (text : List Char) : Option (List Char) :=
  match text with
  | 'Z' :: rest | 'z' :: rest => some rest
  | c :: rest =>
      if c == '+' || c == '-' then do
        let (_, rest) ← twoDigits 0 23 rest
        let ((), rest) ← mark ':' rest
        let (_, rest) ← twoDigits 0 59 rest
        return rest
      else some text
  | [] => some []

/-- The text behind the time of a day, if there is one. -/
def skipTime (text : List Char) : Option (List Char) :=
  match text with
  | c :: rest =>
      if c == 'T' || c == 't' || c == ' ' then
        match time rest with
        | some ((), rest) => skipOffset rest
        | none => some text
      else some text
  | [] => some []

/-- A day, a time, or both. -/
def dateTime (text : List Char) : Option (Unit × List Char) :=
  match date text with
  | some ((), rest) => (skipTime rest).map fun rest => ((), rest)
  | none => time text

end Toml

end Subscription
