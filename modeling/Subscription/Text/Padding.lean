/-!
# Columns

Tables are set in columns of a least width.  A text shorter than its
column is filled up with spaces, on the right (`padRight`) or on the left
(`padLeft`); a longer text is kept whole.  Width counts characters.
-/

namespace Subscription

/-- The text, filled up on the right to `width` characters. -/
def padRight (width : Nat) (text : String) : String :=
  text ++ String.ofList (List.replicate (width - text.length) ' ')

/-- The text, filled up on the left to `width` characters. -/
def padLeft (width : Nat) (text : String) : String :=
  String.ofList (List.replicate (width - text.length) ' ') ++ text

/-- A number as `width` or more lower-case hexadecimal digits. -/
def hexDigits (width n : Nat) : String :=
  let digits := Nat.toDigits 16 n
  String.ofList (List.replicate (width - digits.length) '0' ++ digits)

end Subscription
