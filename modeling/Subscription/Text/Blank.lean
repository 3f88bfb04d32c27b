/-!
# White space

The blanks of a filter are the characters with the Unicode property
*White_Space*, all 25 of them, and not only the ASCII ones.  `isBlank`
decides the property from a table of code-point ranges; `trimStart`,
`trimEnd` and `trim` cut blanks off the ends of a text.
-/

namespace Subscription

/-- The code points with the property White_Space, as closed ranges in
ascending order. -/
def blankRanges : List (Nat × Nat) :=
  [(0x09, 0x0D), (0x20, 0x20), (0x85, 0x85), (0xA0, 0xA0), (0x1680, 0x1680),
   (0x2000, 0x200A), (0x2028, 0x2029), (0x202F, 0x202F), (0x205F, 0x205F), (0x3000, 0x3000)]

/-- Whether a character is white space. -/
def isBlank (c : Char) : Bool :=
  blankRanges.any fun range => range.1 ≤ c.toNat && c.toNat ≤ range.2

/-- The text without its leading blanks. -/
def trimStart (text : List Char) : List Char :=
  text.dropWhile isBlank

/-- The text without its trailing blanks. -/
def trimEnd (text : List Char) : List Char :=
  (text.reverse.dropWhile isBlank).reverse

/-- The text without blanks at either end. -/
def trim (text : List Char) : List Char :=
  trimEnd (trimStart text)

/-- What is left after leading blanks starts with no blank. -/
theorem trimStart_head {text rest : List Char} {c : Char} (h : trimStart text = c :: rest) :
    isBlank c = false := by
  induction text with
  | nil => simp [trimStart] at h
  | cons d tail ih =>
      by_cases hd : isBlank d
      · exact ih (by simpa [trimStart, List.dropWhile_cons, hd] using h)
      · have : d = c := by
          simp [trimStart, hd] at h
          exact h.1
        simpa [this] using hd

end Subscription
