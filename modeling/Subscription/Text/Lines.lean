/-!
# The lines of a text

A line ends before a line feed, and a carriage return right before the line
feed belongs to the end of the line.  What follows the last line feed is a
line as well, unless it is empty, and a carriage return in it is nothing
special.
-/

namespace Subscription

namespace Text

/-- A line, given backwards, without the carriage return at its end. -/
def endLine : List Char → List Char
  | '\r' :: line => line.reverse
  | line => line.reverse

/-- The lines of a text; `line` has the beginning of the first one,
backwards. -/
def linesFrom (line : List Char) : List Char → List (List Char)
  | [] => if line.isEmpty then [] else [line.reverse]
  | c :: rest => if c = '\n' then endLine line :: linesFrom [] rest else linesFrom (c :: line) rest

/-- The lines of a text. -/
def lines (text : String) : List String :=
  (linesFrom [] text.toList).map String.ofList

/-- A text without line feeds is one line. -/
theorem linesFrom_of_no_feed (line : List Char) {text : List Char} (h : '\n' ∉ text)
    (hne : line ≠ [] ∨ text ≠ []) : linesFrom line text = [line.reverse ++ text] := by
  induction text generalizing line with
  | nil =>
      have hline : line ≠ [] := by simpa using hne
      simp [linesFrom, List.isEmpty_iff, hline]
  | cons c rest ih =>
      rw [List.mem_cons, not_or] at h
      have hc : c ≠ '\n' := Ne.symm h.1
      rw [linesFrom, if_neg hc, ih (c :: line) h.2 (Or.inl (List.cons_ne_nil c line))]
      simp

end Text

end Subscription
