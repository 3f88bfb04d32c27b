/-!
# Blanks, comments, strings and keys

The words of a configuration text.  Each scanner takes a part off the front
of a text and gives what it read with the rest, or nothing when the text
does not start with what it looks for.

Strings come in four forms: with escapes between double quotes or as they
are between single ones, each on one line or, between tripled quotes, on
several.  A string on several lines drops a line end right behind its
opening quotes and may end in one or two quotes of its own.
-/

namespace Subscription

namespace Toml

/-- Takes a part off the front of a text. -/
abbrev Scan (α : Type) := List Char → Option (α × List Char)

/-- Spaces and tabs. -/
def isSpace (c : Char) : Bool := c == ' ' || c == '\t'

/-- The text behind leading spaces and tabs. -/
def skipSpace (text : List Char) : List Char := text.dropWhile isSpace

/-- The characters that may stand in comments and strings on one line. -/
def isPlain (c : Char) : Bool :=
  c == '\t' || (0x20 ≤ c.toNat && c.toNat != 0x7F)

/-- The text behind a comment, if there is one. -/
def skipComment : List Char → List Char
  | '#' :: rest => rest.dropWhile isPlain
  | text => text

/-- The text behind a line end, if it starts with one. -/
def lineEnd? : List Char → Option (List Char)
  | '\n' :: rest => some rest
  | '\r' :: '\n' :: rest => some rest
  | _ => none

/-- The text behind the end of a line, which may have a comment; the text may
also be over. -/
def finishLine (text : List Char) : Option (List Char) :=
  match skipComment (skipSpace text) with
  | [] => some []
  | rest => lineEnd? rest

/-- The value of a hexadecimal digit. -/
def hexValue? (c : Char) : Option Nat :=
  if c.isDigit then some (c.toNat - '0'.toNat)
  else if 'a' ≤ c && c ≤ 'f' then some (c.toNat - 'a'.toNat + 10)
  else if 'A' ≤ c && c ≤ 'F' then some (c.toNat - 'A'.toNat + 10)
  else none

/-- The number that hexadecimal digits write. -/
def hexNumber? (digits : List Char) : Option Nat :=
  digits.foldlM (fun n c => (hexValue? c).map fun d => n * 16 + d) 0

/-- The character that hexadecimal digits stand for. -/
def codePoint? (digits : List Char) : Option Char :=
  (hexNumber? digits).bind fun n => if n.isValidChar then some (Char.ofNat n) else none

/-- The character that a letter behind a backslash stands for. -/
def escaped? : Char → Option Char
  | 'b' => some '\x08'
  | 't' => some '\t'
  | 'n' => some '\n'
  | 'f' => some '\x0c'
  | 'r' => some '\r'
  | '\x22' => some '\x22'
  | '\\' => some '\\'
  | _ => none

/-- Puts a character, if there is one, before what is read from the rest. -/
def prepend (c : Option Char) (read : Option (List Char × List Char)) :
    Option (List Char × List Char) :=
  match c, read with
  | some c, some (body, rest) => some (c :: body, rest)
  | _, _ => none

/-- Whether there is nothing before the end of the line. -/
def endsLine (text : List Char) : Bool := (lineEnd? (skipSpace text)).isSome

/-- The rest of a string with escapes.  A backslash at the end of a line folds
this line end and all blanks and line ends behind it; `folding` says that
the text is behind such a backslash. -/
def quotedBody (lines folding : Bool) : Scan (List Char)
  | [] => none
  | '\x22' :: '\x22' :: '\x22' :: '\x22' :: '\x22' :: rest =>
      if lines then some (['\x22', '\x22'], rest)
      else some ([], '\x22' :: '\x22' :: '\x22' :: '\x22' :: rest)
  | '\x22' :: '\x22' :: '\x22' :: '\x22' :: rest =>
      if lines then some (['\x22'], rest) else some ([], '\x22' :: '\x22' :: '\x22' :: rest)
  | '\x22' :: '\x22' :: '\x22' :: rest =>
      if lines then some ([], rest) else some ([], '\x22' :: '\x22' :: rest)
  | '\x22' :: rest =>
      if lines then prepend (some '\x22') (quotedBody lines false rest) else some ([], rest)
  | '\\' :: 'u' :: a :: b :: c :: d :: rest =>
      prepend (codePoint? [a, b, c, d]) (quotedBody lines false rest)
  | '\\' :: 'U' :: a :: b :: c :: d :: e :: f :: g :: h :: rest =>
      prepend (codePoint? [a, b, c, d, e, f, g, h]) (quotedBody lines false rest)
  | '\\' :: c :: rest =>
      if lines && endsLine (c :: rest) then quotedBody lines true (c :: rest)
      else prepend (escaped? c) (quotedBody lines false rest)
  | '\r' :: '\n' :: rest =>
      if folding then quotedBody lines true rest
      else if lines then prepend (some '\n') (quotedBody lines false rest)
      else none
  | c :: rest =>
      if folding && (isSpace c || c == '\n') then quotedBody lines true rest
      else if (lines && c == '\n') || isPlain c then
        prepend (some c) (quotedBody lines false rest)
      else none

/-- The rest of a string without escapes. -/
def literalBody (lines : Bool) : Scan (List Char)
  | [] => none
  | '\x27' :: '\x27' :: '\x27' :: '\x27' :: '\x27' :: rest =>
      if lines then some (['\x27', '\x27'], rest)
      else some ([], '\x27' :: '\x27' :: '\x27' :: '\x27' :: rest)
  | '\x27' :: '\x27' :: '\x27' :: '\x27' :: rest =>
      if lines then some (['\x27'], rest) else some ([], '\x27' :: '\x27' :: '\x27' :: rest)
  | '\x27' :: '\x27' :: '\x27' :: rest =>
      if lines then some ([], rest) else some ([], '\x27' :: '\x27' :: rest)
  | '\x27' :: rest =>
      if lines then prepend (some '\x27') (literalBody lines rest) else some ([], rest)
  | '\r' :: '\n' :: rest =>
      if lines then prepend (some '\n') (literalBody lines rest) else none
  | c :: rest =>
      if (lines && c == '\n') || isPlain c then prepend (some c) (literalBody lines rest)
      else none

/-- A string as a text. -/
def asText (read : Option (List Char × List Char)) : Option (String × List Char) :=
  read.map fun r => (String.ofList r.1, r.2)

/-- A string on one line. -/
def lineString : Scan String
  | '\x22' :: rest => asText (quotedBody false false rest)
  | '\x27' :: rest => asText (literalBody false rest)
  | _ => none

/-- The text without a line end at its front. -/
def dropLineEnd (text : List Char) : List Char := (lineEnd? text).getD text

/-- A string in any of the four forms. -/
def string : Scan String
  | '\x22' :: '\x22' :: '\x22' :: rest => asText (quotedBody true false (dropLineEnd rest))
  | '\x27' :: '\x27' :: '\x27' :: rest => asText (literalBody true (dropLineEnd rest))
  | text => lineString text

/-- The characters of a key without quotes. -/
def isBareKey (c : Char) : Bool := c.isAlphanum || c == '_' || c == '-'

/-- One part of a key. -/
def keyPart (text : List Char) : Option (String × List Char) :=
  match text.takeWhile isBareKey with
  | [] => lineString text
  | bare => some (String.ofList bare, text.dropWhile isBareKey)

/-- The parts of a key, with dots between them and blanks around them; `bound`
is no less than the length of the text. -/
def keyParts : (bound : Nat) → Scan (List String)
  | 0, _ => none
  | bound + 1, text => do
      let (part, rest) ← keyPart (skipSpace text)
      match skipSpace rest with
      | '.' :: more => (keyParts bound more).map fun r => (part :: r.1, r.2)
      | rest => some ([part], rest)

/-- Keys have fewer parts than this, and values are nested less deeply. -/
def depthLimit : Nat := 80

/-- A key: the parts that lead to a table and the last part. -/
def key (text : List Char) : Option ((List String × String) × List Char) := do
  let (parts, rest) ← keyParts (text.length + 1) text
  if depthLimit ≤ parts.length then none
  else
    match parts.getLast? with
    | some last => some ((parts.dropLast, last), rest)
    | none => none

end Toml

end Subscription
