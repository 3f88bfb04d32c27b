import Subscription.Config.Toml.Number
import Subscription.Config.Toml.Table

/-!
# Whole texts

A configuration text is a sequence of lines: pairs of a key and a value,
and headers of tables.  The pairs behind a header belong to its table.  A
value may go over several lines inside brackets, where blanks, line ends
and comments say nothing; a table between braces stays on one line.
-/

namespace Subscription

namespace Toml

/-- The text behind blanks, line ends and comments; `bound` is no less than
the length of the text. -/
def skipLines : (bound : Nat) → List Char → List Char
  | 0, text => text
  | bound + 1, text =>
      let rest := skipComment (skipSpace text)
      match lineEnd? rest with
      | some more => skipLines bound more
      | none => rest

/-- The text behind blanks, line ends and comments. -/
def skipIdle (text : List Char) : List Char := skipLines text.length text

/-- The rest of an array behind its opening bracket or a comma. -/
def arrayRest (element : Scan Datum) : (bound : Nat) → List Char → Option (List Char)
  | 0, _ => none
  | bound + 1, text =>
      match skipIdle text with
      | ']' :: rest => some rest
      | text => do
          let (_, rest) ← element text
          match skipIdle rest with
          | ',' :: more => arrayRest element bound more
          | ']' :: more => some more
          | _ => none

/-- A pair of a key and a value. -/
def pair (element : Scan Datum) (text : List Char) :
    Option ((List String × String × Datum) × List Char) := do
  let ((path, name), rest) ← key text
  match rest with
  | '=' :: rest => do
      let (d, rest) ← element (skipSpace rest)
      some ((path, name, d), rest)
  | _ => none

/-- The pairs of a table between braces, up to the closing one. -/
def inlineRest (element : Scan Datum) : (bound : Nat) → Table → List Char → Option (List Char)
  | 0, _, _ => none
  | bound + 1, t, text => do
      let ((path, name, d), rest) ← pair element text
      let t ← t.addValue path name d
      match skipSpace rest with
      | ',' :: more => inlineRest element bound t more
      | '}' :: more => some more
      | _ => none

/-- A table between braces, behind the opening one. -/
def inlineTable (element : Scan Datum) (text : List Char) : Option (List Char) :=
  match skipSpace text with
  | '}' :: rest => some rest
  | _ => inlineRest element (text.length + 1) .headed text

/-- A value that is not nested. -/
def scalar (text : List Char) : Option (Datum × List Char) :=
  match text with
  | '\x22' :: _ | '\x27' :: _ => (string text).map fun r => (.string r.1, r.2)
  | 't' :: 'r' :: 'u' :: 'e' :: rest => some (.other, rest)
  | 'f' :: 'a' :: 'l' :: 's' :: 'e' :: rest => some (.other, rest)
  | _ =>
      match dateTime text with
      | some ((), rest) => some (.other, rest)
      | none =>
          match float text with
          | some ((), rest) => some (.other, rest)
          | none => (integer text).map fun r => (.integer r.1, r.2)

/-- A value; `depth` says how deeply arrays and tables in it may be nested. -/
def value (depth : Nat) (text : List Char) : Option (Datum × List Char) :=
  match text, depth with
  | '[' :: rest, depth + 1 =>
      (arrayRest (value depth) (rest.length + 1) rest).map fun rest => (.other, rest)
  | '{' :: rest, depth + 1 =>
      (inlineTable (value depth) rest).map fun rest => (.other, rest)
  | '[' :: _, 0 | '{' :: _, 0 => none
  | text, _ => scalar text

/-- A value, nested as deeply as is allowed. -/
def anyValue : Scan Datum := value (depthLimit - 1)

/-- What has been read: the tree without the present table, that table, and
where it belongs. -/
structure Reading where
  root : Table
  present : Table
  /-- The path and the name of the present table, if it has a header, and
  whether there are several under that header. -/
  header : Option (List String × String × Bool)
  deriving Repr, Inhabited

namespace Reading

/-- Nothing has been read. -/
def start : Reading := ⟨.headed, .headed, none⟩

/-- The tree with the present table in it. -/
def tree (r : Reading) : Option Table :=
  match r.header with
  | none => some r.present
  | some (path, name, false) => r.root.finish path name r.present
  | some (path, name, true) => r.root.finishMany path name r.present

/-- Starts a table. -/
def head (r : Reading) (path : List String) (name : String) : Option Reading := do
  let (present, root) ← (← r.tree).start path name
  return ⟨root, present, some (path, name, false)⟩

/-- Starts one of several tables under one header. -/
def headMany (r : Reading) (path : List String) (name : String) : Option Reading := do
  let root ← (← r.tree).startMany path name
  return ⟨root, .headed, some (path, name, true)⟩

end Reading

/-- Reads what stands on a line, if anything. -/
def line (r : Reading) (text : List Char) : Option (Reading × List Char) :=
  match skipSpace text with
  | '[' :: '[' :: rest => do
      let ((path, name), rest) ← key rest
      match rest with
      | ']' :: ']' :: rest => (r.headMany path name).map fun r => (r, rest)
      | _ => none
  | '[' :: rest => do
      let ((path, name), rest) ← key rest
      match rest with
      | ']' :: rest => (r.head path name).map fun r => (r, rest)
      | _ => none
  | [] => some (r, [])
  | '\n' :: rest => some (r, '\n' :: rest)
  | '\r' :: rest => some (r, '\r' :: rest)
  | '#' :: rest => some (r, '#' :: rest)
  | text => do
      let ((path, name, d), rest) ← pair anyValue text
      let present ← r.present.addValue path name d
      return ({ r with present }, rest)

/-- Reads the lines of a text; `bound` is no less than their number. -/
def lines : (bound : Nat) → Reading → List Char → Option Reading
  | 0, _, _ => none
  | bound + 1, r, text => do
      let (r, rest) ← line r text
      match ← finishLine rest with
      | [] => some r
      | more => lines bound r more

/-- The text without the mark of its encoding. -/
def withoutMark : List Char → List Char
  | '\uFEFF' :: rest => rest
  | text => text

/-- The tree of tables that a text describes. -/
def parse (text : String) : Option Table := do
  let body := withoutMark text.toList
  (← lines (body.length + 1) .start body).tree

end Toml

end Subscription
