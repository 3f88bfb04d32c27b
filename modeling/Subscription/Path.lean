/-!
# Paths

A path is a text with slashes.  Joining a name to a directory keeps the
directory's own spelling: nothing is put before the name when the directory
is empty, no second slash when it ends in one, and an absolute name stands
alone.  Apart from joining, a path counts as the list of its components,
where idle slashes and idle dots say nothing (`Path.components`).
-/

namespace Subscription

namespace Path

/-- The directory followed by the name. -/
def join (directory name : String) : String :=
  if name.startsWith "/" then name
  else if directory.isEmpty then name
  else if directory.endsWith "/" then directory ++ name
  else directory ++ "/" ++ name

/-- The pieces between slashes. -/
def pieces (path : String) : List String :=
  (path.toList.splitOn '/').map String.ofList

/-- Whether the path starts at the root. -/
def isAbsolute (path : String) : Bool :=
  path.startsWith "/"

/-- The components of a path: empty pieces and dots are dropped, but a dot
that leads a relative path. -/
def components (path : String) : List String :=
  match pieces path with
  | "." :: rest => "." :: rest.filter fun p => p ≠ "" ∧ p ≠ "."
  | all => all.filter fun p => p ≠ "" ∧ p ≠ "."

/-- The path of the given components. -/
def ofComponents (absolute : Bool) (parts : List String) : String :=
  (if absolute then "/" else "") ++ "/".intercalate parts

/-- The directory that a path lies in, nothing for the root and for the
empty path. -/
def parent? (path : String) : Option String :=
  match components path with
  | [] => none
  | parts => some (ofComponents (isAbsolute path) parts.dropLast)

/-- Whether a path holds a NUL character, which no file name can. -/
def hasNul (path : String) : Bool :=
  path.toList.any (· == '\x00')

end Path

end Subscription
