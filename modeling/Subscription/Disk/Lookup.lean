import Subscription.Disk.Basic
import Subscription.Path

/-!
# Following a path

A path is followed from directory to directory (`Disk.walk`): a dot stays, two dots
go up, a name goes down and must stand for a directory unless it is the
last one.  Following stops with an error at the first name that is missing,
is no directory or is too long.  What the last piece is decides what may be
done with it (`Destination`): only a name can be made or removed.
-/

namespace Subscription

/-- The longest name, in bytes. -/
def maxNameLength : Nat := 255

/-- A path of this many bytes is too long. -/
def maxPathLength : Nat := 4096

/-- Where a path leads, up to its last piece. -/
inductive Destination where
  /-- A directory that is reached without naming it last. -/
  | dots (location : Location)
  /-- A name in a directory; with a slash behind it, it has to be that of a
  directory. -/
  | name (parent : Location) (last : String) (slash : Bool)
  deriving Repr, Inhabited

namespace Disk

/-- The location below a directory that a piece of a path leads to. -/
def descend (d : Disk) (location : Location) (piece : String) : Except Errno Location :=
  if piece = "." then .ok location
  else if piece = ".." then .ok location.dropLast
  else if maxNameLength < piece.utf8ByteSize then .error .nameTooLong
  else
    match d.entryAt (location ++ [piece]) with
    | some .directory => .ok (location ++ [piece])
    | some (.file _) => .error .notDirectory
    | none => .error .noEntry

/-- Follows all pieces but the last one. -/
def walk (d : Disk) (slash : Bool) (location : Location) : List String → Except Errno Destination
  | [] => .ok (.dots location)
  | [last] =>
      if last = "." then .ok (.dots location)
      else if last = ".." then .ok (.dots location.dropLast)
      else .ok (.name location last slash)
  | piece :: rest => (d.descend location piece).bind fun next => d.walk slash next rest

/-- Where a path leads. -/
def target (d : Disk) (path : String) : Except Errno Destination :=
  if path.isEmpty then .error .noEntry
  else if maxPathLength ≤ path.utf8ByteSize then .error .nameTooLong
  else d.walk (path.endsWith "/") [] ((Path.pieces path).filter fun p => p ≠ "")

/-- What a name in a directory stands for. -/
def lookupName (d : Disk) (parent : Location) (name : String) : Except Errno (Option Entry) :=
  if maxNameLength < name.utf8ByteSize then .error .nameTooLong
  else .ok (d.entryAt (parent ++ [name]))

/-- The location and the entry that a path leads to. -/
def find (d : Disk) (path : String) : Except Errno (Location × Entry) := do
  match ← d.target path with
  | .dots location => .ok (location, .directory)
  | .name parent last slash =>
      match ← d.lookupName parent last with
      | none => .error .noEntry
      | some .directory => .ok (parent ++ [last], .directory)
      | some (.file id) =>
          if slash then .error .notDirectory else .ok (parent ++ [last], .file id)

/-- The file that a path leads to, when it leads to one. -/
def fileAt (d : Disk) (path : String) : Option FileId :=
  match d.find path with
  | .ok (_, .file id) => some id
  | _ => none

end Disk

end Subscription
