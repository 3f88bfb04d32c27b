import Subscription.Disk.Content
import Subscription.Disk.Permissions
import Subscription.Error.Errno

/-!
# The file system

Names lead to directories and to files; a file lives on as long as someone
has it open, whatever becomes of its name.  So the disk keeps two tables:
`entries` says what each name stands for, `files` holds the files
themselves, which are never thrown away.  A file is regular, with bytes, or
a pipe, with a count of the bytes in it and of those who have it open for
reading.

The working directory is the root of all names and has no parent but
itself.  A location is the list of names that leads to it from there.
-/

namespace Subscription

/-- The names that lead to an entry from the working directory. -/
abbrev Location := List String

/-- What identifies an open file. -/
abbrev FileId := Nat

/-- A file: permissions and content. -/
inductive FileNode where
  | regular (mode : Nat) (content : Content)
  /-- A pipe with the bytes in it and the number of its open read ends. -/
  | fifo (mode pending readers : Nat)
  deriving Repr, Inhabited

/-- The permissions of a file. -/
def FileNode.mode : FileNode → Nat
  | regular mode _ | fifo mode _ _ => mode

/-- The number of bytes that a pipe holds at most. -/
def pipeCapacity : Nat := 65536

/-- The file with another content, as a call that writes to it leaves it. -/
def FileNode.mapContent (change : Content → Content) : FileNode → FileNode
  | regular mode content => regular (writtenMode mode) (change content)
  | other => other

/-- A file after bytes were put into it, if it is a pipe that someone has open; a
full pipe takes no more. -/
def FileNode.pour (count : Nat) : FileNode → FileNode
  | fifo mode pending (readers + 1) =>
      fifo mode (min (pending + count) pipeCapacity) (readers + 1)
  | other => other

/-- A file after it was emptied and written anew.  A pipe cannot be emptied that
way, and takes the bytes in addition. -/
def FileNode.overwrite (bytes : List UInt8) (node : FileNode) : FileNode :=
  (node.mapContent fun _ => .ofBytes bytes).pour bytes.length

/-- What a name stands for. -/
inductive Entry where
  | directory
  | file (id : FileId)
  deriving DecidableEq, Repr, Inhabited

/-- Names and files. -/
structure Disk where
  entries : List (Location × Entry)
  files : List FileNode
  deriving Repr, Inhabited

namespace Disk

/-- An empty working directory. -/
def empty : Disk := ⟨[], []⟩

/-- What a location stands for; the root is a directory. -/
def entryAt (d : Disk) (location : Location) : Option Entry :=
  if location = [] then some .directory else d.entries.lookup location

/-- The file with the given identity. -/
def file? (d : Disk) (id : FileId) : Option FileNode := d.files[id]?

/-- The content of a regular file; a pipe has none. -/
def content (d : Disk) (id : FileId) : Content :=
  match d.file? id with
  | some (.regular _ content) => content
  | _ => .empty

/-- Gives a name to an entry. -/
def link (d : Disk) (location : Location) (entry : Entry) : Disk :=
  { d with entries := d.entries ++ [(location, entry)] }

/-- Takes a name away. -/
def unlinkAt (d : Disk) (location : Location) : Disk :=
  { d with entries := d.entries.filter fun e => e.1 ≠ location }

/-- Takes a name away, with everything below it. -/
def unlinkBelow (d : Disk) (location : Location) : Disk :=
  { d with entries := d.entries.filter fun e => !location.isPrefixOf e.1 }

/-- Makes a new file under a name. -/
def addFile (d : Disk) (location : Location) (node : FileNode) : FileId × Disk :=
  (d.files.length, { d with files := d.files ++ [node] }.link location (.file d.files.length))

/-- Changes a file. -/
def modifyFile (d : Disk) (id : FileId) (change : FileNode → FileNode) : Disk :=
  { d with files := d.files.modify id change }

/-- Changes the content of a regular file. -/
def modifyContent (d : Disk) (id : FileId) (change : Content → Content) : Disk :=
  d.modifyFile id fun node =>
    match node with
    | .regular mode content => .regular mode (change content)
    | other => other

/-- Notes that someone has opened a file; only a pipe keeps count. -/
def attach (d : Disk) (id : FileId) : Disk :=
  d.modifyFile id fun node =>
    match node with
    | .fifo mode pending readers => .fifo mode pending (readers + 1)
    | other => other

/-- Notes that someone has closed a file.  The bytes in a pipe are gone when
nobody has it open any more. -/
def detach (d : Disk) (id : FileId) : Disk :=
  d.modifyFile id fun node =>
    match node with
    | .fifo mode pending readers =>
        .fifo mode (if readers ≤ 1 then 0 else pending) (readers - 1)
    | other => other

/-- The names in a directory, each with what it stands for. -/
def children (d : Disk) (location : Location) : List (String × Entry) :=
  d.entries.filterMap fun e =>
    match e.1.getLast? with
    | some name => if e.1.dropLast = location then some (name, e.2) else none
    | none => none

end Disk

end Subscription
