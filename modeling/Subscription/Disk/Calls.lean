import Subscription.Disk.Lookup

/-!
# File system calls

The calls that make, open, resize, list and remove files.  Each gives an
error number or its result with the changed disk; a call that fails changes
nothing.  Only `Disk.ensureDirectories` consists of several calls, and keeps
the directories that it made before one of them failed.
-/

namespace Subscription

/-- Lengths are passed as signed 64-bit numbers. -/
def maxLength : Nat := 0x7FFFFFFFFFFFFFFF

/-- The length of the longest file: the pages of a file are numbered with 32
bits, and the last number is not used. -/
def maxFileLength : Nat := 0xFFFFFFFF * pageSize

namespace Disk

/-- Whether the permissions of a file allow to open it. -/
def allows (d : Disk) (id : FileId) (access : Access) : Bool :=
  (d.file? id).all fun node => access.allowedBy node.mode

/-- Opens a file that is there; a directory cannot be. -/
def openFile (d : Disk) (path : String) (access : Access) : Except Errno FileId := do
  match ← d.find path with
  | (_, .directory) => .error .isDirectory
  | (_, .file id) => if d.allows id access then .ok id else .error .accessDenied

/-- Makes a new regular file; fails when there is something under the path. -/
def createFile (d : Disk) (path : String) (mode : Nat) : Except Errno (FileId × Disk) := do
  match ← d.target path with
  | .dots _ => .error .exists_
  | .name parent last slash =>
      if slash then .error .isDirectory
      else
        match ← d.lookupName parent last with
        | some _ => .error .exists_
        | none => .ok (d.addFile (parent ++ [last]) (.regular (grantedMode mode) .empty))

/-- Sets the length of an open file. -/
def resizeFile (d : Disk) (id : FileId) (length : Nat) : Except Errno Disk :=
  if maxLength < length then .error .invalid
  else
    match d.file? id with
    | some (.regular _ _) =>
        if maxFileLength < length then .error .tooLarge
        else .ok (d.modifyFile id fun node => node.mapContent fun c => c.resize length)
    | _ => .error .invalid

/-- Removes a name that is not that of a directory. -/
def unlink (d : Disk) (path : String) : Except Errno Disk := do
  match ← d.target path with
  | .dots _ => .error .isDirectory
  | .name parent last slash =>
      match ← d.lookupName parent last with
      | none => .error .noEntry
      | some .directory => .error .isDirectory
      | some (.file _) =>
          if slash then .error .notDirectory else .ok (d.unlinkAt (parent ++ [last]))

/-- Makes a pipe; nothing else can be asked for. -/
def makeFifo (d : Disk) (path : String) (mode : Nat) : Except Errno Disk := do
  if hasBit mode otherKinds then .error .invalid
  else
    match ← d.target path with
    | .dots _ => .error .exists_
    | .name parent last slash =>
        match ← d.lookupName parent last with
        | some _ => .error .exists_
        | none =>
            if slash then .error .noEntry
            else .ok (d.addFile (parent ++ [last]) (.fifo (grantedMode mode) 0 0)).2

/-- Makes a directory. -/
def makeDirectory (d : Disk) (path : String) : Except Errno Disk := do
  match ← d.target path with
  | .dots _ => .error .exists_
  | .name parent last _ =>
      match ← d.lookupName parent last with
      | some _ => .error .exists_
      | none => .ok (d.link (parent ++ [last]) .directory)

/-- Whether a path leads to a directory. -/
def isDirectory (d : Disk) (path : String) : Bool :=
  match d.find path with
  | .ok (_, .directory) => true
  | _ => false

/-- Makes a directory unless it is there. -/
def ensureDirectory (path : String) : EStateM Errno Disk Unit := fun d =>
  match d.makeDirectory path with
  | .ok made => .ok () made
  | .error e => if d.isDirectory path then .ok () d else .error e d

/-- Makes a directory and those it lies in, each unless it is there; `depth`
bounds the number of directories above. -/
def ensureDirectories (path : String) (depth : Nat) : EStateM Errno Disk Unit := do
  if path.isEmpty then pure ()
  else
    match (← get).makeDirectory path with
    | .ok made => set made
    | .error e =>
        if e ≠ .noEntry then ensureDirectory path
        else
          match Path.parent? path, depth with
          | some parent, above + 1 =>
              ensureDirectories parent above
              ensureDirectory path
          | _, _ => throw e

/-- Makes a file, or empties it, and writes to it; a pipe keeps the bytes that are in it. -/
def writeFile (d : Disk) (path : String) (bytes : List UInt8) : Except Errno Disk := do
  match ← d.target path with
  | .dots _ => .error .isDirectory
  | .name parent last slash =>
      if slash then .error .isDirectory
      else
        match ← d.lookupName parent last with
        | some .directory => .error .isDirectory
        | some (.file id) =>
            if d.allows id .write then
              .ok (d.modifyFile id fun node => node.overwrite bytes)
            else .error .accessDenied
        | none =>
            .ok (d.addFile (parent ++ [last]) (.regular (grantedMode 0o666) (.ofBytes bytes))).2

/-- The bytes of the regular file that a path leads to. -/
def readFile (d : Disk) (path : String) : Except Errno (List UInt8) := do
  let id ← d.openFile path .read
  .ok (d.content id).bytes

/-- Removes what a path leads to, a directory with everything below it. -/
def removeTree (d : Disk) (path : String) : Except Errno Disk := do
  let (location, _) ← d.find path
  .ok (d.unlinkBelow location)

/-- The names in the directory that a path leads to. -/
def listDirectory (d : Disk) (path : String) : Except Errno (List (String × Entry)) := do
  match ← d.find path with
  | (location, .directory) => .ok (d.children location)
  | (_, .file _) => .error .notDirectory

end Disk

end Subscription
