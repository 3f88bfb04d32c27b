import Subscription.Host.Locking

/-!
# Segments

A segment is a file that several parties map.  Each of them has a handle of
its own: the file it has open, if any, and the length of its mapping, if
there is one.  Nobody keeps an address; the mapping is accessed by offset,
and every access is checked against the length of the moment
(`Segment.check`), since a mapping may be replaced.

`Segment.remap` brings a mapping in line with the file.  It gives up the old
mapping before it changes the length of the file, so that a remap which
fails may leave the handle without a mapping.
-/

namespace Subscription

/-- A handle on a file that is mapped. -/
structure Segment where
  /-- The file, while it is open. -/
  file : Option FileId
  /-- The length of the mapping, while there is one. -/
  mapping : Option Nat
  deriving DecidableEq, Repr, Inhabited

/-- Addresses and lengths are below this. -/
def addressBound : Nat := UInt64.size

namespace Segment

/-- A handle on nothing. -/
def unowned : Segment := ⟨none, none⟩

/-- The length of the mapping. -/
def size (s : Segment) : Nat := s.mapping.getD 0

/-- Whether anything is mapped. -/
def isMapped (s : Segment) : Bool := s.mapping.isSome

/-- Whether a file is open. -/
def isOpen (s : Segment) : Bool := s.file.isSome

/-- Whether `count` bytes from an offset on may be accessed: they have to lie
inside the mapping, and the offset has to be a multiple of the alignment. -/
def check (s : Segment) (offset count alignment : Nat) : Except Error Unit :=
  match s.mapping with
  | none => .error (.fault .notMapped)
  | some size =>
      if addressBound ≤ offset + count then .error (.fault (.offsetOverflow offset))
      else if size < offset + count then
        .error (.fault (.outOfBounds offset (offset + count) size))
      else if offset % alignment ≠ 0 then .error (.fault (.misaligned offset alignment))
      else .ok ()

end Segment

/-- A handle together with the host it is used on. -/
structure Attached where
  segment : Segment
  host : Host
  deriving Inhabited

/-- An action on a handle that may fail. -/
abbrev SegmentM (ε : Type) : Type → Type := EStateM ε Attached

namespace Segment

variable {ε α : Type}

/-- An action on the host that a handle is used on. -/
def onHost (act : HostM ε α) : SegmentM ε α :=
  onPart (·.host) (fun host a => { a with host }) act

/-- Gives up the mapping. -/
def unmap : SegmentM ε Unit :=
  modify fun a => { a with segment := { a.segment with mapping := none } }

/-- Gives up the mapping and closes the file. -/
def clear : SegmentM ε Unit :=
  modify fun a =>
    match a.segment.file with
    | some file => ⟨unowned, { a.host with disk := a.host.disk.detach file }⟩
    | none => { a with segment := unowned }

/-- The length of the file. -/
def fileLength : SegmentM Error Nat := do
  let a ← get
  match a.segment.file with
  | some file => return (a.host.disk.content file).length
  | none => throw (.system "fstat" (.errno .badDescriptor))

/-- Changes the length of the file. -/
def truncate (length : Nat) : SegmentM Error Unit := do
  let a ← get
  let refused (e : Errno) : SegmentM Error Unit := throw (.system "ftruncate" (.errno e))
  if maxLength < length then refused .invalid
  else
    match a.segment.file with
    | none => refused .badDescriptor
    | some file =>
        match a.host.disk.resizeFile file length with
        | .ok disk => set { a with host := { a.host with disk } }
        | .error e => refused e

/-- Brings the mapping in line with the file, which is given a new length
first when there is one.  Nothing happens when the mapping has that length
already. -/
def remap (length : Option Nat) : SegmentM Error Unit := do
  let target ←
    match length with
    | some n => pure n
    | none => fileLength
  if target = (← get).segment.size then pure ()
  else
    unmap
    if let some n := length then truncate n
    if target ≠ 0 then
      modify fun a => { a with segment := { a.segment with mapping := some target } }

/-- The content of the file. -/
def content : SegmentM ε Content := do
  let a ← get
  return match a.segment.file with
    | some file => a.host.disk.content file
    | none => .empty

/-- Changes the content of the file. -/
def change (f : Content → Content) : SegmentM ε Unit :=
  modify fun a =>
    match a.segment.file with
    | some file => { a with host := { a.host with disk := a.host.disk.modifyContent file f } }
    | none => a

/-- Fails unless the bytes may be accessed. -/
def require (offset count alignment : Nat) : SegmentM Error Unit := do
  ofExcept ((← get).segment.check offset count alignment)

/-- The `count` bytes from an offset on. -/
def bytes (offset count : Nat) : SegmentM Error (List UInt8) := do
  require offset count 1
  return (← content).read offset count

/-- Replaces the bytes from an offset on. -/
def setBytes (offset : Nat) (new : List UInt8) : SegmentM Error Unit := do
  require offset new.length 1
  change fun c => c.write offset new

/-- The number in the `count` bytes from an offset on, which has to be a
multiple of `count`. -/
def number (offset count : Nat) : SegmentM Error Nat := do
  require offset count count
  return (← content).number offset count

/-- Changes the number in the `count` bytes from an offset on, which has to
be a multiple of `count`. -/
def setNumber (offset count n : Nat) : SegmentM Error Unit := do
  require offset count count
  change fun c => c.setNumber offset count n

end Segment

end Subscription
