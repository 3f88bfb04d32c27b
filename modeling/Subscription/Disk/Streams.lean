import Subscription.Disk.Calls

/-!
# Reading and writing without waiting

The calls on pipes, none of which waits for anybody.  Reading from an empty
pipe and writing to a full one fail with `Errno.tryAgain`, and so does opening
a pipe for writing that nobody has open for reading, with `Errno.noPeer`.

A regular file can stand in the place of a pipe.  It is always ready: who
reads it finds nothing more in it, and who writes to it writes at its start.
-/

namespace Subscription

namespace Disk

/-- The number of bytes that wait in a pipe. -/
def pending (d : Disk) (id : FileId) : Nat :=
  match d.file? id with
  | some (.fifo _ pending _) => pending
  | _ => 0

/-- Whether a file can be read without waiting. -/
def isReadable (d : Disk) (id : FileId) : Bool :=
  match d.file? id with
  | some (.fifo _ pending _) => pending ≠ 0
  | some (.regular _ _) => true
  | none => false

/-- Takes at most `count` bytes out of a file, and tells how many they are. -/
def takeBytes (d : Disk) (id : FileId) (count : Nat) : Except Errno (Nat × Disk) :=
  match d.file? id with
  | some (.fifo mode pending readers) =>
      if pending = 0 then .error .tryAgain
      else
        .ok (min count pending, d.modifyFile id fun _ => .fifo mode (pending - count) readers)
  | some (.regular _ _) => .ok (0, d)
  | none => .error .badDescriptor

/-- Bytes that have been taken out are gone. -/
theorem pending_lt_of_takeBytes {d d' : Disk} {id : FileId} {count taken : Nat}
    (htake : d.takeBytes id count = .ok (taken, d')) (htaken : taken ≠ 0) :
    d'.pending id < d.pending id := by
  unfold takeBytes at htake
  split at htake
  · next mode pending readers hfile =>
      split at htake
      · cases htake
      · next hpending =>
          cases htake
          have hcount : 0 < count := Nat.pos_of_ne_zero fun hzero => htaken (by simp [hzero])
          have hleft : pending - count < pending :=
            Nat.sub_lt (Nat.pos_of_ne_zero hpending) hcount
          simp only [file?] at hfile
          simpa [Disk.pending, file?, modifyFile, hfile] using hleft
  · cases htake
    exact absurd rfl htaken
  · cases htake

/-- Opens a file to write to it; a pipe has to be open for reading. -/
def openForWriting (d : Disk) (path : String) : Except Errno FileId := do
  let id ← d.openFile path .write
  match d.file? id with
  | some (.fifo _ _ 0) => .error .noPeer
  | _ => .ok id

/-- Writes one zero byte to a file that has just been opened. -/
def putByte (d : Disk) (id : FileId) : Except Errno Disk :=
  match d.file? id with
  | some (.fifo mode pending readers) =>
      if pending < pipeCapacity then
        .ok (d.modifyFile id fun _ => .fifo mode (pending + 1) readers)
      else .error .tryAgain
  | some (.regular mode content) =>
      let room := if content.length = 0 then content.resize 1 else content
      .ok (d.modifyFile id fun _ => .regular (writtenMode mode) (room.write 0 [0]))
  | none => .error .badDescriptor

end Disk

end Subscription
