import Subscription.Header
import Subscription.Segment.Basic

/-!
# Opening segments

`Segment.openOrCreate` makes the file when there is none and maps at least
as many bytes as asked for; when that fails, a file that was made is
removed again.  `Segment.openExisting` never makes or changes a file.
`Segment.openSubscription` also sets up the header of a segment that was
made: all zero, with a fresh lock.

Removing a segment takes its name away; those who have it open keep it.
-/

namespace Subscription

namespace Segment

variable {ε α : Type}

/-- Uses a handle on the host; gives the handle back with the result. -/
def runOn (s : Segment) (act : SegmentM ε α) : HostM ε (α × Segment) := fun h =>
  match act ⟨s, h⟩ with
  | .ok a t => .ok (a, t.segment) t.host
  | .error e t => .error e t.host

/-- Takes the name of a file away, or tells why that is not possible. -/
def unlink (path : String) : HostM ε (Option SystemCause) := do
  if Path.hasNul path then return some .nulInName
  else
    match (← get).disk.unlink path with
    | .ok disk =>
        Host.setDisk disk
        return none
    | .error e => return some (.errno e)

/-- Removes the file under a path. -/
def remove (path : String) : HostM Error Unit := do
  match ← unlink path with
  | none => pure ()
  | some cause => throw (.system "unlink" cause)

/-- Says that a file could not be removed. -/
def sayNotRemoved (path reason : String) : HostM ε Unit :=
  Host.say .warn s!"Failed to unlink SHM \"{path}\" ({reason})."

/-- Removes the file under a path; a failure only goes to the log. -/
def removeQuietly (path : String) : HostM ε Unit := do
  match ← attempt (remove path) with
  | .ok () => pure ()
  | .error e => sayNotRemoved path e.message

/-- Opens the file under a path, or makes it; tells whether it did. -/
def openFile (path : String) (mode : Nat) : HostM Error (FileId × Bool) := do
  let h ← get
  match h.disk.createFile path mode with
  | .ok (file, disk) =>
      Host.setDisk (disk.attach file)
      return (file, true)
  | .error e =>
      if e = .exists_ then
        match h.disk.openFile path .both with
        | .ok file =>
            Host.setDisk (h.disk.attach file)
            return (file, false)
        | .error e => throw (.system "open" (.errno e))
      else throw (.system "open" (.errno e))

/-- Maps at least as many bytes as asked for; the handle is given up when
that fails. -/
def mapAtLeast (minimum : Nat) : SegmentM Error Unit := do
  let length ← fileLength
  match ← attempt (remap (if length < minimum then some minimum else none)) with
  | .ok () => pure ()
  | .error e =>
      clear
      throw e

/-- Opens the segment under a path, making it when there is none, and maps at
least as many bytes as asked for; tells whether it was made. -/
def openOrCreate (path : String) (minimum mode : Nat) : HostM Error (Segment × Bool) := do
  if Path.hasNul path then throw (.invalid (.nulInPath path))
  else
    let (file, created) ← openFile path mode
    match ← attempt (runOn ⟨some file, none⟩ (mapAtLeast minimum)) with
    | .ok ((), s) =>
        if created then Host.say .debug s!"Created SHM \"{path}\" ({s.size} bytes)."
        return (s, created)
    | .error e =>
        if created then
          match ← unlink path with
          | none => pure ()
          | some cause => sayNotRemoved path cause.message
        throw e

/-- Opens the segment under a path, if there is one. -/
def openExisting (path : String) : HostM Error (Option Segment) := do
  if Path.hasNul path then throw (.invalid (.nulInPath path))
  else
    let h ← get
    match h.disk.openFile path .both with
    | .error e => if e = .noEntry then return none else throw (.system "open" (.errno e))
    | .ok file =>
        Host.setDisk (h.disk.attach file)
        let ((), s) ← runOn ⟨some file, none⟩ (mapAtLeast 0)
        return some s

/-- Sets up the header: all zero, with a fresh lock. -/
def initHeader (kind : HeaderKind) : SegmentM Error Unit := do
  setBytes 0 (List.replicate kind.size 0)
  require 0 (HeaderKind.size .single) headerAlignment
  change fun c => c.initLock lockOffset

/-- Opens the subscription segment under a path, with a header of the given
kind; tells whether it was made. -/
def openSubscription (path : String) (kind : HeaderKind) (mode : Nat) :
    HostM Error (Segment × Bool) := do
  let (s, created) ← openOrCreate path kind.size mode
  if created then
    let setUp : SegmentM Error Unit := do
      match ← attempt (initHeader kind) with
      | .ok () => pure ()
      | .error e =>
          clear
          throw e
    match ← attempt (runOn s setUp) with
    | .ok ((), s) => return (s, true)
    | .error e =>
        removeQuietly path
        throw e
  else return (s, false)

/-- Gives up a handle. -/
def close (s : Segment) : HostM ε Unit := do
  let _ ← runOn s clear

end Segment

end Subscription
