import Subscription.Header
import Subscription.Segment.Basic

/-!
# Holding the lock of a segment

The lock of a segment lies in its bytes, so it can only be taken and given
back through a mapping that covers it.  A guard remembers what was taken and
where; the lock is looked up again when the guard is given back, since the
mapping may have been replaced meanwhile.  When it is not covered any more,
the lock stays taken, and the log says so.

`Segment.withReadLock` and `Segment.withWriteLock` run an action under a
guard, which is given back however the action ends.
-/

namespace Subscription

/-- A lock of a segment that is held. -/
structure Guard where
  offset : Nat
  readTimeout : Span
  mode : LockMode
  holder : String
  deriving Inhabited

namespace Segment

variable {ε α : Type}

/-- Where the lock at an offset lies, which the mapping has to cover. -/
def lockPlace (offset : Nat) : SegmentM Error LockPlace := do
  require offset lockSize lockAlignment
  match (← get).segment.file with
  | some file => return .inFile file offset
  | none => throw (.fault .notMapped)

/-- Takes the lock at an offset. -/
def takeGuard (offset : Nat) (timeout readTimeout : Span) (mode : LockMode) (holder : String) :
    SegmentM Failure Guard := do
  let place ← lockPlace offset
  onHost (Host.lock place mainParty timeout readTimeout mode holder)
  return ⟨offset, readTimeout, mode, holder⟩

/-- Says that the lock of a guard is out of reach. -/
def sayLost (g : Guard) (e : Error) : SegmentM ε Unit :=
  onHost (Host.say .error
    s!"Lock of a segment lost before unlocking in {g.holder} ({e.message}).")

/-- Gives a read lock back. -/
def dropReadGuard (g : Guard) : SegmentM ε Unit := do
  match ← attempt (lockPlace g.offset) with
  | .ok place => onHost (Host.unlockRead place mainParty g.readTimeout g.holder)
  | .error e => sayLost g e

/-- Gives a write lock back. -/
def dropWriteGuard (g : Guard) : SegmentM Abort Unit := do
  match ← attempt (lockPlace g.offset) with
  | .ok place => onHost (Host.unlockWrite place mainParty g.holder)
  | .error e => sayLost g e

/-- Gives a lock back. -/
def dropGuard (g : Guard) : SegmentM Abort Unit :=
  match g.mode with
  | .read => dropReadGuard g
  | .write => dropWriteGuard g

/-- Fails unless the guard allows changes. -/
def requireWrite (g : Guard) : SegmentM Error Unit :=
  match g.mode with
  | .write => pure ()
  | .read => throw (.fault (.modifiedUnderReadLock g.holder))

/-- Runs an action under the read lock of the header. -/
def withReadLock (timeout readTimeout : Span) (holder : String) (act : SegmentM Error α) :
    SegmentM Failure α := do
  let g ← takeGuard lockOffset timeout readTimeout .read holder
  let result ← attempt act
  dropReadGuard g
  (ofExcept result : SegmentM Error α)

/-- Runs an action under the write lock of the header. -/
def withWriteLock (timeout readTimeout : Span) (holder : String) (act : SegmentM Error α) :
    SegmentM Failure α := do
  let g ← takeGuard lockOffset timeout readTimeout .write holder
  let result ← attempt act
  (dropWriteGuard g : SegmentM Abort Unit)
  (ofExcept result : SegmentM Error α)

end Segment

end Subscription
