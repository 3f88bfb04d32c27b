import Subscription.Event
import Subscription.Segment.Guard

/-!
# Reading events

A subscriber copies the event of a segment under the read lock.  The
publisher may make the segment longer between the remap and the lock, so
that the mapping is too short for the payload; trying once more covers
that.  When the mapping is too short a second time, the header lies.
-/

namespace Subscription

namespace Segment

/-- Copies the event, under the read lock; a payload that goes past the end
of the mapping is given as the fault that it may be. -/
def copyEvent (kind : HeaderKind) : SegmentM Error (Except Fault Snapshot) := do
  require 0 (HeaderKind.size .single) headerAlignment
  let size := (← get).segment.size
  let c ← content
  let length := (c.field .payloadLength).toNat
  if size < kind.size + length then return .error (.payloadPastEnd length size)
  else
    let numbers ←
      match kind with
      | .single => pure (none, none)
      | .multi =>
          require 0 (HeaderKind.size .multi) headerAlignment
          pure (some (c.field .priority), some (c.field .subscriberCount))
    let event ← ofExcept (Event.ofRaw (c.field .event))
    let payload ← bytes kind.size length
    return .ok
      { event
        requestId := c.field .requestId
        sid := c.field .sid
        ncSid := c.field .ncSid
        priority := numbers.1
        subscriberCount := numbers.2
        payload }

/-- One attempt to read the event. -/
def tryRead (kind : HeaderKind) (readTimeout timeout : Span) :
    SegmentM Failure (Except Fault Snapshot) := do
  (remap none : SegmentM Error Unit)
  withReadLock timeout readTimeout "EventReader::read" (copyEvent kind)

/-- Reads the event of a segment. -/
def readEvent (kind : HeaderKind) (readTimeout timeout : Span) : SegmentM Failure Snapshot := do
  match ← tryRead kind readTimeout timeout with
  | .ok snapshot => return snapshot
  | .error _ =>
      match ← tryRead kind readTimeout timeout with
      | .ok snapshot => return snapshot
      | .error fault => throw (.error (.fault fault))

end Segment

end Subscription
