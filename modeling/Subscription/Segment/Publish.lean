import Subscription.Event
import Subscription.Segment.Guard

/-!
# Publishing events

A publisher replaces the event of a segment under the write lock: the
payload goes behind the header, the segment growing when it does not fit,
and the request id goes up by one.  Clearing marks the stored event as
consumed and keeps the rest of the header.
-/

namespace Subscription

namespace Segment

/-- Stores an event that fits, under the write lock, and gives its request
id. -/
def storeEvent (kind : HeaderKind) (record : EventRecord) (payload : List UInt8) :
    SegmentM Error UInt32 := do
  setBytes kind.size payload
  require 0 (HeaderKind.size .single) headerAlignment
  let requestId := (← content).field .requestId + 1
  change fun c =>
    ((((c.setField .requestId requestId).setField .event record.event.raw).setField
      .sid record.sid).setField .ncSid record.ncSid).setField
        .payloadLength (UInt32.ofNat payload.length)
  match kind with
  | .single => pure ()
  | .multi =>
      require 0 (HeaderKind.size .multi) headerAlignment
      change fun c => c.setField .priority record.priority
  return requestId

/-- Makes room for a payload, under the write lock. -/
def makeRoom (kind : HeaderKind) (payload : List UInt8) : SegmentM Error Unit := do
  let needed := kind.size + payload.length
  remap none
  if (← get).segment.size < needed then remap (some needed)

/-- Replaces the event of a segment and gives its request id. -/
def writeEvent (kind : HeaderKind) (readTimeout : Span) (record : EventRecord)
    (payload : List UInt8) (timeout : Span) : SegmentM Failure UInt32 := do
  if UInt32.size ≤ payload.length then
    throw (.error (.invalid (.payloadTooLarge payload.length)))
  else
    (remap none : SegmentM Error Unit)
    withWriteLock timeout readTimeout "EventWriter::write" do
      makeRoom kind payload
      storeEvent kind record payload

/-- Marks the event of a segment as consumed. -/
def clearEvent (readTimeout timeout : Span) : SegmentM Failure Unit := do
  (remap none : SegmentM Error Unit)
  withWriteLock timeout readTimeout "EventWriter::clear_event" do
    require 0 (HeaderKind.size .single) headerAlignment
    change fun c => (c.setField .event Event.none.raw).setField .payloadLength 0

end Segment

end Subscription
