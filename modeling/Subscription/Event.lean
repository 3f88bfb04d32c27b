import Subscription.Error.Basic

/-!
# Events

A subscription segment stores one event at a time.  `Event.ofRaw` reads the
number a header stores and `Event.raw` writes it; the two undo each other
(`Event.ofRaw_raw`).  A subscriber that remembers the last request and event
it saw asks of a copy of the segment whether it is news to it
(`Snapshot.isNew`).
-/

namespace Subscription

/-- The event stored in a segment. -/
inductive Event where
  | none
  | update
  | change
  | done
  | abort
  | dataProvide
  | rpc
  | notif
  deriving DecidableEq, Repr, Inhabited

/-- The events that change subscribers are called for. -/
inductive ChangeEvent where
  | update
  | change
  | done
  | abort
  deriving DecidableEq, Repr, Inhabited

namespace Event

/-- Every event, in the order of their numbers. -/
def all : List Event := [none, update, change, done, abort, dataProvide, rpc, notif]

/-- The number that stands for an event in a header. -/
def raw : Event → UInt32
  | none => 0
  | update => 1
  | change => 2
  | done => 3
  | abort => 4
  | dataProvide => 5
  | rpc => 6
  | notif => 7

/-- The event with the given number. -/
def ofRaw (n : UInt32) : Except Error Event :=
  match n.toNat with
  | 0 => .ok none
  | 1 => .ok update
  | 2 => .ok change
  | 3 => .ok done
  | 4 => .ok abort
  | 5 => .ok dataProvide
  | 6 => .ok rpc
  | 7 => .ok notif
  | other => .error (.fault (.unknownEvent other))

/-- The name of an event. -/
def name : Event → String
  | none => "none"
  | update => "update"
  | change => "change"
  | done => "done"
  | abort => "abort"
  | dataProvide => "data-provide"
  | rpc => "rpc"
  | notif => "notif"

/-- The change event that subscribers are called with, if any. -/
def change? : Event → Option ChangeEvent
  | update => some .update
  | change => some .change
  | done => some .done
  | abort => some .abort
  | _ => Option.none

/-- The number of an event stands for that event. -/
theorem ofRaw_raw (e : Event) : ofRaw e.raw = .ok e := by
  cases e <;> rfl

end Event

/-- The name of a change event. -/
def ChangeEvent.name : ChangeEvent → String
  | update => "update"
  | change => "change"
  | done => "done"
  | abort => "abort"

/-- What a publisher stores next to the payload. -/
structure EventRecord where
  event : Event
  sid : UInt32
  ncSid : UInt32 := 0
  /-- Kept by configuration segments only. -/
  priority : UInt32 := 0
  deriving DecidableEq, Repr, Inhabited

/-- A copy of a segment, taken under its read lock.  Only a configuration
segment has a priority and a count of subscribers. -/
structure Snapshot where
  event : Event
  requestId : UInt32
  sid : UInt32
  ncSid : UInt32
  priority : Option UInt32
  subscriberCount : Option UInt32
  payload : List UInt8
  deriving DecidableEq, Repr, Inhabited

/-- Whether the stored event is still to be processed by a subscriber that
last saw the given request and event. -/
def Snapshot.isNew (s : Snapshot) (lastRequest : UInt32) (lastEvent : Event) : Bool :=
  s.event ≠ .none && (s.requestId ≠ lastRequest || s.event ≠ lastEvent)

end Subscription
