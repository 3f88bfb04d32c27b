import Subscription.Error.Basic
import Subscription.Name.Basic
import Subscription.Options
import Subscription.SwapSet

/-!
# The shared registry

Publishers find out through the registry who subscribes to a segment and
which pipe to wake.  It holds a descriptor for every subscription, filed
under the key of its segment (`Descriptor.key`).  A key is there as long as
it has descriptors.

* `Registry.publish` adds a descriptor at the end of those of its key;
* `Registry.retract` removes one that is equal to the given one, the last
  of the key taking its place, and tells whether none is left;
* `Registry.pipes` — the pipes to wake, in ascending order, each of them
  once.
-/

namespace Subscription

/-- What is subscribed to. -/
inductive Topic where
  | changes (xpath : Option String) (datastore : Datastore) (priority : UInt32)
      (options : SubscribeOptions)
  | data (xpath : String)
  | rpc (xpath : String)
  | notifications
  deriving DecidableEq, Repr, Inhabited

/-- One subscription as the registry knows it. -/
structure Descriptor where
  module : String
  topic : Topic
  /-- The number of the subscriber's event pipe. -/
  pipe : UInt32
  deriving DecidableEq, Repr, Inhabited

namespace Topic

/-- The traffic on the segment of a topic. -/
def suffix : Topic → Suffix
  | changes _ datastore _ _ => datastore.suffix
  | data _ => .state
  | rpc _ => .rpc
  | notifications => .notif

/-- The hash in the name of the segment of a topic. -/
def hash : Topic → Option UInt32
  | data xpath | rpc xpath => some (hashText xpath)
  | changes .. | notifications => none

/-- The header of the segment of a topic. -/
def header : Topic → HeaderKind
  | changes .. => .multi
  | _ => .single

end Topic

/-- The segment that a subscription listens on. -/
def Descriptor.key (d : Descriptor) : SegmentKey :=
  ⟨d.module, d.topic.suffix, d.topic.hash⟩

/-- Descriptors by the key of their segment. -/
structure Registry where
  table : List (SegmentKey × List Descriptor)
  deriving DecidableEq, Repr, Inhabited

namespace Registry

/-- A registry without descriptors. -/
def empty : Registry := ⟨[]⟩

/-- The descriptors filed under a key. -/
def subscribers (r : Registry) (key : SegmentKey) : List Descriptor :=
  (r.table.lookup key).getD []

/-- The number of descriptors. -/
def size (r : Registry) : Nat := (r.table.flatMap fun row => row.2).length

/-- Whether no key is there. -/
def isEmpty (r : Registry) : Bool := r.table.isEmpty

/-- Changes what is filed under a key that is there. -/
def update (r : Registry) (key : SegmentKey) (subs : List Descriptor) : Registry :=
  ⟨r.table.map fun row => if row.1 = key then (key, subs) else row⟩

/-- Takes a key away. -/
def dropKey (r : Registry) (key : SegmentKey) : Registry :=
  ⟨r.table.filter fun row => row.1 ≠ key⟩

/-- Adds a descriptor. -/
def publish (r : Registry) (d : Descriptor) : Registry :=
  match r.table.lookup d.key with
  | some subs => r.update d.key (subs ++ [d])
  | none => ⟨r.table ++ [(d.key, [d])]⟩

/-- Removes a descriptor and tells whether its key has none left. -/
def retract (r : Registry) (d : Descriptor) : Except Error (Bool × Registry) :=
  match r.table.lookup d.key with
  | none => .error (.missing (.subscriptions d.key.name))
  | some subs =>
      match subs.findIdx? fun other => other = d with
      | none => .error (.missing (.descriptor d.module))
      | some place =>
          let left := SwapSet.withoutPlace subs place
          if left.isEmpty then .ok (true, r.dropKey d.key)
          else .ok (false, r.update d.key left)

/-- Puts a number into an ascending list that has it at most once. -/
def insertNumber (n : UInt32) : List UInt32 → List UInt32
  | [] => [n]
  | m :: rest =>
      if n < m then n :: m :: rest
      else if n = m then m :: rest
      else m :: insertNumber n rest

/-- The pipes of the subscribers under a key, ascending and without
repetition. -/
def pipes (r : Registry) (key : SegmentKey) : List UInt32 :=
  ((r.subscribers key).map Descriptor.pipe).foldr insertNumber []

end Registry

end Subscription
