import Subscription.Data.Value
import Subscription.Filter.Basic
import Subscription.Session

/-!
# Notifications

A notification is delivered to the subscriptions that want it
(`NotificationSub.wants`): its tree has to pass the subscription's filter and
its time has to fall into the subscription's window.  Replayed notifications
only reach a subscription with a start time that has not seen the end of
its replay.

A callback takes the tree as it is, or the path and the values of all
nodes below it (`Payload.ofNode`).
-/

namespace Subscription

/-- Callbacks are told apart by their names. -/
abbrev CallbackId := String

/-- Private data are told apart by their names. -/
abbrev DataId := String

/-- Why a notification is delivered. -/
inductive NotificationType where
  | realtime
  | replay
  | replayComplete
  | stop
  deriving DecidableEq, Repr, Inhabited

/-- A subscription to the notifications of a module.  Times are nanoseconds
since the epoch. -/
structure NotificationSub where
  filter : Option Filter
  start : Option Int
  stop : Option Int
  /-- Whether the end of the replay has been announced. -/
  replayed : Bool
  callback : CallbackId
  data : Option DataId
  deriving DecidableEq, Repr, Inhabited

namespace NotificationSub

/-- The text of the filter. -/
def xpath (s : NotificationSub) : Option String := s.filter.map Filter.xpath

/-- Whether the filter lets a tree pass; it is not asked about a
notification without one. -/
def selects (s : NotificationSub) (tree : Option Node) : Bool :=
  match s.filter, tree with
  | some f, some node => f.selects node
  | _, _ => true

/-- Whether a time is not past the stop time. -/
def beforeStop (s : NotificationSub) (time : Int) : Bool :=
  s.stop.all fun stop => time ≤ stop

/-- Whether a notification of a type falls into the window. -/
def inWindow (s : NotificationSub) (type : NotificationType) (time : Int) : Bool :=
  match type with
  | .realtime => s.beforeStop time
  | .replay => !s.replayed && s.start.any (fun start => start ≤ time) && s.beforeStop time
  | .replayComplete => !s.replayed && s.start.isSome
  | .stop => true

/-- Whether a notification is delivered to the subscription. -/
def wants (s : NotificationSub) (type : NotificationType) (tree : Option Node) (time : Int) :
    Bool :=
  s.selects tree && s.inWindow type time

end NotificationSub

/-- What a notification callback takes. -/
inductive CallShape where
  | values
  | tree
  deriving DecidableEq, Repr, Inhabited

/-- What a notification callback is given. -/
inductive Payload where
  | values (path : Option String) (values : List Value)
  | tree (node : Option Node)
  deriving Repr, Inhabited

namespace Payload

/-- The values of all nodes below a notification. -/
def valuesOf (node : Node) : Except Error (List Value) :=
  node.descendants.mapM fun entry => Value.ofNode entry.2 entry.1

/-- What a callback is given for a notification with an optional tree, which
has to be that of a notification and, for a callback that takes values,
has to convert. -/
def ofNode (shape : CallShape) (tree : Option Node) : Except Error Payload :=
  match tree with
  | some node =>
      if node.kind ≠ .notification then .error (.fault (.notNotification node.path))
      else
        match shape with
        | .tree => .ok (.tree (some node))
        | .values => (valuesOf node).map fun values => .values (some node.path) values
  | none =>
      match shape with
      | .tree => .ok (.tree none)
      | .values => .ok (.values none [])

end Payload

end Subscription
