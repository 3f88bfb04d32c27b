import Subscription.Store.Basic

/-!
# Whom a notification reaches

The recipients of a notification are the subscriptions of its module that want
it, in the order of the store.  Announcing the end of the replay ends it for
all of them, before any of them is called.
-/

namespace Subscription

/-- A callback that a notification is delivered to. -/
structure Recipient where
  callback : CallbackId
  data : Option DataId
  deriving DecidableEq, Repr, Inhabited

namespace Store

/-- The recipient that a subscription stands for. -/
def recipientOf (sub : NotificationSub) : Recipient := ⟨sub.callback, sub.data⟩

/-- The subscription after a notification of a type was sent its way. -/
def noteReplay (type : NotificationType) (tree : Option Node) (time : Int)
    (sub : NotificationSub) : NotificationSub :=
  if type = .replayComplete ∧ sub.wants type tree time then { sub with replayed := true } else sub

/-- The recipients of a notification, and the store afterwards. -/
def recipients (s : Store) (module : String) (type : NotificationType) (tree : Option Node)
    (time : Int) : List Recipient × Store :=
  match s.notifications.position? fun c => c.module = module with
  | none => ([], s)
  | some place =>
      let subs := ((s.notifications.get? place).map fun g => g.subs.toList).getD []
      ((subs.filter fun sub => sub.wants type tree time).map recipientOf,
        { s with
          notifications := s.notifications.modify place fun g =>
            { g with subs := g.subs.map (noteReplay type tree time) } })

end Store

end Subscription
