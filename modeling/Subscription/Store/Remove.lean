import Subscription.Store.Add

/-!
# Removing subscriptions

A subscription is found by everything it was made with.  Asking for one that
is not there is a broken promise (`Abort`).  The descriptor is retracted
first; when that fails nothing changes.  When it was the last one of its
segment the segment is removed, so that no stale event outlives its last
subscriber.

Removing all subscriptions takes the groups out one by one, the last one of
each kind first.  It goes on past failures: every descriptor is retracted
once, the first failure is reported at the end, and the store is empty
either way (`Store.removeAll`).  A group is out of the store before its
descriptors are retracted.
-/

namespace Subscription

namespace Store

/-- Retracts a descriptor and goes on without its subscription. -/
def retractOne (s : Store) (d : Descriptor) (without : Store) : Plan Ending := do
  match ← Plan.retract d with
  | .error e => return s.failed e
  | .ok last =>
      if last then Plan.removeSegment d.key
      return (.ok (), without)

/-- An operation on a subscription that is not there. -/
def aborted (s : Store) (a : Abort) : Plan Ending :=
  return (.error (.abort a), s)

/-- Whether two change subscriptions were made alike. -/
def sameChange (a b : ChangeSub) : Bool :=
  a.xpath = b.xpath && a.priority = b.priority && a.options = b.options &&
    a.callback = b.callback && a.data = b.data

/-- Removes the subscription to changes that was made like the given one. -/
def removeChange (s : Store) (site : Site) (module : String) (datastore : Datastore)
    (sub : ChangeSub) : Plan Ending :=
  match s.changes.locate? (isChanges module datastore) fun other => sameChange other sub with
  | none => s.aborted (.noChange datastore.name module)
  | some (place, entry) =>
      s.retractOne ⟨module, sub.topic datastore, site.pipe⟩
        { s with changes := s.changes.erase place entry }

/-- The broken promise of removing a service that is not there. -/
def noService (service : Service) (module xpath : String) : Abort :=
  match service with
  | .data => .noProvider module xpath
  | .rpc => .noRpc xpath

/-- Removes the service that was made with the given arguments. -/
def removeService (s : Store) (site : Site) (service : Service) (module xpath : String)
    (callback : CallbackId) (data : Option DataId) : Plan Ending :=
  let groups := s.services service
  match groups.locate? (fun c => c.module = module) fun sub =>
      sub.xpath = xpath && sub.callback = callback && sub.data = data with
  | none => s.aborted (noService service module xpath)
  | some (place, entry) =>
      s.retractOne ⟨module, service.topic xpath, site.pipe⟩
        (s.setServices service (groups.erase place entry))

/-- What a subscription to notifications is found by. -/
structure NotificationQuery where
  xpath : Option String
  start : Option Int
  stop : Option Int
  callback : CallbackId
  data : Option DataId
  deriving DecidableEq, Repr, Inhabited

/-- Whether a subscription was made with the given arguments. -/
def NotificationQuery.isOf (q : NotificationQuery) (sub : NotificationSub) : Bool :=
  sub.xpath = q.xpath && sub.start = q.start && sub.stop = q.stop &&
    sub.callback = q.callback && sub.data = q.data

/-- Removes the subscription to notifications that was made with the given
arguments. -/
def removeNotification (s : Store) (site : Site) (module : String) (q : NotificationQuery) :
    Plan Ending :=
  match s.notifications.locate? (fun c => c.module = module) q.isOf with
  | none => s.aborted (.noNotification module)
  | some (place, entry) =>
      s.retractOne ⟨module, .notifications, site.pipe⟩
        { s with notifications := s.notifications.erase place entry }

/-- The groups of a store in the order in which they are taken out: what is
left then, and the descriptors to retract, in batches.  The segment of a
batch is removed after it, if one of its descriptors was the last one. -/
def removals (s : Store) (pipe : UInt32) : List (Store × List (List Descriptor)) :=
  let withoutChanges := { s with changes := .empty }
  let withoutProviders := { withoutChanges with providers := .empty }
  let withoutRpcs := { withoutProviders with rpcs := .empty }
  s.changes.drain.map (fun (g, left) =>
      ({ s with changes := left }, [changeDescriptors pipe g])) ++
    s.providers.drain.map (fun (g, left) =>
      ({ withoutChanges with providers := left },
        (serviceDescriptors pipe .data g).map fun d => [d])) ++
    s.rpcs.drain.map (fun (g, left) =>
      ({ withoutProviders with rpcs := left },
        (serviceDescriptors pipe .rpc g).map fun d => [d])) ++
    s.notifications.drain.map (fun (g, left) =>
      ({ withoutRpcs with notifications := left }, [notificationDescriptors pipe g]))

/-- Retracts the descriptors of a batch; tells whether one of them was the
last one, and the first failure, if there has been one. -/
def retractBatch : List Descriptor → Bool × Option Error → Plan (Bool × Option Error)
  | [], result => return result
  | d :: rest, (last, failure) => do
      match ← Plan.retract d with
      | .ok answer => retractBatch rest (last || answer, failure)
      | .error e =>
          Plan.note .error
            s!"Failed to remove subscription of \"{d.module}\" from the registry ({e.message})."
          retractBatch rest (last, failure.or (some e))

/-- Retracts all batches; gives the first failure, if there has been one. -/
def retractBatches : List (List Descriptor) → Option Error → Plan (Option Error)
  | [], failure => return failure
  | batch :: rest, failure => do
      let (last, failure) ← retractBatch batch (false, failure)
      match batch with
      | d :: _ => if last then Plan.removeSegment d.key
      | [] => pure ()
      retractBatches rest failure

/-- Takes out groups and retracts their descriptors; gives the first failure,
if there has been one. -/
def retractGroups : List (Store × List (List Descriptor)) → Option Error → Plan (Option Error)
  | [], failure => return failure
  | (left, batches) :: rest, failure => do
      Plan.settle left
      retractGroups rest (← retractBatches batches failure)

/-- What the log says when the subscriptions of a context that is given up
could not all be removed. -/
def abandonLine (pipe : UInt32) (e : Error) : String :=
  s!"Failed to remove subscriptions of event pipe {pipe.toNat} ({e.message})."

/-- Removes every subscription. -/
def removeAll (s : Store) (site : Site) : Plan Ending := do
  match ← retractGroups (s.removals site.pipe) none with
  | none => return (.ok (), empty)
  | some e => return empty.failed e

end Store

end Subscription
