import Subscription.Filter.Parser
import Subscription.Store.Basic
import Subscription.Store.Plan
import Subscription.XPath

/-!
# Adding subscriptions

The first subscription of a group opens its segment and is then published;
a service opens a segment of its own every time.  A further subscription of
a group is only published.  The store changes when all that has succeeded,
and a segment that was made is removed again when the publishing fails.

Arguments are checked before anything else (`checkXPath`, `serviceModule`,
`parseFilter`).
-/

namespace Subscription

/-- Fails unless an xpath is valid. -/
def checkXPath (xpath : String) : Except Error Unit :=
  if XPath.isValid xpath then .ok () else .error (.invalid (.badXPath xpath))

/-- Fails unless an optional xpath is valid. -/
def checkOptionalXPath : Option String → Except Error Unit
  | some xpath => checkXPath xpath
  | none => .ok ()

/-- The module that answers calls of an xpath. -/
def rpcModule (xpath : String) : Except Error String := do
  checkXPath xpath
  match XPath.firstModule xpath with
  | some module => .ok module
  | none => .error (.invalid (.noModule xpath))

/-- The filter that an optional text writes. -/
def parseFilter : Option String → Except Error (Option Filter)
  | some text => (Filter.parse text).map some
  | none => .ok none

namespace Store

/-- The end of an operation: how it ended, and the subscriptions. -/
abbrev Ending := Except Failure Unit × Store

/-- An operation that failed and left the subscriptions alone. -/
def failed (s : Store) (e : Error) : Ending := (.error (.error e), s)

/-- Opens the segment of a new subscription and publishes it; a segment that
was made is removed when the publishing fails. -/
def openAndPublish (d : Descriptor) : Plan (Except Error Segment) := do
  match ← Plan.openSegment d.key d.topic.header with
  | .error e => return .error e
  | .ok (segment, created) =>
      match ← Plan.publish d with
      | .ok () => return .ok segment
      | .error e =>
          if created then Plan.removeSegment d.key
          return .error e

/-- Whether a group is that of a module and datastore. -/
def isChanges (module : String) (datastore : Datastore) (c : ChangeChannel) : Bool :=
  c.datastore = datastore && c.module = module

/-- Adds a subscription to changes. -/
def addChange (s : Store) (site : Site) (module : String) (datastore : Datastore)
    (sub : ChangeSub) : Plan Ending := do
  let d : Descriptor := ⟨module, sub.topic datastore, site.pipe⟩
  let line :=
    s!"Subscribed to {datastore.name} changes of \"{module}\" (priority {sub.priority.toNat})."
  match s.changes.position? (isChanges module datastore) with
  | some place =>
      match ← Plan.publish d with
      | .error e => return s.failed e
      | .ok () =>
          Plan.note .debug line
          return (.ok (), { s with changes := s.changes.insert place sub })
  | none =>
      match ← openAndPublish d with
      | .error e => return s.failed e
      | .ok segment =>
          Plan.note .debug line
          return (.ok (),
            { s with changes := s.changes.insertNew ⟨module, datastore, segment⟩ sub })

/-- What the log says about a new service. -/
def serviceLine (service : Service) (module xpath : String) : String :=
  match service with
  | .data => s!"Providing operational data of \"{module}\" for \"{xpath}\"."
  | .rpc => s!"Subscribed to RPC \"{xpath}\"."

/-- Adds a service. -/
def addService (s : Store) (site : Site) (service : Service) (module xpath : String)
    (callback : CallbackId) (data : Option DataId) : Plan Ending := do
  let d : Descriptor := ⟨module, service.topic xpath, site.pipe⟩
  match ← openAndPublish d with
  | .error e => return s.failed e
  | .ok segment =>
      let sub : ServiceSub := ⟨xpath, callback, data, segment⟩
      let groups := s.services service
      Plan.note .debug (serviceLine service module xpath)
      return (.ok (), s.setServices service
        (match groups.position? fun c => c.module = module with
          | some place => groups.insert place sub
          | none => groups.insertNew ⟨module⟩ sub))

/-- Adds a subscription to notifications. -/
def addNotification (s : Store) (site : Site) (module : String) (sub : NotificationSub) :
    Plan Ending := do
  let d : Descriptor := ⟨module, .notifications, site.pipe⟩
  let line := s!"Subscribed to notifications of \"{module}\"."
  match s.notifications.position? fun c => c.module = module with
  | some place =>
      match ← Plan.publish d with
      | .error e => return s.failed e
      | .ok () =>
          Plan.note .debug line
          return (.ok (), { s with notifications := s.notifications.insert place sub })
  | none =>
      match ← openAndPublish d with
      | .error e => return s.failed e
      | .ok segment =>
          Plan.note .debug line
          return (.ok (),
            { s with notifications := s.notifications.insertNew ⟨module, segment⟩ sub })

end Store

end Subscription
