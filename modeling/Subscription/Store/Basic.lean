import Subscription.Config.Basic
import Subscription.Notification
import Subscription.Registry
import Subscription.Segment.Basic
import Subscription.Store.Group

/-!
# The subscriptions of a context

A context serves subscriptions of four kinds and keeps them in groups:

* to changes of a module in a datastore, with one segment for the group;
* to operational data of a module, with a segment for each subscription;
* to calls of a module, likewise;
* to notifications of a module, with one segment for the group.

Every subscription has a descriptor, under which the registry knows it
(`Store.descriptors`).
-/

namespace Subscription

/-- A subscription to changes. -/
structure ChangeSub where
  xpath : Option String
  priority : UInt32
  options : SubscribeOptions
  callback : CallbackId
  data : Option DataId
  /-- The last request that was taken for it, with its event. -/
  lastRequest : UInt32 := 0
  lastEvent : Event := .none
  deriving DecidableEq, Repr, Inhabited

/-- What the subscribers to changes of a module share. -/
structure ChangeChannel where
  module : String
  datastore : Datastore
  segment : Segment
  deriving DecidableEq, Repr, Inhabited

/-- A kind of subscription that serves requests for an xpath. -/
inductive Service where
  /-- Provides operational data. -/
  | data
  /-- Answers calls. -/
  | rpc
  deriving DecidableEq, Repr, Inhabited

/-- A subscription that serves requests for an xpath. -/
structure ServiceSub where
  xpath : String
  callback : CallbackId
  data : Option DataId
  segment : Segment
  deriving DecidableEq, Repr, Inhabited

/-- What the services of a module share. -/
structure ServiceChannel where
  module : String
  deriving DecidableEq, Repr, Inhabited

/-- What the subscribers to notifications of a module share. -/
structure NotificationChannel where
  module : String
  segment : Segment
  deriving DecidableEq, Repr, Inhabited

/-- The subscriptions of a context. -/
structure Store where
  changes : Groups ChangeChannel ChangeSub
  providers : Groups ServiceChannel ServiceSub
  rpcs : Groups ServiceChannel ServiceSub
  notifications : Groups NotificationChannel NotificationSub
  deriving DecidableEq, Repr, Inhabited

/-- Where a context works: its configuration and the number of its event
pipe. -/
structure Site where
  config : Config
  pipe : UInt32
  deriving DecidableEq, Repr, Inhabited

/-- The topic of a service. -/
def Service.topic (service : Service) (xpath : String) : Topic :=
  match service with
  | .data => .data xpath
  | .rpc => .rpc xpath

/-- The topic of a subscription to changes in a datastore. -/
def ChangeSub.topic (sub : ChangeSub) (datastore : Datastore) : Topic :=
  .changes sub.xpath datastore sub.priority sub.options

namespace Store

/-- No subscription at all. -/
def empty : Store := ⟨.empty, .empty, .empty, .empty⟩

/-- Whether there is no subscription. -/
def isEmpty (s : Store) : Bool :=
  s.changes.isEmpty && s.providers.isEmpty && s.rpcs.isEmpty && s.notifications.isEmpty

/-- The groups of a kind of service. -/
def services (s : Store) : Service → Groups ServiceChannel ServiceSub
  | .data => s.providers
  | .rpc => s.rpcs

/-- Replaces the groups of a kind of service. -/
def setServices (s : Store) (service : Service) (groups : Groups ServiceChannel ServiceSub) :
    Store :=
  match service with
  | .data => { s with providers := groups }
  | .rpc => { s with rpcs := groups }

/-- The descriptors of a group of change subscribers. -/
def changeDescriptors (pipe : UInt32) (g : Group ChangeChannel ChangeSub) : List Descriptor :=
  g.subs.toList.map fun sub => ⟨g.shared.module, sub.topic g.shared.datastore, pipe⟩

/-- The descriptors of a group of services. -/
def serviceDescriptors (pipe : UInt32) (service : Service)
    (g : Group ServiceChannel ServiceSub) : List Descriptor :=
  g.subs.toList.map fun sub => ⟨g.shared.module, service.topic sub.xpath, pipe⟩

/-- The descriptors of a group of notification subscribers. -/
def notificationDescriptors (pipe : UInt32)
    (g : Group NotificationChannel NotificationSub) : List Descriptor :=
  g.subs.toList.map fun _ => ⟨g.shared.module, .notifications, pipe⟩

/-- The descriptors of all subscriptions of a context. -/
def descriptors (s : Store) (pipe : UInt32) : List Descriptor :=
  s.changes.toList.flatMap (changeDescriptors pipe) ++
    s.providers.toList.flatMap (serviceDescriptors pipe .data) ++
    s.rpcs.toList.flatMap (serviceDescriptors pipe .rpc) ++
    s.notifications.toList.flatMap (notificationDescriptors pipe)

end Store

end Subscription
