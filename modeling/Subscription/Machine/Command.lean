import Subscription.Name.Basic
import Subscription.Event
import Subscription.Lock.Basic
import Subscription.Registry
import Subscription.Session
import Subscription.Store.Basic
import Subscription.Time

/-!
# Commands

What a machine can be told to do.  Contexts, handles, guards, locks, pipes,
callbacks and private data are told apart by names.
-/

namespace Subscription

/-- Where a command finds a lock. -/
inductive LockRef where
  /-- A lock outside segments. -/
  | named (lock : String)
  /-- The lock at an offset of a segment. -/
  | inSegment (segment : String) (offset : Nat)
  deriving DecidableEq, Repr, Inhabited

/-- How a lock is asked for; the read timeout is that of the configuration
where none is given. -/
structure LockRequest where
  mode : LockMode
  timeout : Span
  readTimeout : Option Span
  holder : String
  deriving Inhabited

/-- Commands about segments. -/
inductive SegmentCommand where
  | create (segment : String)
  | openOrCreate (segment path : String) (minimum mode : Nat)
  | openSubscription (segment path : String) (kind : HeaderKind) (mode : Nat)
  | openExisting (segment path : String)
  | drop (segment : String)
  | remove (path : String)
  | state (segment : String)
  | clear (segment : String)
  | remap (segment : String) (length : Option Nat)
  | readBytes (segment : String) (offset count : Nat)
  | writeBytes (segment : String) (offset : Nat) (bytes : List UInt8)
  | readNumber (segment : String) (offset count : Nat)
  | writeNumber (segment : String) (offset count value : Nat)
  | writeEvent (segment : String) (kind : HeaderKind) (record : EventRecord)
      (payload : List UInt8) (timeout : Span)
  | clearEvent (segment : String) (timeout : Span)
  | readEvent (segment : String) (kind : HeaderKind) (timeout : Span)
      (last : Option (UInt32 × Event))
  deriving Inhabited

/-- Commands about locks. -/
inductive LockCommand where
  | takeGuard (guard segment : String) (offset : Nat) (request : LockRequest)
  | dropGuard (guard : String)
  | readGuarded (guard : String) (offset : Nat)
  | writeGuarded (guard : String) (offset value : Nat)
  | remapGuarded (guard : String) (length : Nat)
  | create (lock : String)
  | destroy (lock : String)
  | init (segment : String) (offset : Nat)
  | lock (lock : LockRef) (request : LockRequest)
  | unlock (lock : LockRef) (request : LockRequest)
  | readers (lock : LockRef)
  | unlockLater (lock : String) (delay : Span) (request : LockRequest)
  | join
  | dieHolding (lock : String) (request : LockRequest)
  | dieHoldingFile (path : String) (offset : Nat) (request : LockRequest)
  deriving Inhabited

/-- Commands about pipes, the configuration, the listing and plain files. -/
inductive FileCommand where
  | createPipe (pipe : String) (number : UInt32)
  | waitPipe (pipe : String) (timeout : Span)
  | dropPipe (pipe : String)
  | removePipe (pipe : String)
  | notify (number : UInt32) (times : Nat)
  | loadConfig (path : String)
  | list
  | row (name : String) (kind : HeaderKind)
  | entries (directory : String)
  | write (path : String) (bytes : List UInt8)
  | read (path : String)
  | makeDirectory (path : String)
  | remove (path : String)
  | truncate (path : String) (length : Nat)
  deriving Inhabited

/-- Who subscribes: the callback and the private data for it, by name. -/
structure Subscriber where
  callback : String
  data : Option String
  deriving DecidableEq, Repr, Inhabited

/-- A notification to deliver. -/
structure Notice where
  type : NotificationType
  tree : Option Node
  time : Int
  sid : SessionId
  deriving Inhabited

/-- Commands about contexts, the registry and callbacks. -/
inductive ContextCommand where
  | create (context : String) (pipe : UInt32) (registry : String)
  | drop (context : String)
  | count (context registry : String) (modules : List String)
  | addChange (context module : String) (xpath : Option String) (datastore : Datastore)
      (subscriber : Subscriber) (priority : UInt32) (options : SubscribeOptions)
  | removeChange (context module : String) (xpath : Option String) (datastore : Datastore)
      (subscriber : Subscriber) (priority : UInt32) (options : SubscribeOptions)
  | addData (context module xpath : String) (subscriber : Subscriber)
  | removeData (context module xpath : String) (subscriber : Subscriber)
  | addRpc (context xpath : String) (subscriber : Subscriber)
  | removeRpc (context xpath : String) (subscriber : Subscriber)
  | addNotification (context module : String) (xpath : Option String) (start stop : Option Int)
      (subscriber : Subscriber)
  | removeNotification (context module : String) (xpath : Option String)
      (start stop : Option Int) (subscriber : Subscriber)
  | removeAll (context : String)
  | poll (context : String) (timeout : Span)
  | deliver (context module : String) (notice : Notice)
  | call (subscriber : Subscriber) (notice : Notice)
  | sameCallback (a b : String)
  | sharedCallbacks
  | publish (registry : String) (d : Descriptor)
  | retract (registry : String) (d : Descriptor)
  | registryState (registry : String) (keys : List Descriptor)
  deriving Inhabited

/-- A command. -/
inductive Command where
  | segment (c : SegmentCommand)
  | lock (c : LockCommand)
  | file (c : FileCommand)
  | context (c : ContextCommand)
  deriving Inhabited

end Subscription
