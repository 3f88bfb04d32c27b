import Subscription.Config.Basic
import Subscription.Listing
import Subscription.Notification
import Subscription.Registry
import Subscription.Store.Poll

/-!
# Answers

What commands answer, and what is known of a callback that was called while
they ran.
-/

namespace Subscription

/-- What a name in a directory stands for. -/
inductive EntryKind where
  | directory
  | fifo (mode : Nat)
  | regular (mode size : Nat)
  deriving DecidableEq, Repr, Inhabited

/-- How many subscriptions a context has to a module: to changes of each
datastore, and of the other kinds. -/
structure ModuleCount where
  module : String
  changes : List Nat
  providers : Nat
  rpcs : Nat
  notifications : Nat
  deriving DecidableEq, Repr, Inhabited

/-- How many groups and subscriptions a context has. -/
structure ContextCount where
  isEmpty : Bool
  groups : List Nat
  registered : Nat
  modules : List ModuleCount
  deriving DecidableEq, Repr, Inhabited

/-- What the registry has under a key. -/
structure KeyState where
  name : String
  subscribers : List Descriptor
  pipes : List UInt32
  deriving DecidableEq, Repr, Inhabited

/-- What a command answers. -/
inductive Answer where
  | nothing
  | truth (b : Bool)
  | truths (bs : List Bool)
  | number (n : Nat)
  | text (s : Option String)
  | bytes (bs : List UInt8)
  /-- The length of the mapping, whether there is one, and whether a file is
  open; for a segment that was opened, whether it was made. -/
  | segment (size : Nat) (isMapped isOpen : Bool) (created : Option Bool)
  | written (requestId : UInt32) (size : Nat)
  /-- An event, and whether it is new, if that was asked. -/
  | snapshot (s : Snapshot) (new : Option Bool)
  | mode (m : LockMode)
  | readers (n : UInt32)
  | count (c : ContextCount)
  | news (events : List ChangeNews)
  | registry (size : Nat) (isEmpty : Bool) (keys : List KeyState)
  | config (c : Config)
  | listing (l : Listing)
  | row (r : Option Row)
  | entries (es : List (String × EntryKind))
  deriving Inhabited

/-- How a command ends without an answer. -/
inductive Halt where
  | failure (f : Failure)
  /-- There is nothing of the given name. -/
  | unknown (name : String)
  deriving DecidableEq, Repr, Inhabited

/-- A notification callback that was called. -/
structure Call where
  callback : CallbackId
  session : Session
  type : NotificationType
  time : Int
  /-- The private data it was given. -/
  data : Option String
  payload : Payload
  /-- What came of the commands that it ran, if it runs any. -/
  reactions : Option (List (Except Halt Answer))
  deriving Inhabited

end Subscription
