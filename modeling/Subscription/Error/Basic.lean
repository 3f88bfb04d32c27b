import Subscription.Error.Errno

/-!
# What can go wrong

Errors are causes.  Each constructor names one way in which an operation
can fail and carries what a message about it needs; the wording stands in
one place, `Error.message`.  Callers who only ask how to react look at
`Error.kind`: retry later, report, or give up.

A cause that comes with a text of its own — from a registry, say — is kept
as that text (`other`).
-/

namespace Subscription

/-- How to react to an error. -/
inductive ErrorKind where
  | resource
  | lockTimeout
  | notFound
  | internal
  | validation
  | config
  deriving DecidableEq, Repr, Inhabited

/-- Why a system call failed. -/
inductive SystemCause where
  /-- The operating system refused. -/
  | errno (e : Errno)
  /-- The file name could not be handed to the operating system. -/
  | nulInName
  deriving DecidableEq, Repr, Inhabited

/-- What was looked for and not found. -/
inductive Missing where
  /-- No subscription is registered on the segment. -/
  | subscriptions (segment : String)
  /-- Others are registered on the segment, but not this one. -/
  | descriptor (module : String)
  /-- The file to lock does not exist. -/
  | segmentFile
  | other (text : String)
  deriving DecidableEq, Repr, Inhabited

/-- What contradicts the layout or the use of a segment. -/
inductive Fault where
  | notMapped
  | offsetOverflow (offset : Nat)
  | outOfBounds (start stop size : Nat)
  | misaligned (offset alignment : Nat)
  | unknownEvent (raw : Nat)
  | payloadPastEnd (length size : Nat)
  | modifiedUnderReadLock (holder : String)
  | notNotification (path : String)
  | other (text : String)
  deriving DecidableEq, Repr, Inhabited

/-- What is wrong with an argument. -/
inductive Invalid where
  | nulInPath (path : String)
  | badXPath (text : String)
  | noModule (xpath : String)
  | badFilter (text : String)
  | noValue (xpath : String)
  | number (text type : String)
  | boolean (text : String)
  | payloadTooLarge (length : Nat)
  | other (text : String)
  deriving DecidableEq, Repr, Inhabited

/-- Why a configuration could not be loaded. -/
inductive ConfigFault where
  | badSyntax
  | unreadable
  | notLoaded
  | notOpened
  | directoryNotMade
  | noDirectory (path : String)
  deriving DecidableEq, Repr, Inhabited

/-- Why an operation failed. -/
inductive Error where
  | outOfMemory (text : String)
  | system (call : String) (cause : SystemCause)
  /-- The deadline passed; whoever holds the lock may have died. -/
  | lockTimeout (lock holder : String)
  | lockFailed (lock holder : String) (errno : Errno)
  | missing (what : Missing)
  | fault (what : Fault)
  | invalid (what : Invalid)
  | config (what : ConfigFault)
  deriving DecidableEq, Repr, Inhabited

/-- The wording of a system call's failure. -/
def SystemCause.message : SystemCause → String
  | errno e => e.message
  | nulInName => "file name contained an unexpected NUL byte"

/-- What was not found, in words. -/
def Missing.message : Missing → String
  | subscriptions segment => s!"No subscriptions on \"{segment}\"."
  | descriptor module => s!"Subscription of \"{module}\" is not registered."
  | segmentFile => "segment"
  | other text => text

/-- The contradiction, in words. -/
def Fault.message : Fault → String
  | notMapped => "Shared memory is not mapped."
  | offsetOverflow offset => s!"Offset {offset} overflows."
  | outOfBounds start stop size => s!"Access {start}..{stop} is out of the {size} mapped bytes."
  | misaligned offset alignment => s!"Offset {offset} is not aligned to {alignment}."
  | unknownEvent raw => s!"Unknown event {raw} in segment header."
  | payloadPastEnd length size =>
      s!"Event payload of {length} bytes exceeds the {size} mapped bytes."
  | modifiedUnderReadLock holder => s!"Segment modified under a read lock in {holder}."
  | notNotification path => s!"Node \"{path}\" is not a notification."
  | other text => text

/-- What is wrong with the argument, in words. -/
def Invalid.message : Invalid → String
  | nulInPath path => s!"Path \"{path}\" contains a NUL byte."
  | badXPath text => s!"Invalid xpath \"{text}\"."
  | noModule xpath => s!"Xpath \"{xpath}\" does not start with a module prefix."
  | badFilter text => s!"Unsupported notification filter \"{text}\"."
  | noValue xpath => s!"Leaf \"{xpath}\" has no value."
  | number text type => s!"Value \"{text}\" is not a valid {type} number."
  | boolean text => s!"Value \"{text}\" is not a valid boolean."
  | payloadTooLarge length => s!"Event payload of {length} bytes is too large."
  | other text => text

/-- Why the configuration could not be loaded, in words. -/
def ConfigFault.message : ConfigFault → String
  | badSyntax => "Bad TOML data"
  | unreadable => "Failed to read configuration file"
  | notLoaded => "Failed to load configuration file"
  | notOpened => "Failed to open configuration file"
  | directoryNotMade => "Failed to create directory"
  | noDirectory path => s!"Bad configuration directory: \"{path}\" is a root or prefix"

namespace Error

/-- How to react to the error. -/
def kind : Error → ErrorKind
  | outOfMemory _ | system _ _ | lockFailed _ _ _ => .resource
  | lockTimeout _ _ => .lockTimeout
  | missing _ => .notFound
  | fault _ => .internal
  | invalid _ => .validation
  | config _ => .config

/-- The error in words. -/
def message : Error → String
  | outOfMemory text => s!"Out of memory: {text}"
  | system call cause => s!"System call {call} failed: {cause.message}"
  | lockTimeout lock holder =>
      s!"{lock} lock timeout expired in {holder} (state may be held by a dead process)"
  | lockFailed lock holder errno => s!"{lock} lock failed in {holder}: {errno.message}"
  | missing what => s!"Not found: {what.message}"
  | fault what => s!"Internal error: {what.message}"
  | invalid what => s!"Validation failed: {what.message}"
  | config what => what.message

/-- The cause behind the error, where the operating system gave one. -/
def source? : Error → Option String
  | system _ cause => some cause.message
  | lockFailed _ _ errno => some errno.message
  | _ => none

end Error

/-- A broken promise of the caller: the operation stops without an answer. -/
inductive Abort where
  | noChange (datastore module : String)
  | noProvider (module xpath : String)
  | noRpc (xpath : String)
  | noNotification (module : String)
  /-- A write lock is given back while readers are counted. -/
  | releasedWithReaders (readers : Nat) (holder : String)
  /-- A read lock is taken and the count of readers can go no higher. -/
  | tooManyReaders (holder : String)
  deriving DecidableEq, Repr, Inhabited

/-- The broken promise, in words. -/
def Abort.message : Abort → String
  | noChange datastore module =>
      s!"No {datastore} change subscription of \"{module}\" in this context."
  | noProvider module xpath =>
      s!"No data-provide subscription of \"{module}\" for \"{xpath}\" in this context."
  | noRpc xpath => s!"No RPC subscription for \"{xpath}\" in this context."
  | noNotification module => s!"No notification subscription of \"{module}\" in this context."
  | releasedWithReaders readers holder =>
      s!"write lock released with {readers} readers in {holder}"
  | tooManyReaders holder => s!"reader count overflows in {holder}"

/-- How an operation ends without a result. -/
inductive Failure where
  | error (e : Error)
  | abort (a : Abort)
  deriving DecidableEq, Repr, Inhabited

end Subscription
