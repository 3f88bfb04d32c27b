import Subscription.Pipe
import Subscription.Segment.Guard
import Subscription.Machine.Answer
import Subscription.Machine.Command

/-!
# The machine

A machine is a host together with what the party that gives the commands
holds: contexts, handles, guards, locks and pipes, each by name.  Nothing
happens when a name is taken away that stands for nothing.  A handle under a
guard is only reachable through the guard.  A context may be under way when
its name is taken away or given to another one, so that a name stands for the
identity of a context, and the contexts themselves are never thrown away.
Registries answer by their tables, unless other answers were laid down for
them (`ScriptedRegistry`).  Callbacks are known by name, those that are copies
of another by the name of that one.
-/

namespace Subscription

/-- Values by name, in the order in which the names came up. -/
abbrev Names (α : Type) := List (String × α)

namespace Names

variable {α : Type}

/-- Gives a name a value. -/
def put (names : Names α) (name : String) (value : α) : Names α :=
  if names.any fun entry => entry.1 = name then
    names.map fun entry => if entry.1 = name then (name, value) else entry
  else names ++ [(name, value)]

/-- Takes a name away. -/
def drop (names : Names α) (name : String) : Names α :=
  names.filter fun entry => entry.1 ≠ name

end Names

/-- How a registry answers one request. -/
inductive Reply where
  /-- By its table. -/
  | table
  /-- With a failure. -/
  | fail (e : Error)
  /-- With an answer that was laid down. -/
  | answer (b : Bool)
  /-- By its table, once a command was run that did not fail; one that names
  what is not there does nothing. -/
  | after (c : Command)
  deriving Inhabited

/-- A registry with the answers that were laid down for it. -/
structure ScriptedRegistry where
  table : Registry
  publishing : List Reply
  retracting : List Reply
  deriving Inhabited

/-- A callback: what it takes, if it is one for notifications, and the
commands it runs, if it runs any. -/
structure Callback where
  id : CallbackId
  shape : Option CallShape
  commands : Option (List Command)
  deriving Inhabited

/-- Whether two handles are on the same callback: one is a copy of the other.
Callbacks that take and do the same are still told apart. -/
def Callback.same (a b : Callback) : Bool := a.id = b.id

/-- How a callback compares with two others: a second handle on it, and a
callback of another identity which is like it otherwise.  Whether it is the
same as the handle, the same as the other, the same as itself, and like the
other. -/
def Callback.comparisons (c : Callback) (otherId : CallbackId) : List Bool :=
  let handle := c
  let other := { c with id := otherId }
  [c.same handle, c.same other, c.same c, c.shape = other.shape]

/-- What identifies a context. -/
abbrev ContextId := Nat

/-- A context that serves subscriptions. -/
structure Context where
  pipe : UInt32
  registry : String
  store : Store
  /-- Whether an operation on the subscriptions is under way. -/
  busy : Bool
  /-- How many hold the context: its name, while it has one, and the operations
  under way on it. -/
  holders : Nat
  deriving Inhabited

/-- A handle with the lock that is held through it. -/
structure Guarded where
  /-- The name of the handle. -/
  name : String
  segment : Segment
  guard : Guard
  deriving Inhabited

/-- A host with what is held on it. -/
structure Machine where
  host : Host
  config : Config
  /-- All contexts that have been made, in the order of their identities. -/
  contexts : List Context
  contextNames : Names ContextId
  registries : Names ScriptedRegistry
  callbacks : Names Callback
  privateData : Names String
  segments : Names Segment
  guards : Names Guarded
  locks : Names LockPlace
  pipes : Names Pipe
  /-- The callbacks that were called. -/
  calls : List Call
  deriving Inhabited

/-- A registry that answers by its table, which is empty. -/
def ScriptedRegistry.fresh : ScriptedRegistry := ⟨.empty, [], []⟩

/-- A machine on which nothing has happened yet, with empty directories of the
given names. -/
def Machine.fresh (config : Config) (directories : List String) : Machine :=
  { host := .withDirectories directories
    config
    contexts := []
    contextNames := []
    registries := []
    callbacks := []
    privateData := []
    segments := []
    guards := []
    locks := []
    pipes := []
    calls := [] }

/-- An action on the machine that may halt. -/
abbrev MachineM : Type → Type := EStateM Halt Machine

instance {σ : Type} : MonadLift (EStateM Failure σ) (EStateM Halt σ) :=
  ⟨mapFailure .failure⟩

namespace Machine

variable {α β ε : Type}

/-- An action on the host. -/
def onHost (act : HostM ε α) : EStateM ε Machine α :=
  onPart (·.host) (fun host s => { s with host }) act

/-- An action on the host that may fail. -/
def runHost (act : HostM Failure α) : MachineM α := onHost act

/-- What a name stands for. -/
def find (part : Machine → Names β) (name : String) : MachineM β := do
  match (part (← get)).lookup name with
  | some value => return value
  | none => throw (.unknown name)

/-- Uses a handle, which is kept whatever comes of it. -/
def useSegment (s : Segment) (keep : Segment → Machine → Machine) (act : SegmentM Failure α) :
    MachineM α := fun machine =>
  match act ⟨s, machine.host⟩ with
  | .ok a t => .ok a (keep t.segment { machine with host := t.host })
  | .error e t => .error (.failure e) (keep t.segment { machine with host := t.host })

/-- Uses the handle of a name. -/
def withSegment (name : String) (act : SegmentM Failure α) : MachineM α := do
  let s ← find (·.segments) name
  useSegment s (fun s machine => { machine with segments := machine.segments.put name s }) act

end Machine

end Subscription
