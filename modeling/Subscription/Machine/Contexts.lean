import Subscription.Store.Handler
import Subscription.Store.Order
import Subscription.Machine.Registries

/-!
# Contexts at work

An operation on the subscriptions of a context keeps them locked until it
ends; whoever asks for them meanwhile waits for the loop timeout and gives
up (`Machine.whileLocked`).  An operation that halts leaves what it has
settled.

Whoever works with a context holds it, and so does its name.  When nobody
holds it any more it is given up, and its subscriptions are removed
(`Machine.releaseContext`).

What runs inside an operation — a command that a registry has to wait for —
is given as `nested`.
-/

namespace Subscription

namespace Machine

variable {α : Type}

/-- Says that an action failed. -/
def fail (e : Error) : MachineM α := throw (.failure (.error e))

/-- The result of a check, or its failure. -/
def checked (result : Except Error α) : MachineM α :=
  match result with
  | .ok a => pure a
  | .error e => fail e

/-- The context with an identity. -/
def contextAt (id : ContextId) : MachineM Context := do
  return (← get).contexts.getD id default

/-- Changes a context. -/
def updateContext (id : ContextId) (change : Context → Context) : MachineM Unit :=
  modify fun machine => { machine with contexts := machine.contexts.modify id change }

/-- Replaces the subscriptions of a context. -/
def settle (id : ContextId) (store : Store) : MachineM Unit :=
  updateContext id fun c => { c with store }

/-- Runs an action with the subscriptions of a context locked. -/
def whileLocked (id : ContextId) (operation : String) (act : Context → MachineM α) :
    MachineM α := do
  let c ← contextAt id
  if c.busy then
    let span := (← get).config.loopSpan
    runHost (Host.sleep span)
    fail (.lockTimeout "subscriptions" operation)
  else
    updateContext id fun c => { c with busy := true }
    let result ← attempt (act c)
    updateContext id fun c => { c with busy := false }
    ofExcept result

/-- An action on the host that cannot fail. -/
def safely (act : HostM Empty α) : MachineM α := fun machine =>
  match act machine.host with
  | .ok a host => .ok a { machine with host }

/-- The host, a registry and the subscriptions of a context as plans reach
them. -/
def handler (nested : Command → MachineM Answer) (id : ContextId) (registry : String) :
    Handler MachineM where
  host := safely
  publish := publish nested registry
  retract := retract nested registry
  settle := settle id

/-- Runs a plan for a context. -/
def runPlan (nested : Command → MachineM Answer) (id : ContextId)
    (plan : Site → Store → Plan Store.Ending) : MachineM (Except Failure Unit) := do
  let c ← contextAt id
  let site : Site := ⟨(← get).config, c.pipe⟩
  let (result, store) ←
    (plan site c.store).run ((handler nested id c.registry).answer site.config)
  settle id store
  return result

/-- Gives up a context: its subscriptions are removed, and a failure to do so
only goes to the log. -/
def abandon (nested : Command → MachineM Answer) (id : ContextId) : MachineM Unit := do
  let c ← contextAt id
  if c.store.isEmpty then pure ()
  else
    match ← runPlan nested id fun site store => store.removeAll site with
    | .error (.error e) => runHost (Host.say .error (Store.abandonLine c.pipe e))
    | _ => pure ()

/-- Lets a holder of a context go; the context is given up with the last
one. -/
def releaseContext (nested : Command → MachineM Answer) (id : ContextId) : MachineM Unit := do
  updateContext id fun c => { c with holders := c.holders - 1 }
  if (← contextAt id).holders = 0 then abandon nested id

/-- Runs an action on the context of a name, which is held meanwhile. -/
def withContext (nested : Command → MachineM Answer) (name : String)
    (act : ContextId → MachineM α) : MachineM α := do
  let id ← find (·.contextNames) name
  updateContext id fun c => { c with holders := c.holders + 1 }
  let result ← attempt (act id)
  releaseContext nested id
  ofExcept result

/-- An operation on the subscriptions of a context. -/
def operate (nested : Command → MachineM Answer) (name operation : String)
    (plan : Site → Store → Plan Store.Ending) : MachineM Answer :=
  withContext nested name fun id => do
    match ← whileLocked id operation fun _ => runPlan nested id plan with
    | .ok () => return .nothing
    | .error f => throw (.failure f)

/-- Carries out an order on the subscriptions of a context. -/
def carryOut (nested : Command → MachineM Answer) (name : String) (order : Order) :
    MachineM Answer :=
  match order.plan with
  | .error f => throw (.failure f)
  | .ok work => operate nested name order.operation work

/-- Makes a context; one of the same name loses it. -/
def createContext (nested : Command → MachineM Answer) (name : String) (pipe : UInt32)
    (registry : String) : MachineM Answer := do
  let _ ← find (·.registries) registry
  let before := (← get).contextNames.lookup name
  modify fun machine =>
    { machine with
      contexts := machine.contexts ++ [⟨pipe, registry, .empty, false, 1⟩]
      contextNames := machine.contextNames.put name machine.contexts.length }
  match before with
  | some old => releaseContext nested old
  | none => pure ()
  return .number pipe.toNat

/-- Takes the name of a context away, if there is such a context. -/
def dropContext (nested : Command → MachineM Answer) (name : String) : MachineM Answer := do
  match (← get).contextNames.lookup name with
  | none => return .nothing
  | some id =>
      modify fun machine => { machine with contextNames := machine.contextNames.drop name }
      releaseContext nested id
      return .nothing

/-- How many subscriptions there are to a module. -/
def countModule (s : Store) (module : String) : ModuleCount :=
  { module
    changes := Datastore.all.map fun ds => s.changes.countIn (Store.isChanges module ds)
    providers := s.providers.countIn fun c => c.module = module
    rpcs := s.rpcs.countIn fun c => c.module = module
    notifications := s.notifications.countIn fun c => c.module = module }

/-- Counts the subscriptions of a context. -/
def countContext (name registry : String) (modules : List String) : MachineM Answer := do
  let c ← contextAt (← find (·.contextNames) name)
  let r ← find (·.registries) registry
  let s := c.store
  return .count
    { isEmpty := s.isEmpty
      groups := [s.changes.size, s.providers.size, s.rpcs.size, s.notifications.size]
      registered := r.table.size
      modules := modules.map (countModule s) }

/-- Polls the change groups of a context. -/
def pollContext (nested : Command → MachineM Answer) (name : String) (timeout : Span) :
    MachineM Answer :=
  withContext nested name fun id => do
    let result ← whileLocked id "conf_new_events" fun c => do
      let machine ← get
      let (result, store, host) := c.store.poll machine.config timeout machine.host
      set { machine with host }
      settle id store
      return result
    match result with
    | .ok news => return .news news
    | .error f => throw (.failure f)

end Machine

end Subscription
