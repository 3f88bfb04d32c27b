import Subscription.Machine.Callbacks
import Subscription.Machine.Files
import Subscription.Machine.Locks

/-!
# Running commands

`Machine.run` runs one command.  A command may run others — those of a
callback, or one that a registry waits for — and these may again; the
number given first bounds how deeply.  `Machine.step` runs a command from the
outside and reports what it answered, what was logged meanwhile, and which
callbacks were called.
-/

namespace Subscription

namespace Machine

/-- Runs a command about contexts, the registry or callbacks. -/
def runContext (nested : Command → MachineM Answer) (c : ContextCommand) : MachineM Answer := do
  match c with
  | .create name pipe registry => createContext nested name pipe registry
  | .drop name => dropContext nested name
  | .count name registry modules => countContext name registry modules
  | .addChange name module xpath ds subscriber priority options =>
      let who ← subscriberOf subscriber
      carryOut nested name (.addChange module ds xpath priority options who.callback who.data)
  | .removeChange name module xpath ds subscriber priority options =>
      let who ← subscriberOf subscriber
      carryOut nested name (.removeChange module ds xpath priority options who.callback who.data)
  | .addData name module xpath subscriber =>
      let who ← subscriberOf subscriber
      carryOut nested name (.addData module xpath who.callback who.data)
  | .removeData name module xpath subscriber =>
      let who ← subscriberOf subscriber
      carryOut nested name (.removeData module xpath who.callback who.data)
  | .addRpc name xpath subscriber =>
      let who ← subscriberOf subscriber
      carryOut nested name (.addRpc xpath who.callback who.data)
  | .removeRpc name xpath subscriber =>
      let who ← subscriberOf subscriber
      carryOut nested name (.removeRpc xpath who.callback who.data)
  | .addNotification name module xpath start stop subscriber =>
      let who ← subscriberOf subscriber
      carryOut nested name (.addNotification module xpath start stop who.callback who.data)
  | .removeNotification name module xpath start stop subscriber =>
      let who ← subscriberOf subscriber
      carryOut nested name (.removeNotification module xpath start stop who.callback who.data)
  | .removeAll name => operate nested name "del_all" fun site store => store.removeAll site
  | .poll name timeout => pollContext nested name timeout
  | .deliver name module notice => deliver nested name module notice
  | .call subscriber notice =>
      let who ← subscriberOf subscriber
      match ← callBack nested who notice with
      | .ok () => return .nothing
      | .error e => fail e
  | .sameCallback a b =>
      let first ← find (·.callbacks) a
      let second ← find (·.callbacks) b
      return .truth (first.same second)
  | .sharedCallbacks => return .truths (Callback.comparisons ⟨"first", none, none⟩ "second")
  | .publish registry d =>
      checked (← publish nested registry d)
      return .nothing
  | .retract registry d => return .truth (← checked (← retract nested registry d))
  | .registryState registry keys => registryState registry keys

/-- Runs a command; the commands that it runs itself are nested no more deeply
than the bound. -/
def run : (bound : Nat) → Command → MachineM Answer
  | _, .segment c => runSegment c
  | _, .lock c => runLock c
  | _, .file c => runFile c
  | 0, .context _ => fail (.fault (.other "Commands are nested too deeply."))
  | bound + 1, .context c => runContext (run bound) c

/-- How deeply commands may be nested. -/
def nestingBound : Nat := 100000

/-- What comes of a command from the outside. -/
structure Report where
  result : Except Halt Answer
  log : List LogLine
  calls : List Call
  deriving Inhabited

/-- Runs a command from the outside. -/
def step (machine : Machine) (c : Command) : Report × Machine :=
  let quiet := { machine with host := { machine.host with log := [] }, calls := [] }
  match run nestingBound c quiet with
  | .ok answer after => (⟨.ok answer, after.host.log, after.calls⟩, after)
  | .error halt after => (⟨.error halt, after.host.log, after.calls⟩, after)

/-- Runs commands from the outside, one after the other. -/
def steps (machine : Machine) : List Command → List Report
  | [] => []
  | c :: rest =>
      match machine.step c with
      | (report, after) => report :: after.steps rest

end Machine

end Subscription
