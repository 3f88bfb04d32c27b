import Subscription.Machine.Basic

/-!
# Registries at work

A registry answers a request with the next answer that was laid down for it,
and by its table when there is none.  Before it answers by its table it may
have to wait for a command to be run, which is given to `nested`; a failure
of the command becomes that of the request.
-/

namespace Subscription

namespace Machine

variable {α : Type}

/-- Takes the next answer that was laid down for publishing. -/
def nextPublishing (name : String) : MachineM Reply := do
  let r ← find (·.registries) name
  match r.publishing with
  | [] => return .table
  | reply :: rest =>
      modify fun machine =>
        { machine with registries := machine.registries.put name { r with publishing := rest } }
      return reply

/-- Takes the next answer that was laid down for retracting. -/
def nextRetracting (name : String) : MachineM Reply := do
  let r ← find (·.registries) name
  match r.retracting with
  | [] => return .table
  | reply :: rest =>
      modify fun machine =>
        { machine with registries := machine.registries.put name { r with retracting := rest } }
      return reply

/-- Publishes by the table. -/
def publishTable (name : String) (d : Descriptor) : MachineM (Except Error Unit) := do
  let r ← find (·.registries) name
  modify fun machine =>
    { machine with registries := machine.registries.put name { r with table := r.table.publish d } }
  return .ok ()

/-- Retracts by the table. -/
def retractTable (name : String) (d : Descriptor) : MachineM (Except Error Bool) := do
  let r ← find (·.registries) name
  match r.table.retract d with
  | .error e => return .error e
  | .ok (last, table) =>
      modify fun machine =>
        { machine with registries := machine.registries.put name { r with table } }
      return .ok last

/-- Runs a command and goes on if it did not fail. -/
def unlessFails (nested : Command → MachineM Answer) (c : Command)
    (act : MachineM (Except Error α)) : MachineM (Except Error α) := do
  match ← attempt (nested c) with
  | .ok _ | .error (.unknown _) => act
  | .error (.failure (.error e)) => return .error e
  | .error (.failure (.abort a)) => throw (.failure (.abort a))

/-- Publishes a descriptor in a registry. -/
def publish (nested : Command → MachineM Answer) (name : String) (d : Descriptor) :
    MachineM (Except Error Unit) := do
  match ← nextPublishing name with
  | .table => publishTable name d
  | .fail e => return .error e
  | .answer _ => return .ok ()
  | .after c => unlessFails nested c (publishTable name d)

/-- Retracts a descriptor from a registry. -/
def retract (nested : Command → MachineM Answer) (name : String) (d : Descriptor) :
    MachineM (Except Error Bool) := do
  match ← nextRetracting name with
  | .table => retractTable name d
  | .fail e => return .error e
  | .answer b => return .ok b
  | .after c => unlessFails nested c (retractTable name d)

/-- What a registry has under the keys of some descriptors. -/
def registryState (name : String) (keys : List Descriptor) : MachineM Answer := do
  let r ← find (·.registries) name
  return .registry r.table.size r.table.isEmpty
    (keys.map fun d => ⟨d.key.name, r.table.subscribers d.key, r.table.pipes d.key⟩)

end Machine

end Subscription
