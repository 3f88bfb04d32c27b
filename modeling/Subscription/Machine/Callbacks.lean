import Subscription.Store.Notify
import Subscription.Machine.Contexts

/-!
# Callbacks at work

A notification callback is called in a session of its own and may run
commands, which are given to `nested`.  Callbacks are run when nothing is
locked any more, so that they may add and remove subscriptions themselves,
even those of the context that calls them.
-/

namespace Subscription

namespace Machine

/-- The callback and the private data of a subscriber; a name that no private
data has stands for none. -/
def subscriberOf (s : Subscriber) : MachineM Recipient := do
  let cb ← find (·.callbacks) s.callback
  let known := (← get).privateData
  return ⟨cb.id, s.data.filter fun name => known.any fun entry => entry.1 = name⟩

/-- Runs the commands of a callback; each one may fail by itself. -/
def react (nested : Command → MachineM Answer) :
    List Command → MachineM (List (Except Halt Answer))
  | [] => return []
  | c :: rest => do
      let first ← attempt (nested c)
      return first :: (← react nested rest)

/-- Runs a notification callback in a session of its own. -/
def callBack (nested : Command → MachineM Answer) (r : Recipient) (notice : Notice) :
    MachineM (Except Error Unit) := do
  let cb ← find (·.callbacks) r.callback
  match cb.shape with
  | none => throw (.unknown r.callback)
  | some shape =>
      match Payload.ofNode shape notice.tree with
      | .error e => return .error e
      | .ok payload =>
          let place := (← get).calls.length
          let texts := (← get).privateData
          let text := r.data.bind fun name => texts.lookup name
          let session : Session :=
            { datastore := .operational, event := .notif, sid := notice.sid }
          let call : Call :=
            ⟨cb.id, session, notice.type, notice.time, text, payload, cb.commands.map fun _ => []⟩
          modify fun machine => { machine with calls := machine.calls ++ [call] }
          match cb.commands with
          | none => return .ok ()
          | some commands =>
              let reactions ← react nested commands
              modify fun machine =>
                { machine with
                  calls := machine.calls.modify place fun c =>
                    { c with reactions := some reactions } }
              return .ok ()

/-- Calls the recipients of a notification one after the other; gives the
first failure, if there has been one. -/
def callAll (nested : Command → MachineM Answer) (module : String) (notice : Notice)
    (failure : Option Error) : List Recipient → MachineM (Option Error)
  | [] => return failure
  | r :: rest => do
      match ← callBack nested r notice with
      | .ok () => callAll nested module notice failure rest
      | .error e =>
          runHost (Host.say .error
            s!"Failed to deliver a notification of \"{module}\" ({e.message}).")
          callAll nested module notice (failure.or (some e)) rest

/-- Delivers a notification to the subscribers of a context. -/
def deliver (nested : Command → MachineM Answer) (name module : String) (notice : Notice) :
    MachineM Answer :=
  withContext nested name fun id => do
    let recipients ← whileLocked id "notif_deliver" fun c => do
      let (recipients, store) := c.store.recipients module notice.type notice.tree notice.time
      settle id store
      return recipients
    match ← callAll nested module notice none recipients with
    | none => return .number recipients.length
    | some e => fail e

end Machine

end Subscription
