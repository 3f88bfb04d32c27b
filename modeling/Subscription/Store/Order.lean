import Subscription.Store.Remove

/-!
# Orders

What a context can be told to do with one subscription: to add it, or to
remove the one that was made with the same arguments.  The arguments of an
order are looked at before the subscriptions are: a bad one, or a promise that
is broken by the arguments alone, ends it there (`Order.plan`).
-/

namespace Subscription

/-- What a context is told to do with one subscription. -/
inductive Order where
  | addChange (module : String) (datastore : Datastore) (xpath : Option String)
      (priority : UInt32) (options : SubscribeOptions) (callback : CallbackId)
      (data : Option DataId)
  | removeChange (module : String) (datastore : Datastore) (xpath : Option String)
      (priority : UInt32) (options : SubscribeOptions) (callback : CallbackId)
      (data : Option DataId)
  | addData (module xpath : String) (callback : CallbackId) (data : Option DataId)
  | removeData (module xpath : String) (callback : CallbackId) (data : Option DataId)
  | addRpc (xpath : String) (callback : CallbackId) (data : Option DataId)
  | removeRpc (xpath : String) (callback : CallbackId) (data : Option DataId)
  | addNotification (module : String) (xpath : Option String) (start stop : Option Int)
      (callback : CallbackId) (data : Option DataId)
  | removeNotification (module : String) (xpath : Option String) (start stop : Option Int)
      (callback : CallbackId) (data : Option DataId)
  deriving DecidableEq, Repr, Inhabited

namespace Order

/-- The name of the operation that carries out an order. -/
def operation : Order → String
  | addChange .. => "conf_add"
  | removeChange .. => "conf_del"
  | addData .. => "dp_add"
  | removeData .. => "dp_del"
  | addRpc .. => "rpc_add"
  | removeRpc .. => "rpc_del"
  | addNotification .. => "notif_add"
  | removeNotification .. => "notif_del"

/-- What a context does to carry out an order. -/
abbrev Work := Site → Store → Plan Store.Ending

/-- The work that comes after a check. -/
def after {α : Type} (check : Except Error α) (work : α → Work) : Except Failure Work :=
  match check with
  | .ok a => .ok (work a)
  | .error e => .error (.error e)

/-- The work of an order, if its arguments allow any. -/
def plan : Order → Except Failure Work
  | addChange module datastore xpath priority options callback data =>
      after (checkOptionalXPath xpath) fun () site s =>
        s.addChange site module datastore { xpath, priority, options, callback, data }
  | removeChange module datastore xpath priority options callback data =>
      .ok fun site s =>
        s.removeChange site module datastore { xpath, priority, options, callback, data }
  | addData module xpath callback data =>
      after (checkXPath xpath) fun () site s => s.addService site .data module xpath callback data
  | removeData module xpath callback data =>
      .ok fun site s => s.removeService site .data module xpath callback data
  | addRpc xpath callback data =>
      after (rpcModule xpath) fun module site s =>
        s.addService site .rpc module xpath callback data
  | removeRpc xpath callback data =>
      match XPath.firstModule xpath with
      | some module => .ok fun site s => s.removeService site .rpc module xpath callback data
      | none => .error (.abort (.noRpc xpath))
  | addNotification module xpath start stop callback data =>
      after (parseFilter xpath) fun filter site s =>
        s.addNotification site module ⟨filter, start, stop, false, callback, data⟩
  | removeNotification module xpath start stop callback data =>
      .ok fun site s => s.removeNotification site module ⟨xpath, start, stop, callback, data⟩

theorem exists_of_after {α : Type} {check : Except Error α} {next : α → Work} {work : Work}
    (hwork : after check next = .ok work) : ∃ a, work = next a := by
  cases check with
  | error e => cases hwork
  | ok a =>
      cases hwork
      exact ⟨a, rfl⟩

/-- The work of an order is to add or to remove one subscription.  What holds of all such work
holds of that of every order. -/
theorem work_induction {P : Work → Prop}
    (haddChange : ∀ module datastore sub, P fun site s => s.addChange site module datastore sub)
    (hremoveChange : ∀ module datastore sub,
      P fun site s => s.removeChange site module datastore sub)
    (haddService : ∀ service module xpath callback data,
      P fun site s => s.addService site service module xpath callback data)
    (hremoveService : ∀ service module xpath callback data,
      P fun site s => s.removeService site service module xpath callback data)
    (haddNotification : ∀ module sub, P fun site s => s.addNotification site module sub)
    (hremoveNotification : ∀ module q, P fun site s => s.removeNotification site module q)
    {order : Order} {work : Work} (hplan : order.plan = .ok work) : P work := by
  cases order with
  | addChange =>
      obtain ⟨a, rfl⟩ := exists_of_after hplan
      exact haddChange _ _ _
  | removeChange =>
      cases hplan
      exact hremoveChange _ _ _
  | addData =>
      obtain ⟨a, rfl⟩ := exists_of_after hplan
      exact haddService _ _ _ _ _
  | removeData =>
      cases hplan
      exact hremoveService _ _ _ _ _
  | addRpc =>
      obtain ⟨a, rfl⟩ := exists_of_after hplan
      exact haddService _ _ _ _ _
  | removeRpc xpath callback data =>
      cases hmodule : XPath.firstModule xpath with
      | none => simp [plan, hmodule] at hplan
      | some module =>
          simp only [plan, hmodule, Except.ok.injEq] at hplan
          subst hplan
          exact hremoveService _ _ _ _ _
  | addNotification =>
      obtain ⟨a, rfl⟩ := exists_of_after hplan
      exact haddNotification _ _
  | removeNotification =>
      cases hplan
      exact hremoveNotification _ _

end Order

end Subscription
