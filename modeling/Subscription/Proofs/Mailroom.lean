import Mathlib.Logic.Function.Basic
import Subscription.Proofs.CallDiary
import Subscription.Proofs.Roster

/-!
# Letters

A call of a notification callback does not say which subscription it is made for, when
others were made alike.  So a mailroom is kept beside the machine (`Mailroom`).  It has a
roster for each context, knows how the subscription of each ticket was made, and takes each
call for a letter, with the ticket of the subscription that it goes to.

The mailroom only looks at what comes to pass.  When an order has been carried out, the
subscription joins or leaves the roster of the context (`Mailroom.carriedOut`).  When a
delivery has taken its recipients, it notes in the roster what has become of their replay,
and hands out their tickets (`Mailroom.take`).  Whatever else happens can but shorten the
groups of a context, and the roster is shortened to as many (`Mailroom.upTo`).

With the mailroom forgotten, what is left is the run of the machine
(`Mailroom.run_follows`).
-/

namespace Subscription

/-- A call of a callback with a notification, and the ticket of the subscription that it is
made for, if it is made for one. -/
structure Letter where
  ticket : Option Nat
  who : Recipient
  notice : Notice

/-- A machine with what is known of its subscriptions to notifications. -/
structure Mailroom where
  machine : Machine
  /-- The subscriptions of each context. -/
  rosters : ContextId → Roster
  /-- How the subscription of each ticket was made. -/
  made : List Enrolment
  /-- The letters, in the order in which they were sent. -/
  letters : List Letter

/-- An action that the mailroom looks at. -/
abbrev MailM : Type → Type := EStateM Halt Mailroom

namespace Mailroom

variable {α β : Type}

/-! ## What the mailroom does -/

/-- A subscription comes and gets the next ticket. -/
def join (m : Mailroom) (id : ContextId) (module : String) (sub : NotificationSub) : Mailroom :=
  { m with
    rosters := Function.update m.rosters id ((m.rosters id).join module m.made.length sub)
    made := m.made ++ [Store.enrol id module sub] }

/-- The first subscription leaves that was made with the given arguments. -/
def leave (m : Mailroom) (id : ContextId) (module : String) (q : Store.NotificationQuery) :
    Mailroom :=
  { m with rosters := Function.update m.rosters id ((m.rosters id).leave module q) }

/-- What becomes of the rosters when a context has carried out an order. -/
def carriedOut (m : Mailroom) (id : ContextId) : Order → Mailroom
  | .addNotification module xpath start stop callback data =>
      match parseFilter xpath with
      | .ok filter => m.join id module ⟨filter, start, stop, false, callback, data⟩
      | .error _ => m
  | .removeNotification module xpath start stop callback data =>
      m.leave id module ⟨xpath, start, stop, callback, data⟩
  | _ => m

/-- A notification is sent to the subscriptions of a module. -/
def note (m : Mailroom) (id : ContextId) (module : String) (notice : Notice) : Mailroom :=
  { m with rosters := Function.update m.rosters id ((m.rosters id).note module notice) }

/-- The machine has gone on, and no roster has more groups than its context. -/
def upTo (machine : Machine) (m : Mailroom) : Mailroom :=
  { m with
    machine
    rosters := fun id => (m.rosters id).keepFirst (machine.storeAt id).notifications.size }

/-- A letter is sent. -/
def send (m : Mailroom) (letter : Letter) : Mailroom :=
  { m with letters := m.letters ++ [letter] }

/-! ## Runs that the mailroom looks at -/

/-- Runs an action of the machine. -/
def keep (act : MachineM α) : MailM α := fun m =>
  match act m.machine with
  | .ok a machine => .ok a (upTo machine m)
  | .error e machine => .error e (upTo machine m)

/-- Runs an action of the machine that may succeed, and enters what comes of it then. -/
def enter (change : Mailroom → Mailroom) (act : MachineM (Except Failure Unit)) :
    MailM (Except Failure Unit) := fun m =>
  match act m.machine with
  | .ok (.ok ()) machine => .ok (.ok ()) (upTo machine (change m))
  | .ok (.error f) machine => .ok (.error f) (upTo machine m)
  | .error e machine => .error e (upTo machine m)

/-- Takes the recipients of a delivery, and gives each of them its ticket. -/
def take (id : ContextId) (module : String) (notice : Notice) : MailM (List (Nat × Recipient)) :=
  fun m =>
    let tickets := ((m.rosters id).targets module notice).map Prod.fst
    match Machine.gather id module notice m.machine with
    | .ok recipients machine =>
        .ok (recipients.mapIdx fun i who => (tickets.getD i m.made.length, who))
          (upTo machine (m.note id module notice))
    | .error e machine => .error e (upTo machine m)

/-- Runs the commands of a callback. -/
def react (nested : Command → MailM Answer) :
    List Command → MailM (List (Except Halt Answer))
  | [] => return []
  | c :: rest => do
      let first ← attempt (nested c)
      return first :: (← react nested rest)

/-- Runs the commands of a callback that is called. -/
def attend (nested : Command → MailM Answer) (cb : Callback) (place : Nat) :
    MailM (Except Error Unit) :=
  match cb.commands with
  | none => return .ok ()
  | some commands => do
      let reactions ← react nested commands
      keep (Machine.endCall place reactions)
      return .ok ()

/-- Runs a notification callback, whose call is a letter. -/
def callBack (nested : Command → MailM Answer) (letter : Letter) : MailM (Except Error Unit) := do
  let cb ← keep (Machine.find (·.callbacks) letter.who.callback)
  match cb.shape with
  | none => throw (.unknown letter.who.callback)
  | some shape =>
      match Payload.ofNode shape letter.notice.tree with
      | .error e => return .error e
      | .ok payload =>
          modify fun m => m.send letter
          let place ← keep (Machine.beginCall cb letter.who letter.notice payload)
          attend nested cb place

/-- Calls the recipients of a delivery, each for the subscription of its ticket. -/
def callAll (nested : Command → MailM Answer) (module : String) (notice : Notice)
    (failure : Option Error) : List (Nat × Recipient) → MailM (Option Error)
  | [] => return failure
  | (ticket, who) :: rest => do
      match ← callBack nested ⟨some ticket, who, notice⟩ with
      | .ok () => callAll nested module notice failure rest
      | .error e =>
          keep (Machine.runHost (Host.say .error
            s!"Failed to deliver a notification of \"{module}\" ({e.message})."))
          callAll nested module notice (failure.or (some e)) rest

/-- Runs an action on the context of a name. -/
def withContext (bound : Nat) (name : String) (act : ContextId → MailM α) : MailM α := do
  let id ← keep (Machine.find (·.contextNames) name)
  keep (Machine.updateContext id fun c => { c with holders := c.holders + 1 })
  let result ← attempt (act id)
  keep (Machine.releaseContext (Machine.run bound) id)
  ofExcept result

/-- Delivers a notification to the subscribers of a context. -/
def deliver (bound : Nat) (nested : Command → MailM Answer) (name module : String)
    (notice : Notice) : MailM Answer :=
  withContext bound name fun id => do
    let recipients ← take id module notice
    match ← callAll nested module notice none recipients with
    | none => return .number recipients.length
    | some e => keep (Machine.fail e)

/-- Carries out an order on the subscriptions of a context. -/
def carryOut (bound : Nat) (name : String) (order : Order) : MailM Answer :=
  match order.plan with
  | .error f => throw (.failure f)
  | .ok work =>
      withContext bound name fun id => do
        match ← enter (·.carriedOut id order) (Machine.whileLocked id order.operation fun _ =>
            Machine.runPlan (Machine.run bound) id work) with
        | .ok () => return .nothing
        | .error f => throw (.failure f)

/-- Runs a command that calls nobody. -/
def runQuiet (bound : Nat) (c : ContextCommand) : MailM Answer :=
  match c.order? with
  | some (name, subscriber, order) => do
      let who ← keep (Machine.subscriberOf subscriber)
      carryOut bound name (order who)
  | none => keep (Machine.runContext (Machine.run bound) c)

/-- Runs a command about contexts, the registry or callbacks. -/
def runContext (bound : Nat) (nested : Command → MailM Answer) : ContextCommand → MailM Answer
  | .deliver name module notice => deliver bound nested name module notice
  | .call subscriber notice => do
      let who ← keep (Machine.subscriberOf subscriber)
      match ← callBack nested ⟨none, who, notice⟩ with
      | .ok () => return .nothing
      | .error e => keep (Machine.fail e)
  | c => runQuiet bound c

/-- Runs a command. -/
def run : Nat → Command → MailM Answer
  | bound + 1, .context c => runContext bound (run bound) c
  | bound, c => keep (Machine.run bound c)

/-! ## Forgetting the mailroom -/

/-- Without the mailroom, an action is one of the machine. -/
abbrev Follows (x : MailM α) (y : MachineM α) : Prop := Shadows Mailroom.machine x y

variable {nested : Command → MailM Answer} {plainly : Command → MachineM Answer} {bound : Nat}

theorem keep_follows (act : MachineM α) : Follows (keep act) act := by
  intro m
  unfold keep
  cases act m.machine <;> rfl

theorem enter_follows {change : Mailroom → Mailroom} (act : MachineM (Except Failure Unit)) :
    Follows (enter change act) act := by
  intro m
  unfold enter
  cases act m.machine with
  | error e machine => rfl
  | ok result machine => cases result <;> rfl

/-- Only the mailroom knows of a letter. -/
theorem send_follows (letter : Letter) {x : MailM α} {y : MachineM α} (hx : Follows x y) :
    Follows (do modify fun m => m.send letter; x) y := fun m => hx (m.send letter)

theorem react_follows (hnested : ∀ c, Follows (nested c) (plainly c)) (commands : List Command) :
    Follows (react nested commands) (Machine.react plainly commands) := by
  induction commands with
  | nil => exact .pure []
  | cons c rest ih => exact (hnested c).attempt.bind fun first => ih.bind fun _ => .pure _

theorem attend_follows (hnested : ∀ c, Follows (nested c) (plainly c)) (cb : Callback)
    (place : Nat) : Follows (attend nested cb place) (Machine.attend plainly cb place) := by
  unfold attend Machine.attend
  cases cb.commands with
  | none => exact .pure _
  | some commands =>
      exact (react_follows hnested commands).bind fun _ => (keep_follows _).bind fun _ => .pure _

theorem callBack_follows (hnested : ∀ c, Follows (nested c) (plainly c)) (letter : Letter) :
    Follows (callBack nested letter) (Machine.callBack plainly letter.who letter.notice) := by
  refine (keep_follows _).bind fun cb => ?_
  cases cb.shape with
  | none => exact .throw _
  | some shape =>
      cases hpayload : Payload.ofNode shape letter.notice.tree with
      | error e =>
          simp only [hpayload]
          exact .pure _
      | ok payload =>
          simp only [hpayload]
          refine send_follows letter ?_
          exact (keep_follows (Machine.beginCall cb letter.who letter.notice payload)).bind
            (attend_follows hnested cb)

theorem callAll_follows (hnested : ∀ c, Follows (nested c) (plainly c)) (module : String)
    (notice : Notice) (failure : Option Error) (recipients : List (Nat × Recipient)) :
    Follows (callAll nested module notice failure recipients)
      (Machine.callAll plainly module notice failure (recipients.map Prod.snd)) := by
  induction recipients generalizing failure with
  | nil => exact .pure failure
  | cons x rest ih =>
      obtain ⟨ticket, who⟩ := x
      refine (callBack_follows hnested ⟨some ticket, who, notice⟩).bind fun result => ?_
      cases result with
      | ok done => exact ih failure
      | error e => exact (keep_follows _).bind fun _ => ih _

/-- A delivery goes on with those whom it has taken. -/
theorem take_bind_follows (id : ContextId) (module : String) (notice : Notice)
    {f : List (Nat × Recipient) → MailM α} {g : List Recipient → MachineM α}
    (hf : ∀ recipients, Follows (f recipients) (g (recipients.map Prod.snd))) :
    Follows (take id module notice >>= f) (Machine.gather id module notice >>= g) := by
  intro m
  cases hgather : Machine.gather id module notice m.machine with
  | error e machine =>
      have htake : take id module notice m = .error e (upTo machine m) := by
        simp only [take, hgather]
      rw [bind_of_error htake, bind_of_error hgather]
      rfl
  | ok recipients machine =>
      have htake : take id module notice m =
          .ok (recipients.mapIdx fun i who =>
            ((((m.rosters id).targets module notice).map Prod.fst).getD i m.made.length, who))
            (upTo machine (m.note id module notice)) := by
        simp only [take, hgather]
      rw [bind_of_ok htake, bind_of_ok hgather]
      refine (hf _ _).trans ?_
      have hsame : (recipients.mapIdx fun i who =>
          ((((m.rosters id).targets module notice).map Prod.fst).getD i m.made.length, who)).map
            Prod.snd = recipients := by
        simp [List.mapIdx_eq_zipIdx_map, Function.comp_def]
      rw [hsame]
      rfl

theorem withContext_follows (name : String) {act : ContextId → MailM α}
    {plain : ContextId → MachineM α} (hact : ∀ id, Follows (act id) (plain id)) :
    Follows (withContext bound name act) (Machine.withContext (Machine.run bound) name plain) :=
  (keep_follows _).bind fun id => (keep_follows _).bind fun _ => (hact id).attempt.bind
    fun result => (keep_follows _).bind fun _ => .ofExcept result

theorem deliver_follows (hnested : ∀ c, Follows (nested c) (Machine.run bound c))
    (name module : String) (notice : Notice) :
    Follows (deliver bound nested name module notice)
      (Machine.deliver (Machine.run bound) name module notice) := by
  refine withContext_follows name fun id => ?_
  refine take_bind_follows id module notice fun recipients => ?_
  refine (callAll_follows hnested module notice none recipients).bind fun failure => ?_
  rw [List.length_map]
  cases failure with
  | none => exact .pure _
  | some e => exact keep_follows _

theorem carryOut_follows (name : String) (order : Order) :
    Follows (carryOut bound name order) (Machine.carryOut (Machine.run bound) name order) := by
  unfold carryOut Machine.carryOut
  cases order.plan with
  | error f => exact .throw _
  | ok work =>
      refine withContext_follows name fun id => (enter_follows _).bind fun result => ?_
      cases result with
      | ok done => exact .pure _
      | error f => exact .throw _

theorem runQuiet_follows (c : ContextCommand) :
    Follows (runQuiet bound c) (Machine.runContext (Machine.run bound) c) := by
  unfold runQuiet
  cases horder : c.order? with
  | none => exact keep_follows _
  | some given =>
      obtain ⟨name, subscriber, order⟩ := given
      rw [Machine.runContext_of_order _ horder]
      exact (keep_follows _).bind fun who => carryOut_follows name (order who)

theorem runContext_of_quiet {c : ContextCommand} (hc : c.calls = false) :
    runContext bound nested c = runQuiet bound c := by
  cases c <;> first | rfl | cases hc

theorem runContext_follows (hnested : ∀ c, Follows (nested c) (Machine.run bound c))
    (c : ContextCommand) :
    Follows (runContext bound nested c) (Machine.runContext (Machine.run bound) c) := by
  cases c with
  | deliver name module notice => exact deliver_follows hnested name module notice
  | call subscriber notice =>
      refine (keep_follows _).bind fun who =>
        (callBack_follows hnested ⟨none, who, notice⟩).bind fun result => ?_
      cases result with
      | ok done => exact .pure _
      | error e => exact keep_follows _
  | _ =>
      rw [runContext_of_quiet rfl]
      exact runQuiet_follows _

/-- **The mailroom changes nothing.** -/
theorem run_follows (bound : Nat) (c : Command) : Follows (run bound c) (Machine.run bound c) := by
  induction bound generalizing c with
  | zero => cases c <;> exact keep_follows _
  | succ bound ih =>
      cases c with
      | segment c => exact keep_follows _
      | lock c => exact keep_follows _
      | file c => exact keep_follows _
      | context c => exact runContext_follows ih c

/-! ## Commands from the outside -/

/-- The mailroom when a command begins from the outside. -/
def hushed (m : Mailroom) : Mailroom := { m with machine := m.machine.hushed }

/-- The mailroom after a command from the outside. -/
def step (m : Mailroom) (c : Command) : Mailroom :=
  stateAfter (run Machine.nestingBound c m.hushed)

/-- The mailroom after commands from the outside, one after the other. -/
def steps (m : Mailroom) (commands : List Command) : Mailroom := commands.foldl step m

theorem step_machine (m : Mailroom) (c : Command) : (m.step c).machine = (m.machine.step c).2 := by
  have hhushed : m.hushed.machine = m.machine.hushed := rfl
  exact Machine.step_of_shadows (run_follows Machine.nestingBound c) hhushed

theorem steps_machine (m : Mailroom) (commands : List Command) :
    (m.steps commands).machine = m.machine.after commands := by
  induction commands generalizing m with
  | nil => rfl
  | cons c rest ih =>
      show ((m.step c).steps rest).machine = (m.machine.step c).2.after rest
      rw [ih, step_machine]

end Mailroom

end Subscription
