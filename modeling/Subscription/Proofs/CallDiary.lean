import Subscription.Proofs.QuietCommands

/-!
# A diary of subscriptions and calls

Which subscription a notification callback was called for, and whether that
one was still there, cannot be read off a machine afterwards.  So a diary is
kept beside the machine (`Record`).  It says which subscriptions to
notifications came and went, whom each delivery took for its targets, and
each call when it begins.  What happened is told apart by its place in the
diary, so that a subscription is known by the entry that says it came, and a
delivery by the one that says what it took.

Deliveries and calls are written down while they go on, for what they run may
run others again.  Whatever else a machine does is done in one go, and the
subscriptions are compared with the diary when it is over (`Record.keep`).
Among subscriptions that were made alike nobody can tell which one went; the
diary then says it of one that came first.

Keeping a diary changes nothing: with the diary forgotten, a recorded run is
the run of the machine (`Record.run_mirrors`).
-/

namespace Subscription

/-! ## The subscriptions of a machine -/

/-- A subscription to notifications as it was made, with where it stands. -/
structure Enrolment where
  context : ContextId
  module : String
  sub : NotificationSub
  deriving DecidableEq, Repr, Inhabited

namespace Store

/-- A subscription of a module as it was made, whatever became of its replay. -/
def enrol (id : ContextId) (module : String) (sub : NotificationSub) : Enrolment :=
  ⟨id, module, { sub with replayed := false }⟩

/-- The subscriptions to notifications. -/
def enrolments (s : Store) (id : ContextId) : List Enrolment :=
  s.notifications.entries.map fun entry => enrol id entry.1.module entry.2

/-- The subscriptions that a notification is delivered to. -/
def targets (s : Store) (id : ContextId) (module : String) (notice : Notice) : List Enrolment :=
  match s.notifications.position? fun c => c.module = module with
  | none => []
  | some place =>
      let subs := ((s.notifications.get? place).map fun g => g.subs.toList).getD []
      (subs.filter fun sub => sub.wants notice.type notice.tree notice.time).map (enrol id module)

end Store

namespace Machine

/-- The subscriptions to notifications of all contexts. -/
def enrolments (machine : Machine) : List Enrolment :=
  machine.contexts.zipIdx.flatMap fun c => c.1.store.enrolments c.2

/-- The subscriptions of a context that a notification is delivered to. -/
def targets (machine : Machine) (id : ContextId) (module : String) (notice : Notice) :
    List Enrolment :=
  (machine.contexts.getD id default).store.targets id module notice

end Machine

/-! ## Diaries -/

/-- What a diary tells. -/
inductive Incident where
  /-- There is a new subscription. -/
  | enrolled (e : Enrolment)
  /-- The subscription that came at a place is gone. -/
  | left (place : Nat)
  /-- A delivery has taken its targets, which came at some places. -/
  | took (places : List Nat)
  /-- The delivery that took its targets at a place calls one of them. -/
  | called (delivery target : Nat) (r : Recipient)
  /-- A callback is called, but not for a subscription. -/
  | asked (r : Recipient)
  deriving DecidableEq, Repr, Inhabited

/-- What happened, the latest first. -/
abbrev Diary := List Incident

/-- Subscriptions with the places at which they came. -/
abbrev Roll := List (Nat × Enrolment)

/-- Looks for each of some subscriptions among those that came: those that
were found, and those that were not. -/
def Roll.pairOff : Roll → List Enrolment → Roll × List Enrolment
  | _, [] => ([], [])
  | roll, e :: rest =>
      match roll.find? fun entry => entry.2 = e with
      | some entry =>
          let (found, missing) := pairOff (roll.erase entry) rest
          (entry :: found, missing)
      | none =>
          let (found, missing) := pairOff roll rest
          (found, e :: missing)

namespace Diary

/-- The subscriptions that came and did not leave. -/
def standing : Diary → Roll
  | [] => []
  | .enrolled e :: past => (past.length, e) :: standing past
  | .left place :: past => (standing past).filter fun entry => entry.1 ≠ place
  | _ :: past => standing past

/-- The places at which some of the subscriptions came. -/
def placesOf (past : Diary) (some : List Enrolment) : List Nat :=
  ((standing past).pairOff some).1.map Prod.fst

/-- Enters what has become of the subscriptions, when those are there now. -/
def bringUp (past : Diary) (present : List Enrolment) : Diary :=
  let (found, missing) := (standing past).pairOff present
  let gone := (standing past).filter fun entry => entry ∉ found
  missing.map .enrolled ++ (gone.map fun entry => .left entry.1) ++ past

end Diary

/-! ## Recorded runs -/

/-- A machine with a diary. -/
structure Record where
  machine : Machine
  diary : Diary

/-- A recorded action. -/
abbrev RecordM : Type → Type := EStateM Halt Record

namespace Machine

/-- Takes the recipients of a notification. -/
def gather (id : ContextId) (module : String) (notice : Notice) : MachineM (List Recipient) :=
  whileLocked id "notif_deliver" fun c => do
    let (recipients, store) := c.store.recipients module notice.type notice.tree notice.time
    settle id store
    return recipients

/-- Notes that a callback is called, and gives the place of the call. -/
def beginCall (cb : Callback) (r : Recipient) (notice : Notice) (payload : Payload) :
    MachineM Nat := do
  let place := (← get).calls.length
  let texts := (← get).privateData
  let text := r.data.bind fun name => texts.lookup name
  let session : Session := { datastore := .operational, event := .notif, sid := notice.sid }
  let call : Call :=
    ⟨cb.id, session, notice.type, notice.time, text, payload, cb.commands.map fun _ => []⟩
  modify fun machine => { machine with calls := machine.calls ++ [call] }
  return place

/-- Notes what came of the commands of a call. -/
def endCall (place : Nat) (reactions : List (Except Halt Answer)) : MachineM Unit :=
  modify fun machine =>
    { machine with calls := machine.calls.modify place fun c => { c with reactions } }

/-- Runs the commands of a callback that is called. -/
def attend (nested : Command → MachineM Answer) (cb : Callback) (place : Nat) :
    MachineM (Except Error Unit) :=
  match cb.commands with
  | none => return .ok ()
  | some commands => do
      let reactions ← react nested commands
      endCall place reactions
      return .ok ()

end Machine

namespace Record

variable {α β : Type}

/-- The record of a machine, which may have gone on since the diary was
written. -/
def upTo (machine : Machine) (past : Diary) : Record := ⟨machine, past.bringUp machine.enrolments⟩

/-- Runs an action of the machine and enters what has become of the
subscriptions. -/
def keep (act : MachineM α) : RecordM α := fun r =>
  match act r.machine with
  | .ok a machine => .ok a (upTo machine r.diary)
  | .error e machine => .error e (upTo machine r.diary)

/-- Writes an incident down. -/
def note (incident : Incident) : RecordM Unit :=
  modify fun r => { r with diary := incident :: r.diary }

/-- Takes the targets of a delivery; gives its place in the diary, too. -/
def take (id : ContextId) (module : String) (notice : Notice) : RecordM (Nat × List Enrolment) :=
  fun r =>
    let targets := r.machine.targets id module notice
    match Machine.gather id module notice r.machine with
    | .ok _ machine =>
        .ok (r.diary.length, targets)
          (upTo machine (.took (r.diary.placesOf targets) :: r.diary))
    | .error e machine => .error e (upTo machine r.diary)

/-- Runs the commands of a callback. -/
def react (nested : Command → RecordM Answer) :
    List Command → RecordM (List (Except Halt Answer))
  | [] => return []
  | c :: rest => do
      let first ← attempt (nested c)
      return first :: (← react nested rest)

/-- Runs the commands of a callback that is called. -/
def attend (nested : Command → RecordM Answer) (cb : Callback) (place : Nat) :
    RecordM (Except Error Unit) :=
  match cb.commands with
  | none => return .ok ()
  | some commands => do
      let reactions ← react nested commands
      keep (Machine.endCall place reactions)
      return .ok ()

/-- Runs a notification callback, whose call is the given incident. -/
def callBack (nested : Command → RecordM Answer) (incident : Incident) (r : Recipient)
    (notice : Notice) : RecordM (Except Error Unit) := do
  let cb ← keep (Machine.find (·.callbacks) r.callback)
  match cb.shape with
  | none => throw (.unknown r.callback)
  | some shape =>
      match Payload.ofNode shape notice.tree with
      | .error e => return .error e
      | .ok payload =>
          note incident
          let place ← keep (Machine.beginCall cb r notice payload)
          attend nested cb place

/-- Calls the targets of a delivery, of which some have been called. -/
def callAll (nested : Command → RecordM Answer) (module : String) (notice : Notice)
    (delivery : Nat) : Nat → Option Error → List Enrolment → RecordM (Option Error)
  | _, failure, [] => return failure
  | before, failure, e :: rest => do
      let r := Store.recipientOf e.sub
      match ← callBack nested (.called delivery before r) r notice with
      | .ok () => callAll nested module notice delivery (before + 1) failure rest
      | .error error =>
          keep (Machine.runHost (Host.say .error
            s!"Failed to deliver a notification of \"{module}\" ({error.message})."))
          callAll nested module notice delivery (before + 1) (failure.or (some error)) rest

/-- Delivers a notification to the subscribers of a context. -/
def deliver (bound : Nat) (nested : Command → RecordM Answer) (name module : String)
    (notice : Notice) : RecordM Answer := do
  let id ← keep (Machine.find (·.contextNames) name)
  keep (Machine.updateContext id fun c => { c with holders := c.holders + 1 })
  let result ← attempt do
    let (delivery, targets) ← take id module notice
    match ← callAll nested module notice delivery 0 none targets with
    | none => return .number targets.length
    | some e => keep (Machine.fail e)
  keep (Machine.releaseContext (Machine.run bound) id)
  ofExcept result

/-- Runs a command. -/
def run : Nat → Command → RecordM Answer
  | bound + 1, .context (.deliver name module notice) =>
      deliver bound (run bound) name module notice
  | bound + 1, .context (.call subscriber notice) => do
      let who ← keep (Machine.subscriberOf subscriber)
      match ← callBack (run bound) (.asked who) who notice with
      | .ok () => return .nothing
      | .error e => keep (Machine.fail e)
  | bound, c => keep (Machine.run bound c)

/-! ## Forgetting the diary -/

/-- A result without the diary. -/
def forget : EStateM.Result Halt Record α → EStateM.Result Halt Machine α
  | .ok a r => .ok a r.machine
  | .error e r => .error e r.machine

/-- A recorded action does what an action of the machine does. -/
def Mirrors (x : RecordM α) (y : MachineM α) : Prop := ∀ r, forget (x r) = y r.machine

theorem mirrors_iff {x : RecordM α} {y : MachineM α} :
    Mirrors x y ↔ Shadows Record.machine x y := by
  have hforget : ∀ result : EStateM.Result Halt Record α,
      forget result = mapState Record.machine result := by
    intro result
    cases result <;> rfl
  simp only [Mirrors, Shadows, hforget]

namespace Mirrors

variable {x : RecordM α} {y : MachineM α}

theorem pure (a : α) : Mirrors (pure a) (pure a) := fun _ => rfl

theorem throw (e : Halt) : Mirrors (throw e : RecordM α) (throw e) := fun _ => rfl

theorem ofExcept (result : Except Halt α) : Mirrors (ofExcept result) (ofExcept result) :=
  mirrors_iff.2 (.ofExcept result)

theorem keep (act : MachineM α) : Mirrors (keep act) act := by
  intro r
  unfold Record.keep
  cases act r.machine <;> rfl

/-- Actions that mirror others one after the other. -/
theorem bind {f : α → RecordM β} {g : α → MachineM β} (hx : Mirrors x y)
    (hf : ∀ a, Mirrors (f a) (g a)) : Mirrors (x >>= f) (y >>= g) :=
  mirrors_iff.2 ((mirrors_iff.1 hx).bind fun a => mirrors_iff.1 (hf a))

theorem attempt (hx : Mirrors x y) :
    Mirrors (attempt x : RecordM (Except Halt α)) (attempt y) :=
  mirrors_iff.2 (mirrors_iff.1 hx).attempt

/-- Only the diary tells of an incident. -/
theorem note_bind (incident : Incident) (hx : Mirrors x y) :
    Mirrors (note incident >>= fun _ => x) y := fun r => hx { r with diary := incident :: r.diary }

end Mirrors

end Record

/-! ### Targets -/

/-- The targets of a delivery are its recipients. -/
theorem Store.map_targets (s : Store) (id : ContextId) (module : String) (notice : Notice) :
    (s.targets id module notice).map (fun e => recipientOf e.sub) =
      (s.recipients module notice.type notice.tree notice.time).1 := by
  unfold targets recipients
  cases s.notifications.position? fun c => c.module = module with
  | none => rfl
  | some place =>
      simp only [List.map_map]
      rfl

namespace Machine

section Locked

variable {α : Type} {machine : Machine} {id : ContextId}

/-- Whoever only waits and gives up has no result. -/
theorem waited_ne_ok (span : Span) (operation : String) (a : α) (machine' : Machine) :
    (do
      runHost (Host.sleep span)
      fail (.lockTimeout "subscriptions" operation) : MachineM α) machine ≠ .ok a machine' :=
  bind_ne_ok_of_rest (fun _ _ _ _ hfail => by cases hfail) a machine'

theorem whileLocked_ne_ok {operation : String} {act : Context → MachineM α}
    (hbusy : (machine.contexts.getD id default).busy = true) (a : α) (machine' : Machine) :
    whileLocked id operation act machine ≠ .ok a machine' := by
  have hcontext : contextAt id machine = .ok (machine.contexts.getD id default) machine := rfl
  unfold whileLocked
  rw [bind_of_ok hcontext, if_pos hbusy, get_bind_eq]
  exact waited_ne_ok machine.config.loopSpan operation a machine'

end Locked

/-- Those that are gathered are the targets. -/
theorem gather_eq {id : ContextId} {module : String} {notice : Notice}
    {machine machine' : Machine} {recipients : List Recipient}
    (hgather : gather id module notice machine = .ok recipients machine') :
    recipients = (machine.targets id module notice).map fun e => Store.recipientOf e.sub := by
  rw [targets, Store.map_targets]
  by_cases hbusy : (machine.contexts.getD id default).busy = true
  · exact absurd hgather (whileLocked_ne_ok hbusy recipients machine')
  · have hrun := (whileLocked_eq hbusy).symm.trans hgather
    cases hrun
    rfl

/-- When a call ends, only what came of its commands is noted. -/
theorem map_calls_endCall {β : Type} (f : Call → β)
    (hf : ∀ c reactions, f { c with reactions } = f c) (place : Nat)
    (reactions : List (Except Halt Answer)) (machine : Machine) :
    (Subscription.stateAfter (endCall place reactions machine)).calls.map f =
      machine.calls.map f := by
  show (machine.calls.modify place fun c => { c with reactions }).map f = _
  apply List.ext_getElem?
  intro i
  simp only [List.getElem?_map, List.getElem?_modify]
  cases machine.calls[i]? with
  | none => rfl
  | some call => by_cases hi : place = i <;> simp [hi, hf]

end Machine

namespace Record

/-! ### Calls -/

variable {nested : Command → RecordM Answer} {plainly : Command → MachineM Answer}

theorem react_mirrors (hnested : ∀ c, Mirrors (nested c) (plainly c)) (commands : List Command) :
    Mirrors (react nested commands) (Machine.react plainly commands) := by
  induction commands with
  | nil => exact .pure []
  | cons c rest ih => exact (hnested c).attempt.bind fun first => ih.bind fun _ => .pure _

theorem attend_mirrors (hnested : ∀ c, Mirrors (nested c) (plainly c)) (cb : Callback)
    (place : Nat) : Mirrors (attend nested cb place) (Machine.attend plainly cb place) := by
  unfold attend Machine.attend
  cases cb.commands with
  | none => exact .pure _
  | some commands =>
      exact (react_mirrors hnested commands).bind fun _ => (Mirrors.keep _).bind fun _ => .pure _

theorem callBack_mirrors (hnested : ∀ c, Mirrors (nested c) (plainly c)) (incident : Incident)
    (r : Recipient) (notice : Notice) :
    Mirrors (callBack nested incident r notice) (Machine.callBack plainly r notice) := by
  refine (Mirrors.keep _).bind fun cb => ?_
  cases cb.shape with
  | none => exact .throw _
  | some shape =>
      cases hpayload : Payload.ofNode shape notice.tree with
      | error e =>
          simp only [hpayload]
          exact .pure _
      | ok payload =>
          simp only [hpayload]
          exact .note_bind incident ((Mirrors.keep (Machine.beginCall cb r notice payload)).bind
            (attend_mirrors hnested cb))

theorem callAll_mirrors (hnested : ∀ c, Mirrors (nested c) (plainly c)) (module : String)
    (notice : Notice) (delivery before : Nat) (failure : Option Error) (es : List Enrolment) :
    Mirrors (callAll nested module notice delivery before failure es)
      (Machine.callAll plainly module notice failure
        (es.map fun e => Store.recipientOf e.sub)) := by
  induction es generalizing before failure with
  | nil => exact .pure failure
  | cons e rest ih =>
      refine (callBack_mirrors hnested _ _ notice).bind fun result => ?_
      cases result with
      | ok done => exact ih (before + 1) failure
      | error error => exact (Mirrors.keep _).bind fun _ => ih (before + 1) _

section Take

variable {id : ContextId} {module : String} {notice : Notice} {r : Record} {machine : Machine}

theorem take_of_error {e : Halt}
    (hgather : Machine.gather id module notice r.machine = .error e machine) :
    take id module notice r = .error e (upTo machine r.diary) := by
  simp only [take, hgather]

theorem take_of_ok {recipients : List Recipient}
    (hgather : Machine.gather id module notice r.machine = .ok recipients machine) :
    take id module notice r =
      .ok (r.diary.length, r.machine.targets id module notice)
        (upTo machine
          (.took (r.diary.placesOf (r.machine.targets id module notice)) :: r.diary)) := by
  simp only [take, hgather]

end Take

/-- A delivery takes its targets, and goes on with each of them. -/
theorem take_bind_mirrors {α : Type} (id : ContextId) (module : String) (notice : Notice)
    {f : Nat × List Enrolment → RecordM α} {g : List Recipient → MachineM α}
    (hf : ∀ delivery es,
      Mirrors (f (delivery, es)) (g (es.map fun e => Store.recipientOf e.sub))) :
    Mirrors (take id module notice >>= f) (Machine.gather id module notice >>= g) := by
  intro r
  cases hgather : Machine.gather id module notice r.machine with
  | error e machine =>
      rw [bind_of_error (take_of_error hgather), bind_of_error hgather]
      rfl
  | ok recipients machine =>
      rw [bind_of_ok (take_of_ok hgather), bind_of_ok hgather, Machine.gather_eq hgather]
      exact hf _ _ _

theorem deliver_mirrors {bound : Nat} (hnested : ∀ c, Mirrors (nested c) (Machine.run bound c))
    (name module : String) (notice : Notice) :
    Mirrors (deliver bound nested name module notice)
      (Machine.deliver (Machine.run bound) name module notice) := by
  refine (Mirrors.keep _).bind fun id => (Mirrors.keep _).bind fun _ =>
    (Mirrors.attempt ?_).bind fun result => (Mirrors.keep _).bind fun _ => .ofExcept result
  refine take_bind_mirrors id module notice fun delivery es => ?_
  refine (callAll_mirrors hnested module notice delivery 0 none es).bind fun failure => ?_
  rw [List.length_map]
  cases failure with
  | none => exact .pure _
  | some e => exact .keep _

/-- **Keeping a diary changes nothing.** -/
theorem run_mirrors (bound : Nat) (c : Command) : Mirrors (run bound c) (Machine.run bound c) := by
  induction bound generalizing c with
  | zero => cases c <;> exact .keep _
  | succ bound ih =>
      cases c with
      | segment c => exact .keep _
      | lock c => exact .keep _
      | file c => exact .keep _
      | context c =>
          cases c with
          | deliver name module notice => exact deliver_mirrors ih name module notice
          | call subscriber notice =>
              refine (Mirrors.keep _).bind fun who =>
                (callBack_mirrors ih (.asked who) who notice).bind fun result => ?_
              cases result with
              | ok done => exact .pure _
              | error e => exact .keep _
          | _ => exact .keep _

end Record

/-! ## Commands from the outside -/

namespace Machine

/-- The machine when a command begins from the outside. -/
def hushed (machine : Machine) : Machine :=
  { machine with host := { machine.host with log := [] }, calls := [] }

/-- What a command from the outside leaves. -/
theorem step_snd (machine : Machine) (c : Command) :
    (machine.step c).2 = Subscription.stateAfter (run nestingBound c machine.hushed) := by
  unfold step hushed
  simp only
  split
  · rename_i hrun
    rw [hrun]
    rfl
  · rename_i hrun
    rw [hrun]
    rfl

/-- What a step reports is what the machine has noted of calls since. -/
theorem calls_step (machine : Machine) (c : Command) :
    (machine.step c).1.calls = (machine.step c).2.calls := by
  unfold step
  simp only
  split <;> rfl

/-- A machine after commands from the outside. -/
def after (machine : Machine) (commands : List Command) : Machine :=
  commands.foldl (fun machine c => (machine.step c).2) machine

/-- What runs beside a command leaves what the step leaves. -/
theorem step_of_shadows {σ : Type} {part : σ → Machine} {x : EStateM Halt σ Answer} {s : σ}
    {c : Command} {machine : Machine} (hx : Shadows part x (run nestingBound c))
    (hs : part s = machine.hushed) : part (Subscription.stateAfter (x s)) = (machine.step c).2 := by
  rw [step_snd, ← hs, ← hx s, stateAfter_mapState]

end Machine

namespace Record

/-- The record when a command begins from the outside. -/
def quiet (r : Record) : Record :=
  { r with machine := { r.machine with host := { r.machine.host with log := [] }, calls := [] } }

/-- The record after a command from the outside. -/
def step (r : Record) (c : Command) : Record :=
  stateAfter (run Machine.nestingBound c r.quiet)

/-- The record after commands from the outside, one after the other. -/
def steps (r : Record) (commands : List Command) : Record := commands.foldl step r

/-- A recorded step is one of the machine. -/
theorem step_machine (r : Record) (c : Command) : (r.step c).machine = (r.machine.step c).2 := by
  have hquiet : r.quiet.machine = r.machine.hushed := rfl
  exact Machine.step_of_shadows (mirrors_iff.1 (run_mirrors Machine.nestingBound c)) hquiet

end Record

end Subscription
