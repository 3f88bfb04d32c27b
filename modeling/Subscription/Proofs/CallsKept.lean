import Subscription.Proofs.CallDiary

/-!
# Calls stay noted

A callback may run any commands, and these may call any callbacks.  Whatever they do, the
calls that were noted before stay as they are and those that are made now are noted behind
them, and callbacks and private data are the same throughout (`Machine.run_noting`).

That is a matter of places: what came of the commands of a call is entered when they are
through, in a note that was made before them.  So a call is looked at as a whole
(`Machine.CallsOnce`).  It leaves one note more, with what came of its commands, and behind it
what was noted while these were run, from the note on and once (`Machine.exists_of_call`).
There is one way for that to go (`Machine.CallsOnce.unique`), and commands that are not about
contexts leave nothing behind the note (`Machine.CallsOnce.more_eq_nil`).
-/

namespace Subscription

namespace Machine

/-- Callbacks and private data stay what they are, and calls stay noted. -/
def noting : Frame Machine where
  keeps machine machine' := machine'.callbacks = machine.callbacks ∧
    machine'.privateData = machine.privateData ∧ machine.calls <+: machine'.calls
  refl _ := ⟨rfl, rfl, List.prefix_rfl⟩
  trans hfirst hnext :=
    ⟨hnext.1.trans hfirst.1, hnext.2.1.trans hfirst.2.1, hfirst.2.2.trans hnext.2.2⟩

variable {α : Type} {machine : Machine}

theorem noting_of_aside {act : MachineM α} (hact : Within aside act) : Within noting act := by
  intro machine
  obtain ⟨-, -, hcallbacks, hcalls, hdata⟩ := hact machine
  exact ⟨hcallbacks, hdata, hcalls ▸ List.prefix_rfl⟩

theorem updateContext_noting (id : ContextId) (change : Context → Context) :
    Within noting (updateContext id change) :=
  .modify fun _ => ⟨rfl, rfl, List.prefix_rfl⟩

theorem whileLocked_noting (id : ContextId) (operation : String) {act : Context → MachineM α}
    (hact : ∀ c, Within noting (act c)) : Within noting (whileLocked id operation act) := by
  apply (noting_of_aside (contextAt_aside id)).bind
  intro c
  split
  · exact Within.bind Within.get fun _ => (noting_of_aside (runHost_aside _)).bind fun _ => .throw _
  · exact (updateContext_noting id _).bind fun _ => (hact c).attempt.bind fun result =>
      (updateContext_noting id _).bind fun _ => .ofExcept result

theorem gather_noting (id : ContextId) (module : String) (notice : Notice) :
    Within noting (gather id module notice) :=
  whileLocked_noting id _ fun _ => (updateContext_noting id _).bind fun _ => .pure _

/-! ## One call -/

/-- The note of a call that begins. -/
def noteOf (machine : Machine) (cb : Callback) (r : Recipient) (notice : Notice)
    (payload : Payload) : Call :=
  { callback := cb.id
    session := { datastore := .operational, event := .notif, sid := notice.sid }
    type := notice.type
    time := notice.time
    data := r.data.bind fun name => machine.privateData.lookup name
    payload
    reactions := cb.commands.map fun _ => [] }

variable {nested : Command → MachineM Answer}

/-- What a recipient is called with, if it is called. -/
theorem callBack_eq (nested : Command → MachineM Answer) (r : Recipient) {cb : Callback}
    {shape : CallShape} (hcb : machine.callbacks.lookup r.callback = some cb)
    (hshape : cb.shape = some shape) (notice : Notice) : callBack nested r notice machine =
      match Payload.ofNode shape notice.tree with
      | .error e => .ok (.error e) machine
      | .ok payload => (beginCall cb r notice payload >>= attend nested cb) machine := by
  unfold callBack
  rw [bind_of_ok (find_of_some hcb)]
  simp only [hshape]
  cases Payload.ofNode shape notice.tree with
  | error e => rfl
  | ok payload => rfl

/-- The machine when one more call is noted. -/
def withNote (machine : Machine) (note : Call) : Machine :=
  { machine with calls := machine.calls ++ [note] }

/-- **A callback is called once.**  Its note comes behind those of the calls before, and that is
all for a callback without commands.  Where there are commands, they are run once from there on:
what is noted behind the note when they are through are the calls that they have made, and what
came of each of them is entered in the note. -/
inductive CallsOnce (nested : Command → MachineM Answer) (cb : Callback) (note : Call)
    (machine : Machine) : Call → List Call → Machine → Prop
  | idle (hidle : cb.commands = none) :
      CallsOnce nested cb note machine note [] (machine.withNote note)
  | busy {commands : List Command} {reactions : List (Except Halt Answer)} {more : List Call}
      {mid : Machine} (hbusy : cb.commands = some commands)
      (hreact : react nested commands (machine.withNote note) = .ok reactions mid)
      (hmore : mid.calls = machine.calls ++ note :: more) :
      CallsOnce nested cb note machine { note with reactions := some reactions } more
        { mid with calls := machine.calls ++ { note with reactions := some reactions } :: more }

theorem react_within {F : Frame Machine} {commands : List Command}
    (hcommands : ∀ c ∈ commands, Within F (nested c)) : Within F (react nested commands) := by
  induction commands with
  | nil => exact .pure []
  | cons c rest ih =>
      obtain ⟨hfirst, hrest⟩ := List.forall_mem_cons.1 hcommands
      exact hfirst.attempt.bind fun _ => (ih hrest).bind fun _ => .pure _

/-- A command of a callback may fail, and the next one is run all the same. -/
theorem exists_of_react (nested : Command → MachineM Answer) (commands : List Command)
    (machine : Machine) : ∃ reactions machine',
      react nested commands machine = .ok reactions machine' ∧
        reactions.length = commands.length := by
  induction commands generalizing machine with
  | nil => exact ⟨[], machine, rfl, rfl⟩
  | cons c rest ih =>
      obtain ⟨first, mid, hfirst⟩ : ∃ first mid,
          (attempt (nested c) : MachineM (Except Halt Answer)) machine = .ok first mid := by
        cases hrun : nested c machine with
        | ok answer mid => exact ⟨_, mid, attempt_of_ok hrun⟩
        | error halt mid => exact ⟨_, mid, attempt_of_error hrun⟩
      obtain ⟨reactions, machine', hreact, hlength⟩ := ih mid
      unfold react
      rw [bind_of_ok hfirst, bind_of_ok hreact]
      exact ⟨_, machine', rfl, congrArg (· + 1) hlength⟩

namespace CallsOnce

variable {cb : Callback} {note call : Call} {more : List Call} {machine' : Machine}

theorem calls (honce : CallsOnce nested cb note machine call more machine') :
    machine'.calls = machine.calls ++ call :: more := by
  cases honce with
  | idle => rfl
  | busy => rfl

/-- The note says what it said when the call began, but for what came of the commands. -/
theorem eq_note (honce : CallsOnce nested cb note machine call more machine') :
    call = { note with reactions := call.reactions } := by
  cases honce with
  | idle => rfl
  | busy => rfl

/-- What the commands come to settles everything: there is one way for a call to go. -/
theorem unique {call₁ : Call} {more₁ : List Call} {machine₁ : Machine}
    (honce : CallsOnce nested cb note machine call more machine')
    (hother : CallsOnce nested cb note machine call₁ more₁ machine₁) :
    call₁ = call ∧ more₁ = more ∧ machine₁ = machine' := by
  cases honce with
  | idle hidle =>
      cases hother with
      | idle => exact ⟨rfl, rfl, rfl⟩
      | busy hbusy => cases hidle.symm.trans hbusy
  | busy hbusy hreact hmore =>
      cases hother with
      | idle hidle => cases hidle.symm.trans hbusy
      | busy hbusy₁ hreact₁ hmore₁ =>
          cases hbusy.symm.trans hbusy₁
          cases hreact.symm.trans hreact₁
          have hsame := List.append_cancel_left (hmore₁.symm.trans hmore)
          cases hsame
          exact ⟨rfl, rfl, rfl⟩

/-- There is one answer to each command. -/
theorem reactions_length (honce : CallsOnce nested cb note machine call more machine')
    (hnote : note.reactions = cb.commands.map fun _ => []) :
    call.reactions.map List.length = cb.commands.map List.length := by
  cases honce with
  | idle hidle =>
      rw [hnote, hidle]
      rfl
  | busy hbusy hreact =>
      obtain ⟨reactions, machine', hreact', hlength⟩ := exists_of_react nested _ _
      cases hreact.symm.trans hreact'
      rw [hbusy]
      exact congrArg some hlength

/-- Commands that are not about contexts call nobody. -/
theorem more_eq_nil (honce : CallsOnce nested cb note machine call more machine')
    (hcommands : ∀ c ∈ cb.commands.getD [], Within aside (nested c)) : more = [] := by
  cases honce with
  | idle => rfl
  | busy hbusy hreact hmore =>
      rw [hbusy, Option.getD_some] at hcommands
      have hkept := react_within hcommands (machine.withNote note)
      rw [hreact] at hkept
      have hcalls : machine.calls ++ note :: more = machine.calls ++ [note] :=
        hmore.symm.trans hkept.2.2.2.1
      simpa using hcalls

end CallsOnce

section Calls

variable (hnested : ∀ c, Within noting (nested c))
include hnested

/-- **A call** does not fail, and is one. -/
theorem exists_of_call (cb : Callback) (r : Recipient) (notice : Notice) (payload : Payload)
    (machine : Machine) : ∃ call more machine',
      (beginCall cb r notice payload >>= attend nested cb) machine = .ok (.ok ()) machine' ∧
      noting.keeps machine machine' ∧
      CallsOnce nested cb (machine.noteOf cb r notice payload) machine call more machine' := by
  let note := machine.noteOf cb r notice payload
  have hbegin : beginCall cb r notice payload machine =
      .ok machine.calls.length (machine.withNote note) := rfl
  rw [bind_of_ok hbegin, attend]
  cases hcommands : cb.commands with
  | none => exact ⟨_, _, _, rfl, ⟨rfl, rfl, List.prefix_append _ _⟩, .idle hcommands⟩
  | some commands =>
      obtain ⟨reactions, mid, hreact, -⟩ :=
        exists_of_react nested commands (machine.withNote note)
      have hreacts : Within noting (react nested commands) := react_within fun c _ => hnested c
      have hkept : noting.keeps (machine.withNote note) mid := by
        have hkept := hreacts (machine.withNote note)
        rwa [hreact] at hkept
      obtain ⟨hcallbacks, hdata, more, hcalls⟩ := hkept
      have hmore : mid.calls = machine.calls ++ note :: more := by
        rw [← hcalls, withNote, List.append_assoc]
        rfl
      have hentered : mid.calls.modify machine.calls.length
          (fun call => { call with reactions := some reactions }) =
            machine.calls ++ { note with reactions := some reactions } :: more := by
        rw [hmore, List.modify_eq_take_drop]
        simp
      have hend : endCall machine.calls.length reactions mid = .ok () { mid with
          calls := machine.calls ++ { note with reactions := some reactions } :: more } := by
        rw [← hentered]
        rfl
      simp only [bind_of_ok hreact, bind_of_ok hend]
      exact ⟨_, more, _, rfl, ⟨hcallbacks, hdata, List.prefix_append _ _⟩,
        .busy hcommands hreact hmore⟩

theorem callBack_noting (r : Recipient) (notice : Notice) :
    Within noting (callBack nested r notice) := by
  intro machine
  cases hcb : machine.callbacks.lookup r.callback with
  | none =>
      unfold callBack
      rw [bind_of_error (find_of_none hcb)]
      exact noting.refl machine
  | some cb =>
      cases hshape : cb.shape with
      | none =>
          unfold callBack
          rw [bind_of_ok (find_of_some hcb)]
          simp only [hshape]
          exact noting.refl machine
      | some shape =>
          rw [callBack_eq _ _ hcb hshape]
          cases Payload.ofNode shape notice.tree with
          | error e => exact noting.refl machine
          | ok payload =>
              obtain ⟨call, more, machine', hrun, hkeeps, -⟩ :=
                exists_of_call hnested cb r notice payload machine
              simp only [hrun]
              exact hkeeps

theorem callAll_noting (module : String) (notice : Notice) (failure : Option Error)
    (recipients : List Recipient) :
    Within noting (callAll nested module notice failure recipients) := by
  induction recipients generalizing failure with
  | nil => exact .pure failure
  | cons r rest ih =>
      apply (callBack_noting hnested r notice).bind
      intro result
      cases result with
      | ok done => exact ih failure
      | error e => exact (noting_of_aside (runHost_aside _)).bind fun _ => ih _

/-! ## Registries -/

theorem unlessFails_noting (c : Command) {act : MachineM (Except Error α)}
    (hact : Within noting act) : Within noting (unlessFails nested c act) := by
  apply (hnested c).attempt.bind
  intro result
  cases result with
  | ok answer => exact hact
  | error halt =>
      cases halt with
      | unknown name => exact hact
      | failure f =>
          cases f with
          | error e => exact .pure _
          | abort a => exact .throw _

theorem publish_noting (name : String) (d : Descriptor) :
    Within noting (publish nested name d) := by
  have htable : Within noting (publishTable name d) :=
    (noting_of_aside (find_aside _ _)).bind fun r =>
      .bind (.modify fun _ => ⟨rfl, rfl, List.prefix_rfl⟩) fun _ => .pure _
  have hnext : Within noting (nextPublishing name) := by
    apply (noting_of_aside (find_aside _ _)).bind
    intro r
    cases r.publishing with
    | nil => exact .pure _
    | cons reply rest =>
        exact .bind (.modify fun _ => ⟨rfl, rfl, List.prefix_rfl⟩) fun _ => .pure _
  apply hnext.bind
  intro reply
  cases reply with
  | table => exact htable
  | fail e => exact .pure _
  | answer b => exact .pure _
  | after c => exact unlessFails_noting hnested c htable

theorem retract_noting (name : String) (d : Descriptor) :
    Within noting (retract nested name d) := by
  have htable : Within noting (retractTable name d) := by
    apply (noting_of_aside (find_aside _ _)).bind
    intro r
    cases r.table.retract d with
    | error e => exact .pure _
    | ok answer =>
        exact .bind (.modify fun _ => ⟨rfl, rfl, List.prefix_rfl⟩) fun _ => .pure _
  have hnext : Within noting (nextRetracting name) := by
    apply (noting_of_aside (find_aside _ _)).bind
    intro r
    cases r.retracting with
    | nil => exact .pure _
    | cons reply rest =>
        exact .bind (.modify fun _ => ⟨rfl, rfl, List.prefix_rfl⟩) fun _ => .pure _
  apply hnext.bind
  intro reply
  cases reply with
  | table => exact htable
  | fail e => exact .pure _
  | answer b => exact .pure _
  | after c => exact unlessFails_noting hnested c htable

/-! ## Contexts -/

theorem planRun_noting (id : ContextId) (registry : String) (cfg : Config) (plan : Plan α) :
    Within noting (plan.run ((handler nested id registry).answer cfg)) := by
  induction plan with
  | done result => exact .pure result
  | ask r next ih =>
      have hanswer : Within noting ((handler nested id registry).answer cfg r) := by
        cases r with
        | openSegment key kind => exact noting_of_aside (safely_aside _)
        | removeSegment key => exact noting_of_aside (safely_aside _)
        | publish d => exact publish_noting hnested registry d
        | retract d => exact retract_noting hnested registry d
        | note line => exact noting_of_aside (safely_aside (Host.say line.level line.text))
        | settle s => exact updateContext_noting id _
      exact hanswer.bind ih

theorem runPlan_noting (id : ContextId) (plan : Site → Store → Plan Store.Ending) :
    Within noting (runPlan nested id plan) :=
  (noting_of_aside (contextAt_aside id)).bind fun c => Within.bind Within.get fun _ =>
    (planRun_noting hnested id c.registry _ _).bind fun _ =>
      (updateContext_noting id _).bind fun _ => .pure _

theorem releaseContext_noting (id : ContextId) : Within noting (releaseContext nested id) := by
  have habandon : Within noting (abandon nested id) := by
    apply (noting_of_aside (contextAt_aside id)).bind
    intro c
    cases c.store.isEmpty with
    | true => exact .pure ()
    | false =>
        apply (runPlan_noting hnested id _).bind
        intro result
        cases result with
        | ok done => exact .pure ()
        | error f =>
            cases f with
            | error e => exact noting_of_aside (runHost_aside _)
            | abort a => exact .pure ()
  apply (updateContext_noting id _).bind
  intro _
  apply (noting_of_aside (contextAt_aside id)).bind
  intro c
  split
  · exact habandon
  · exact .pure ()

theorem withContext_noting (name : String) {act : ContextId → MachineM α}
    (hact : ∀ id, Within noting (act id)) : Within noting (withContext nested name act) :=
  (noting_of_aside (find_aside _ name)).bind fun id => (updateContext_noting id _).bind fun _ =>
    (hact id).attempt.bind fun result =>
      (releaseContext_noting hnested id).bind fun _ => .ofExcept result

theorem operate_noting (name operation : String) (plan : Site → Store → Plan Store.Ending) :
    Within noting (operate nested name operation plan) := by
  apply withContext_noting hnested name
  intro id
  apply (whileLocked_noting id operation fun _ => runPlan_noting hnested id plan).bind
  intro result
  cases result with
  | ok done => exact .pure _
  | error f => exact .throw _

theorem carryOut_noting (name : String) (order : Order) :
    Within noting (carryOut nested name order) := by
  unfold carryOut
  cases order.plan with
  | error f => exact .throw _
  | ok work => exact operate_noting hnested name _ work

theorem deliver_noting (name module : String) (notice : Notice) :
    Within noting (deliver nested name module notice) := by
  apply withContext_noting hnested name
  intro id
  apply (gather_noting id module notice).bind
  intro recipients
  apply (callAll_noting hnested module notice none recipients).bind
  intro failure
  cases failure with
  | none => exact .pure _
  | some e => exact .throw _

/-! ## Commands -/

theorem runContext_noting (c : ContextCommand) : Within noting (runContext nested c) := by
  cases horder : c.order? with
  | some given =>
      obtain ⟨name, subscriber, order⟩ := given
      rw [runContext_of_order nested horder]
      exact (noting_of_aside (subscriberOf_aside _)).bind fun who =>
        carryOut_noting hnested name (order who)
  | none =>
      cases c with
      | create name pipe registry =>
          apply (noting_of_aside (find_aside _ registry)).bind
          intro _
          apply Within.bind Within.get
          intro machine
          refine .bind (.modify fun _ => ⟨rfl, rfl, List.prefix_rfl⟩) fun _ => ?_
          cases machine.contextNames.lookup name with
          | none => exact .pure _
          | some old => exact (releaseContext_noting hnested old).bind fun _ => .pure _
      | drop name =>
          apply Within.bind Within.get
          intro machine
          cases machine.contextNames.lookup name with
          | none => exact .pure _
          | some id =>
              exact .bind (.modify fun _ => ⟨rfl, rfl, List.prefix_rfl⟩) fun _ =>
                (releaseContext_noting hnested id).bind fun _ => .pure _
      | count name registry modules =>
          exact noting_of_aside ((find_aside _ _).bind fun _ => (contextAt_aside _).bind fun _ =>
            (find_aside _ _).bind fun _ => .pure _)
      | removeAll name => exact operate_noting hnested name _ _
      | poll name timeout =>
          apply withContext_noting hnested name
          intro id
          apply Within.bind (whileLocked_noting id _ fun c => ?_)
          · intro result
            cases result with
            | ok news => exact .pure _
            | error f => exact .throw _
          · exact fun machine => ⟨rfl, rfl, List.prefix_rfl⟩
      | sameCallback a b =>
          exact noting_of_aside ((find_aside _ _).bind fun _ =>
            (find_aside _ _).bind fun _ => .pure _)
      | sharedCallbacks => exact .pure _
      | publish registry d =>
          exact (publish_noting hnested registry d).bind fun _ =>
            (noting_of_aside (checked_aside _)).bind fun _ => .pure _
      | retract registry d =>
          exact (retract_noting hnested registry d).bind fun _ =>
            (noting_of_aside (checked_aside _)).bind fun _ => .pure _
      | registryState registry keys =>
          exact noting_of_aside ((find_aside _ _).bind fun _ => .pure _)
      | deliver name module notice => exact deliver_noting hnested name module notice
      | call subscriber notice =>
          apply (noting_of_aside (subscriberOf_aside subscriber)).bind
          intro who
          apply (callBack_noting hnested who notice).bind
          intro result
          cases result with
          | ok done => exact .pure _
          | error e => exact .throw _
      | _ => cases horder

end Calls

/-- **Calls stay noted** whatever a command does. -/
theorem run_noting (bound : Nat) (c : Command) : Within noting (run bound c) := by
  induction bound generalizing c with
  | zero =>
      cases c with
      | segment c => exact noting_of_aside (runSegment_aside c)
      | lock c => exact noting_of_aside (runLock_aside c)
      | file c => exact noting_of_aside (runFile_aside c)
      | context c => exact .throw _
  | succ bound ih =>
      cases c with
      | segment c => exact noting_of_aside (runSegment_aside c)
      | lock c => exact noting_of_aside (runLock_aside c)
      | file c => exact noting_of_aside (runFile_aside c)
      | context c => exact runContext_noting ih c

end Machine

end Subscription
