import Subscription.Proofs.QuietMail

/-!
# The replay protocol

Only deliveries write to subscriptions.  A delivery takes its recipients, and at once notes
what becomes of their replays; from then on it owes them a letter each
(`Mailroom.owes_of_take`).  Then it calls them one after the other, and their callbacks may
add and remove subscriptions meanwhile, but what is owed stays owed
(`Mailroom.callAll_faithful`).  This is where callbacks must not deliver themselves: one that
announced the end of a replay would overtake what is replayed and still owed to the others.

So every subscription is sent what the rules of `ReplayProtocol` say, whatever else comes and
goes (`Mailroom.replay_protocol`).  Subscriptions that were made alike, and those that have
moved within their context because others went, keep their own flags, for the rules hold for
each ticket.
-/

namespace Subscription

namespace Mailroom

variable {m m' : Mailroom} {id : ContextId} {module : String} {notice : Notice}

/-! ## Deliveries -/

/-- Each of those that are taken gets the ticket of the target that it is. -/
theorem mapIdx_targets (targets : List (Nat × NotificationSub)) (other : Nat) :
    ((targets.map fun x => Store.recipientOf x.2).mapIdx fun i who =>
        ((targets.map Prod.fst).getD i other, who)) =
      targets.map fun x => (x.1, Store.recipientOf x.2) := by
  apply List.ext_getElem?
  intro i
  simp only [List.getElem?_mapIdx, List.getElem?_map, List.getD_eq_getElem?_getD]
  cases targets[i]? <;> rfl

/-- A delivery that has taken its recipients has noted so, and they are its targets. -/
theorem take_ok (hm : m.Sound) {recipients : List (Nat × Recipient)}
    (hrun : take id module notice m = .ok recipients m') :
    ∃ machine, m' = upTo machine (m.note id module notice) ∧ m'.Sound ∧ Told m m' ∧
      recipients =
        ((m.rosters id).targets module notice).map fun x => (x.1, Store.recipientOf x.2) := by
  have helsewhere := Machine.gather_trimmingBut id module notice m.machine
  unfold take at hrun
  cases hgather : Machine.gather id module notice m.machine with
  | error e machine =>
      rw [hgather] at hrun
      cases hrun
  | ok taken machine =>
      rw [hgather] at hrun helsewhere
      cases hrun
      obtain ⟨store, hstore, htrimmed⟩ := Machine.gather_ok hgather
      obtain ⟨htargets, hmatches⟩ := (hm.matching id).recipients module notice
      rw [hstore] at htargets hmatches
      dsimp only at htargets hmatches
      have hhere : ∃ groups, ((m.note id module notice).rosters id).Matches groups ∧
          (machine.storeAt id).notifications.toList <+: groups.toList := by
        refine ⟨store.notifications, ?_, htrimmed⟩
        simp only [note, Function.update_self]
        exact hmatches
      obtain ⟨hsound, htold⟩ := sound_at hm helsewhere (hm.inOrder.note id module notice).1 rfl
        (fun other hother => Function.update_of_ne hother _ _) hhere
      refine ⟨machine, rfl, hsound, htold, ?_⟩
      rw [htargets, mapIdx_targets]

theorem take_faithful (id : ContextId) (module : String) (notice : Notice) :
    Within faithful (take id module notice) := by
  intro m hm
  cases hrun : take id module notice m with
  | ok recipients m' =>
      obtain ⟨machine, -, hsound, htold, -⟩ := take_ok hm hrun
      exact ⟨hsound, htold⟩
  | error e m' =>
      have hrefused := Machine.gather_refused id module notice m.machine
      unfold take at hrun
      cases hgather : Machine.gather id module notice m.machine with
      | ok taken machine =>
          rw [hgather] at hrun
          cases hrun
      | error e' machine =>
          rw [hgather] at hrun hrefused
          cases hrun
          have hkeeps : (sparing fun _ => False).keeps m _ := upTo_sparing (hrefused nofun)
          exact faithful_of_sparing hkeeps hm

/-- **What a delivery owes** when it has taken its recipients: a letter to each of them, and
no two have the same ticket. -/
theorem owes_of_take (hm : m.Sound) {recipients : List (Nat × Recipient)}
    (hrun : take id module notice m = .ok recipients m') :
    (recipients.map Prod.fst).Nodup ∧ ∀ x ∈ recipients, m'.Owes notice x := by
  obtain ⟨machine, rfl, -, -, rfl⟩ := take_ok hm hrun
  constructor
  · rw [List.map_map]
    exact (hm.inOrder.apart id).sublist (Roster.sublist_targets (m.rosters id) module notice)
  · intro y hy
    obtain ⟨x, hx, rfl⟩ := List.mem_map.1 hy
    have howes := (hm.inOrder.note id module notice).2 x hx
    have hspares : Spares (fun _ => False) _ _ := upTo_spares machine (m.note id module notice)
    exact howes.of_spares hspares not_false

variable {nested : Command → MailM Answer} {bound : Nat}

/-- **The recipients of a delivery** are called one after the other.  What was owed to the
others is still owed when one of them has been called. -/
theorem callAll_faithful
    (hnested : ∀ c : Command, c.delivers = false → Within (sparing fun _ => False) (nested c))
    (failure : Option Error) {recipients : List (Nat × Recipient)}
    (hapart : (recipients.map Prod.fst).Nodup) (howes : ∀ x ∈ recipients, m.Owes notice x) :
    faithful.keeps m (stateAfter (callAll nested module notice failure recipients m)) := by
  induction recipients generalizing m failure with
  | nil => exact faithful.refl m
  | cons x rest ih =>
      obtain ⟨ticket, who⟩ := x
      obtain ⟨hfirst, hrest⟩ := List.nodup_cons.1 hapart
      have hsend : m.MaySend ⟨some ticket, who, notice⟩ := by
        intro other hother
        obtain rfl := Option.some.inj hother
        exact howes _ List.mem_cons_self
      have hcall := callBack_sparing hnested hsend
      intro hm
      refine Within.bind_at (faithful_of_sparing hcall) (fun result mid hrun => ?_) hm
      rw [hrun] at hcall
      have hspares := (hcall hm).2.2
      have hothers : ∀ x ∈ rest, mid.Owes notice x := by
        intro x hx
        have hmem : x.1 ∈ rest.map Prod.fst := List.mem_map_of_mem hx
        refine (howes x (List.mem_cons_of_mem _ hx)).of_spares hspares fun hsame => ?_
        exact hfirst (Option.some.inj hsame ▸ hmem)
      cases result with
      | ok done => exact ih failure hrest hothers
      | error e =>
          have hsay : (sparing fun _ => False).keeps mid _ :=
            sparing_tolerant.keep_aside (Machine.runHost_aside (Host.say .error
              s!"Failed to deliver a notification of \"{module}\" ({e.message}).")) mid
          intro hmid
          refine Within.bind_at (faithful_of_sparing hsay) (fun u last hrun => ?_) hmid
          rw [hrun] at hsay
          exact ih _ hrest fun x hx => (hothers x hx).of_spares (hsay hmid).2.2 not_false

theorem deliver_faithful (name module : String) (notice : Notice) :
    Within faithful (deliver bound (run bound) name module notice) := by
  refine faithful_tolerant.withContext bound name fun id m hm => ?_
  refine Within.bind_at (take_faithful id module notice m) (fun recipients mid hrun => ?_) hm
  obtain ⟨hapart, howes⟩ := owes_of_take hm hrun
  refine Within.bind_at (callAll_faithful (fun c hc => run_sparing bound hc) none hapart howes)
    fun failure last _ => ?_
  cases failure with
  | none => exact faithful.refl last
  | some e => exact faithful_tolerant.keep_aside (.throw _) last

/-! ## Runs -/

/-- **A command** leaves a mailroom that can be relied on, and tells of every call. -/
theorem run_faithful (bound : Nat) (c : Command) : Within faithful (run bound c) := by
  refine faithful_tolerant.run (fun _ => false) ?_ ?_ bound rfl
  · intro bound name module notice _ _
    exact deliver_faithful name module notice
  · intro bound subscriber who notice _ _ m
    refine faithful_of_sparing (callBack_sparing (fun c hc => run_sparing bound hc) ?_)
    exact nofun

/-- What a step does. -/
theorem step_sound (hm : m.Sound) (c : Command) :
    (m.step c).Sound ∧ (m.step c).machine.callbacks = m.machine.callbacks ∧
      ∃ letters, (m.step c).letters = m.letters ++ letters ∧
        List.Forall₂ (Letter.IsCall m.machine.callbacks) letters (m.machine.step c).1.calls := by
  have hhushed : m.hushed.Sound :=
    ⟨hm.prompt, hm.calm, hm.matching, hm.inOrder.thin _ fun _ => List.Subperm.refl _⟩
  obtain ⟨hsound, hcallbacks, letters, calls, hletters, hcalls, hsame⟩ :=
    run_faithful Machine.nestingBound c m.hushed hhushed
  refine ⟨hsound, hcallbacks, letters, hletters, ?_⟩
  have hbare : (m.machine.step c).1.calls.map Call.bare = calls := by
    rw [Machine.calls_step, ← step_machine]
    exact hcalls
  rw [← hbare, List.forall₂_map_right_iff] at hsame
  exact hsame.imp fun letter call h => ⟨h.callback, h.type, h.time⟩

/-- What a run does. -/
theorem steps_sound (hm : m.Sound) (commands : List Command) :
    (m.steps commands).Sound ∧
      ∃ letters, (m.steps commands).letters = m.letters ++ letters ∧
        List.Forall₂ (Letter.IsCall m.machine.callbacks) letters
          ((m.machine.steps commands).flatMap Machine.Report.calls) := by
  induction commands generalizing m with
  | nil => exact ⟨hm, [], (List.append_nil _).symm, .nil⟩
  | cons c rest ih =>
      obtain ⟨hsound, hcallbacks, letters, hletters, hcalls⟩ := step_sound hm c
      obtain ⟨hlast, letters', hletters', hcalls'⟩ := ih hsound
      rw [hcallbacks, step_machine] at hcalls'
      refine ⟨hlast, letters ++ letters', ?_, List.rel_append hcalls hcalls'⟩
      show ((m.step c).steps rest).letters = _
      rw [hletters', hletters, List.append_assoc]

/-! ## Letters without a ticket -/

/-- Every letter has a ticket, as long as no callback calls others without a delivery. -/
def ticketed : Frame Mailroom where
  keeps m m' := m.machine.Prompt → m.machine.Refrains Command.asks →
    m'.machine.Prompt ∧ m'.machine.Refrains Command.asks ∧
      ∀ letter ∈ m'.letters, letter ∈ m.letters ∨ letter.ticket.isSome = true
  refl _ hprompt hasks := ⟨hprompt, hasks, fun _ hletter => .inl hletter⟩
  trans hfirst hnext hprompt hasks := by
    obtain ⟨hprompt, hasks, hletters⟩ := hfirst hprompt hasks
    obtain ⟨hprompt, hasks, hletters'⟩ := hnext hprompt hasks
    refine ⟨hprompt, hasks, fun letter hletter => ?_⟩
    rcases hletters' letter hletter with hold | hticket
    · exact hletters letter hold
    · exact .inr hticket

/-- A machine that calls nobody sends nothing. -/
theorem ticketed_of_quiet {machine : Machine} (hquiet : Machine.quiet.keeps m.machine machine)
    (hletters : m'.letters = m.letters) : ticketed.keeps m (upTo machine m') := by
  intro hprompt hasks
  obtain ⟨hprompt', hcallbacks, -⟩ := hquiet hprompt
  exact ⟨hprompt', hasks.of_callbacks hcallbacks, fun letter hletter => .inl (hletters ▸ hletter)⟩

theorem take_ticketed (id : ContextId) (module : String) (notice : Notice) :
    Within ticketed (take id module notice) := by
  intro m
  have hquiet := Machine.quiet_of_quietly (Machine.gather_trimmingBut id module notice) m.machine
  unfold take
  cases hrun : Machine.gather id module notice m.machine <;> rw [hrun] at hquiet <;>
    exact ticketed_of_quiet hquiet rfl

theorem ticketed_tolerant : Tolerant ticketed where
  keep := by
    intro β act hact m
    have hquiet := Machine.quiet_of_quietly hact m.machine
    unfold keep
    cases hrun : act m.machine <;> rw [hrun] at hquiet <;> exact ticketed_of_quiet hquiet rfl
  enter := by
    intro order work hwork bound id m
    have hquiet := Machine.quiet_of_quietly (Machine.order_trimmingBut hwork id bound) m.machine
    unfold enter
    split <;> rename_i hrun <;> rw [hrun] at hquiet
    · exact ticketed_of_quiet hquiet (carriedOut_letters m id order)
    · exact ticketed_of_quiet hquiet rfl
    · exact ticketed_of_quiet hquiet rfl
  endCall place reactions m hprompt hasks := ⟨hprompt, hasks, fun _ hletter => .inl hletter⟩

theorem callBack_ticketed (hnested : ∀ c : Command, c.asks = false → Within ticketed (nested c))
    (ticket : Nat) (who : Recipient) (notice : Notice) :
    Within ticketed (callBack nested ⟨some ticket, who, notice⟩) := by
  intro m hprompt hasks
  refine ticketed_tolerant.callBack hasks hnested ?_ hprompt hasks
  intro cb shape payload _ _ _ hprompt hasks
  refine ⟨hprompt, hasks, fun letter hletter => ?_⟩
  rcases List.mem_append.1 hletter with hold | hnew
  · exact .inl hold
  · rw [List.mem_singleton.1 hnew]
    exact .inr rfl

theorem callAll_ticketed (hnested : ∀ c : Command, c.asks = false → Within ticketed (nested c))
    (failure : Option Error) (recipients : List (Nat × Recipient)) :
    Within ticketed (callAll nested module notice failure recipients) := by
  induction recipients generalizing failure with
  | nil => exact .pure failure
  | cons x rest ih =>
      obtain ⟨ticket, who⟩ := x
      refine (callBack_ticketed hnested ticket who notice).bind fun result => ?_
      cases result with
      | ok done => exact ih failure
      | error e =>
          exact (ticketed_tolerant.keep_aside (Machine.runHost_aside _)).bind fun _ => ih _

/-- **A letter without a ticket** is only sent by those who call without a delivery. -/
theorem run_ticketed (bound : Nat) {c : Command} (hc : c.asks = false) :
    Within ticketed (run bound c) := by
  refine ticketed_tolerant.run Command.asks ?_ ?_ bound hc
  · intro bound name module notice _ hnested
    refine ticketed_tolerant.withContext bound name fun id => ?_
    refine (take_ticketed id module notice).bind fun recipients => ?_
    refine (callAll_ticketed hnested none recipients).bind fun failure => ?_
    cases failure with
    | none => exact .pure _
    | some e => exact ticketed_tolerant.keep_aside (.throw _)
  · intro bound subscriber who notice hc
    cases hc

theorem steps_ticketed (commands : List Command)
    (hcommands : ∀ c ∈ commands, c.asks = false) :
    ticketed.keeps m (m.steps commands) := by
  induction commands generalizing m with
  | nil => exact ticketed.refl m
  | cons c rest ih =>
      have hhushed : ticketed.keeps m m.hushed := fun hprompt hasks =>
        ⟨hprompt, hasks, fun _ hletter => .inl hletter⟩
      have hstep := run_ticketed Machine.nestingBound (hcommands c List.mem_cons_self) m.hushed
      have hrest := ih (m := m.step c) fun other hother =>
        hcommands other (List.mem_cons_of_mem c hother)
      exact ticketed.trans (ticketed.trans hhushed hstep) hrest

/-! ## The protocol -/

/-- The mailroom of a machine that nobody has subscribed to. -/
def opening (machine : Machine) : Mailroom := ⟨machine, fun _ => .empty, [], []⟩

end Mailroom

/-- Nobody has subscribed to notifications. -/
def Machine.Unheard (machine : Machine) : Prop :=
  ∀ id, (machine.storeAt id).notifications = .empty

namespace Mailroom

variable {machine : Machine}

theorem opening_sound (hprompt : machine.Prompt) (hcalm : machine.Refrains Command.delivers)
    (hunheard : machine.Unheard) : (opening machine).Sound where
  prompt := hprompt
  calm := hcalm
  matching id := by
    show Roster.Matches .empty (machine.storeAt id).notifications
    rw [hunheard id]
    exact Roster.matches_empty
  inOrder := by
    have hnone : ∀ id, ((opening machine).rosters id).entries = [] := fun _ => rfl
    refine ⟨fun id x hx => ?_, fun _ => List.nodup_nil, fun letter hletter => ?_,
      fun ticket e he => ?_, fun id x hx => ?_⟩
    · exact absurd (hnone id ▸ hx) List.not_mem_nil
    · exact absurd hletter List.not_mem_nil
    · cases he
    · exact absurd (hnone id ▸ hx) List.not_mem_nil

/-- **The replay protocol.**  A machine that nobody has subscribed to is given commands; its
registries do not wait for any, and none of its callbacks delivers notifications itself.  The
mailroom of that knows the calls, in their order, and the subscriptions of each context, in
their places.  A call is made for the subscription of its ticket, and only those who call
without a delivery call without a ticket.  Whatever else comes and goes, each subscription is
sent what the rules say. -/
theorem replay_protocol (hprompt : machine.Prompt)
    (hcalm : machine.Refrains Command.delivers) (hunheard : machine.Unheard)
    (commands : List Command) :
    let m := (opening machine).steps commands
    m.machine = machine.after commands ∧
      List.Forall₂ (Letter.IsCall machine.callbacks) m.letters
        ((machine.steps commands).flatMap Machine.Report.calls) ∧
      (machine.Refrains Command.asks → (∀ c ∈ commands, c.asks = false) →
        ∀ letter ∈ m.letters, letter.ticket.isSome = true) ∧
      (∀ id, (m.rosters id).Matches ((machine.after commands).storeAt id).notifications) ∧
      m.InOrder ∧
      ∀ ticket e, m.made[ticket]? = some e → ReplayProtocol e.sub (m.noticesTo ticket) := by
  intro m
  obtain ⟨hsound, letters, hletters, hcalls⟩ :=
    steps_sound (opening_sound hprompt hcalm hunheard) commands
  have hmachine : m.machine = machine.after commands := steps_machine _ commands
  obtain rfl : m.letters = letters := hletters
  refine ⟨hmachine, hcalls, ?_, fun id => ?_, hsound.inOrder, hsound.inOrder.lawful⟩
  · intro hasks hcommands letter hletter
    obtain ⟨-, -, hnew⟩ := steps_ticketed (m := opening machine) commands hcommands hprompt hasks
    rcases hnew letter hletter with hold | hticket
    · cases hold
    · exact hticket
  · rw [← hmachine]
    exact hsound.matching id

/-- A machine with two callbacks, the second of which removes a subscription of the first. -/
def hall : Machine :=
  { Machine.fresh default [] with
    registries := [("registry", .fresh)]
    callbacks :=
      [("first", ⟨"first", some .tree, none⟩),
        ("second", ⟨"second", some .tree,
          some [.context
            (.removeNotification "context" "a" none (some 1) (some 9) ⟨"first", none⟩)]⟩)] }

/-- Somebody subscribes. -/
def subscribing (start stop : Option Int) (callback : String) : Command :=
  .context (.addNotification "context" "a" none start stop ⟨callback, none⟩)

/-- A notification is delivered. -/
def delivering (type : NotificationType) (time : Int) : Command :=
  .context (.deliver "context" "a" ⟨type, none, time, default⟩)

/-- Two subscriptions that were made alike are told of a replay, and one of them goes when the
callback between them is called; another one comes when the replay is over. -/
def evening : List Command :=
  [.context (.create "context" 1 "registry"), subscribing (some 1) (some 9) "first",
    subscribing none none "second", subscribing (some 1) (some 9) "first",
    delivering .replay 3, delivering .replayComplete 4, delivering .realtime 5,
    subscribing (some 5) none "first",
    delivering .replay 6, delivering .replayComplete 7, delivering .replay 8,
    delivering .realtime 10]

theorem hall_prompt : hall.Prompt := by
  intro entry hentry
  obtain rfl := List.mem_singleton.1 hentry
  exact ⟨rfl, rfl⟩

theorem hall_refrains : hall.Refrains Command.delivers := by
  intro entry hentry commands hcommands c hc
  rcases List.mem_cons.1 hentry with rfl | hentry
  · cases hcommands
  · obtain rfl := List.mem_singleton.1 hentry
    obtain rfl := Option.some.inj hcommands
    rw [List.mem_singleton.1 hc]
    rfl

theorem replay_protocol_hall :
    (hall.Prompt ∧ hall.Refrains Command.delivers ∧ hall.Unheard) ∧
      (∀ ticket e, ((opening hall).steps evening).made[ticket]? = some e →
        ReplayProtocol e.sub (((opening hall).steps evening).noticesTo ticket)) ∧
      (((opening hall).steps evening).letters.map fun letter =>
        (letter.ticket, letter.notice.type)) =
          [(some 0, .replay), (some 2, .replay), (some 0, .replayComplete),
            (some 2, .replayComplete), (some 0, .realtime), (some 1, .realtime),
            (some 2, .realtime), (some 3, .replay), (some 3, .replayComplete),
            (some 1, .realtime), (some 3, .realtime)] := by
  have hunheard : hall.Unheard := fun _ => rfl
  obtain ⟨-, -, -, -, -, hrules⟩ := replay_protocol hall_prompt hall_refrains hunheard evening
  exact ⟨⟨hall_prompt, hall_refrains, hunheard⟩, hrules, by decide +kernel⟩

end Mailroom

end Subscription
