import Subscription.Proofs.LetterRules
import Subscription.Proofs.MailFrames

/-!
# Commands that deliver nothing

A mailroom can be relied on (`Mailroom.Sound`) when it is in order and its rosters know the
subscriptions of the contexts.  Commands that deliver nothing leave it so
(`Mailroom.run_sparing`).  They add and remove subscriptions, and when they do, the roster of
the context follows (`Mailroom.enter_sparing`).  They may call a callback directly, but such
a letter goes to no subscription.

A delivery has its callbacks run such commands.  What it owes to others when it calls one of
its recipients, it still owes to them afterwards (`Mailroom.callBack_sparing`).  And all the
while the letters that are sent are the calls that are made (`Mailroom.Told`).
-/

namespace Subscription

/-! ## Letters and calls -/

/-- A call without what came of its commands. -/
def Call.bare (c : Call) : Call := { c with reactions := none }

/-- A letter is a call: its callback is called, with the notification. -/
structure Letter.IsCall (callbacks : Names Callback) (letter : Letter) (call : Call) : Prop where
  callback : ∃ cb shape, callbacks.lookup letter.who.callback = some cb ∧
    cb.shape = some shape ∧ call.callback = cb.id ∧
    Payload.ofNode shape letter.notice.tree = .ok call.payload
  type : call.type = letter.notice.type
  time : call.time = letter.notice.time

namespace Mailroom

variable {m m' m'' : Mailroom} {machine : Machine} {id : ContextId} {mayGet : Nat → Prop}
  {α : Type}

/-- The letters that were sent since are the calls that were made since. -/
structure Told (m m' : Mailroom) : Prop where
  callbacks : m'.machine.callbacks = m.machine.callbacks
  calls : ∃ letters calls, m'.letters = m.letters ++ letters ∧
    m'.machine.calls.map Call.bare = m.machine.calls.map Call.bare ++ calls ∧
    List.Forall₂ (Letter.IsCall m.machine.callbacks) letters calls

theorem Told.of_same (hcallbacks : m'.machine.callbacks = m.machine.callbacks)
    (hcalls : m'.machine.calls.map Call.bare = m.machine.calls.map Call.bare)
    (hletters : m'.letters = m.letters) : Told m m' :=
  ⟨hcallbacks, [], [], by rw [hletters, List.append_nil], by rw [hcalls, List.append_nil], .nil⟩

theorem Told.trans (hfirst : Told m m') (hnext : Told m' m'') : Told m m'' := by
  obtain ⟨letters, calls, hletters, hcalls, hsame⟩ := hfirst.calls
  obtain ⟨letters', calls', hletters', hcalls', hsame'⟩ := hnext.calls
  rw [hfirst.callbacks] at hsame'
  refine ⟨hnext.callbacks.trans hfirst.callbacks, letters ++ letters', calls ++ calls', ?_, ?_,
    List.rel_append hsame hsame'⟩
  · rw [hletters', hletters, List.append_assoc]
  · rw [hcalls', hcalls, List.append_assoc]

/-- A mailroom that can be relied on: it is in order, and its rosters are those of the
contexts. -/
structure Sound (m : Mailroom) : Prop where
  prompt : m.machine.Prompt
  calm : m.machine.Refrains Command.delivers
  matching : ∀ id, (m.rosters id).Matches (m.machine.storeAt id).notifications
  inOrder : m.InOrder

/-- What a run does to a mailroom. -/
def faithful : Frame Mailroom where
  keeps m m' := m.Sound → m'.Sound ∧ Told m m'
  refl _ hm := ⟨hm, .of_same rfl rfl rfl⟩
  trans hfirst hnext hm :=
    have hmid := hfirst hm
    have hlast := hnext hmid.1
    ⟨hlast.1, hmid.2.trans hlast.2⟩

/-- What a run without deliveries does to it. -/
def sparing (mayGet : Nat → Prop) : Frame Mailroom where
  keeps m m' := m.Sound → m'.Sound ∧ Told m m' ∧ Spares mayGet m m'
  refl m hm := ⟨hm, .of_same rfl rfl rfl, .refl m⟩
  trans hfirst hnext hm :=
    have hmid := hfirst hm
    have hlast := hnext hmid.1
    ⟨hlast.1, hmid.2.1.trans hlast.2.1, hmid.2.2.trans hlast.2.2⟩

theorem faithful_of_sparing (hkeeps : (sparing mayGet).keeps m m') : faithful.keeps m m' :=
  fun hm => ⟨(hkeeps hm).1, (hkeeps hm).2.1⟩

theorem sparing_mono {mayGet' : Nat → Prop} {act : MailM α} (hact : Within (sparing mayGet) act)
    (hmay : ∀ ticket, mayGet ticket → mayGet' ticket) : Within (sparing mayGet') act :=
  fun m hm => ⟨(hact m hm).1, (hact m hm).2.1, (hact m hm).2.2.mono hmay⟩

/-! ### The machine goes on -/

/-- Groups that a roster matches may have gone from the end. -/
theorem sound_upTo (hprompt : machine.Prompt) (hcalm : machine.Refrains Command.delivers)
    (hmatching : ∀ id, ∃ groups, (m.rosters id).Matches groups ∧
      (machine.storeAt id).notifications.toList <+: groups.toList)
    (hm : m.InOrder) : (upTo machine m).Sound where
  prompt := hprompt
  calm := hcalm
  matching id := by
    obtain ⟨groups, hmatches, hgroups⟩ := hmatching id
    exact hmatches.keepFirst hgroups
  inOrder := hm.upTo machine

/-- The subscriptions of one context have changed, and its roster has. -/
theorem sound_at (hm : m.Sound)
    (helsewhere : (Machine.trimmingBut id).keeps m.machine machine)
    (hinOrder : m'.InOrder) (hletters : m'.letters = m.letters)
    (hrosters : ∀ other, other ≠ id → m'.rosters other = m.rosters other)
    (hhere : ∃ groups, (m'.rosters id).Matches groups ∧
      (machine.storeAt id).notifications.toList <+: groups.toList) :
    (upTo machine m').Sound ∧ Told m (upTo machine m') := by
  obtain ⟨hprompt, hcallbacks, hcalls, hstores⟩ := helsewhere hm.prompt
  refine ⟨?_, .of_same hcallbacks (congrArg _ hcalls) hletters⟩
  refine sound_upTo hprompt (hm.calm.of_callbacks hcallbacks) (fun other => ?_) hinOrder
  by_cases hother : other = id
  · subst hother
    exact hhere
  · have hstore := hstores other
    rw [Function.update_of_ne hother] at hstore
    rw [hrosters other hother]
    exact ⟨_, hm.matching other, hstore⟩

/-- The machine goes on and calls nobody. -/
theorem upTo_sparing (hquiet : Machine.trimming.keeps m.machine machine) :
    (sparing mayGet).keeps m (upTo machine m) := by
  intro hm
  obtain ⟨hprompt, hcallbacks, hcalls, hstores⟩ := hquiet hm.prompt
  refine ⟨?_, .of_same hcallbacks (by rw [← hcalls]; rfl) rfl, upTo_spares machine m⟩
  exact sound_upTo hprompt (hm.calm.of_callbacks hcallbacks)
    (fun id => ⟨_, hm.matching id, hstores id⟩) hm.inOrder

theorem keep_sparing {act : MachineM α} (hact : Within Machine.trimming act) :
    Within (sparing mayGet) (keep act) := by
  intro m
  have hquiet := hact m.machine
  unfold keep
  cases hrun : act m.machine with
  | ok a machine =>
      rw [hrun] at hquiet
      exact upTo_sparing hquiet
  | error e machine =>
      rw [hrun] at hquiet
      exact upTo_sparing hquiet

/-! ### Calls -/

/-- What came of the commands of a call is not asked for. -/
theorem endCall_sparing (place : Nat) (reactions : List (Except Halt Answer)) :
    Within (sparing mayGet) (keep (Machine.endCall place reactions)) := by
  intro m hm
  have hcalls := Machine.map_calls_endCall Call.bare (fun _ _ => rfl) place reactions m.machine
  refine ⟨?_, .of_same rfl hcalls rfl, upTo_spares _ m⟩
  exact sound_upTo hm.prompt hm.calm (fun id => ⟨_, hm.matching id, List.prefix_refl _⟩) hm.inOrder

/-- A letter that may be sent: it is owed, or goes to no subscription. -/
def MaySend (m : Mailroom) (letter : Letter) : Prop :=
  ∀ ticket, letter.ticket = some ticket → m.Owes letter.notice (ticket, letter.who)

theorem MaySend.of_spares {letter : Letter} (hsend : m.MaySend letter)
    (h : Spares (fun _ => False) m m') : m'.MaySend letter :=
  fun ticket hticket => (hsend ticket hticket).of_spares h not_false

/-- A letter is sent, and its call begins. -/
theorem beginCall_sparing {letter : Letter} (hsend : m.MaySend letter) {cb : Callback}
    {shape : CallShape} {payload : Payload}
    (hcb : m.machine.callbacks.lookup letter.who.callback = some cb)
    (hshape : cb.shape = some shape)
    (hpayload : Payload.ofNode shape letter.notice.tree = .ok payload) :
    (sparing (fun ticket => letter.ticket = some ticket)).keeps m (stateAfter
      (keep (Machine.beginCall cb letter.who letter.notice payload) (m.send letter))) := by
  intro hm
  refine ⟨?_, ⟨rfl, ?_⟩, ?_⟩
  · exact sound_upTo hm.prompt hm.calm (fun id => ⟨_, hm.matching id, List.prefix_refl _⟩)
      (hm.inOrder.send hsend)
  · refine ⟨[letter], [_], rfl, List.map_append, .cons ?_ .nil⟩
    exact ⟨⟨cb, shape, hcb, hshape, rfl, hpayload⟩, rfl, rfl⟩
  · refine Spares.trans ?_ (upTo_spares _ (m.send letter))
    refine ⟨List.prefix_refl _, ⟨[letter], rfl, ?_⟩, fun _ _ hx _ => hx⟩
    intro other hother ticket hticket
    rw [List.mem_singleton.1 hother] at hticket
    exact hticket

/-! ### Orders -/

/-- **An order that was carried out** has done to the groups what it does to the roster. -/
theorem carriedOut_matches {order : Order} {work : Order.Work} {site : Site} {s s' : Store}
    (hmatches : (m.rosters id).Matches s.notifications) (hwork : order.plan = .ok work)
    (hend : (work site s).CanEnd (.ok (), s')) :
    ((m.carriedOut id order).rosters id).Matches s'.notifications := by
  cases order with
  | addChange =>
      obtain ⟨u, rfl⟩ := Order.exists_of_after hwork
      obtain ⟨e, he⟩ | ⟨place, -, he⟩ | ⟨segment, -, he⟩ := Store.ends_of_addChange hend <;> cases he
      · exact hmatches
      · exact hmatches
  | removeChange =>
      cases hwork
      obtain ⟨f, he⟩ | ⟨place, entry, -, he⟩ := Store.ends_of_removeChange hend <;> cases he
      exact hmatches
  | addData =>
      obtain ⟨u, rfl⟩ := Order.exists_of_after hwork
      obtain ⟨e, he⟩ | ⟨segment, he⟩ := Store.ends_of_addService hend <;> cases he
      exact hmatches
  | removeData =>
      cases hwork
      obtain ⟨f, he⟩ | ⟨place, entry, -, he⟩ := Store.ends_of_removeService hend <;> cases he
      exact hmatches
  | addRpc =>
      obtain ⟨u, rfl⟩ := Order.exists_of_after hwork
      obtain ⟨e, he⟩ | ⟨segment, he⟩ := Store.ends_of_addService hend <;> cases he
      exact hmatches
  | removeRpc xpath callback data =>
      cases hmodule : XPath.firstModule xpath with
      | none => simp [Order.plan, hmodule] at hwork
      | some module =>
          simp only [Order.plan, hmodule, Except.ok.injEq] at hwork
          subst hwork
          obtain ⟨f, he⟩ | ⟨place, entry, -, he⟩ := Store.ends_of_removeService hend <;> cases he
          exact hmatches
  | addNotification module xpath start stop callback data =>
      cases hfilter : parseFilter xpath with
      | error e => simp [Order.plan, Order.after, hfilter] at hwork
      | ok filter =>
          simp only [Order.plan, Order.after, hfilter, Except.ok.injEq] at hwork
          subst hwork
          simp only [carriedOut, hfilter, join, Function.update_self]
          obtain ⟨e, he⟩ | ⟨place, hplace, he⟩ | ⟨segment, hplace, he⟩ :=
            Store.ends_of_addNotification hend <;> cases he
          · exact hmatches.insert hplace
          · exact hmatches.insertNew hplace segment
  | removeNotification module xpath start stop callback data =>
      cases hwork
      simp only [carriedOut, leave, Function.update_self]
      obtain ⟨f, he⟩ | ⟨place, entry, hlocate, he⟩ := Store.ends_of_removeNotification hend <;>
        cases he
      exact hmatches.leave hlocate

/-- An order leaves the mailroom in order, and brings and takes away subscriptions only. -/
theorem InOrder.carriedOut (h : m.InOrder) (id : ContextId) (order : Order)
    {mayGet : Nat → Prop} :
    (m.carriedOut id order).InOrder ∧ Spares mayGet m (m.carriedOut id order) := by
  cases order with
  | addNotification module xpath start stop callback data =>
      simp only [Mailroom.carriedOut]
      split
      · exact ⟨h.join id module _, join_spares m id module _⟩
      · exact ⟨h, .refl m⟩
  | removeNotification module xpath start stop callback data =>
      exact ⟨h.leave id module _, leave_spares m id module _⟩
  | _ => exact ⟨h, .refl m⟩

theorem carriedOut_letters (m : Mailroom) (id : ContextId) (order : Order) :
    (m.carriedOut id order).letters = m.letters := by
  cases order with
  | addNotification module xpath start stop callback data =>
      simp only [carriedOut]
      split <;> rfl
  | _ => rfl

theorem carriedOut_rosters_of_ne {id other : ContextId} (order : Order) (hother : other ≠ id) :
    (m.carriedOut id order).rosters other = m.rosters other := by
  cases order with
  | addNotification module xpath start stop callback data =>
      simp only [carriedOut]
      split
      · exact Function.update_of_ne hother _ _
      · rfl
  | removeNotification module xpath start stop callback data =>
      exact Function.update_of_ne hother _ _
  | _ => rfl

/-- The groups after an order that was carried out are matched, or gone. -/
theorem exists_matches_of_ok {order : Order} {work : Order.Work} {bound : Nat}
    (hwork : order.plan = .ok work)
    (hmatches : (m.rosters id).Matches (m.machine.storeAt id).notifications)
    (hrun : Machine.whileLocked id order.operation
      (fun _ => Machine.runPlan (Machine.run bound) id work) m.machine = .ok (.ok ()) machine) :
    ∃ groups, ((m.carriedOut id order).rosters id).Matches groups ∧
      (machine.storeAt id).notifications.toList <+: groups.toList := by
  obtain ⟨site, store, hend, htrimmed⟩ := Machine.exists_canEnd_of_order id hrun
  exact ⟨store.notifications, carriedOut_matches hmatches hwork hend, htrimmed⟩

/-- **An order** is entered when it has been carried out. -/
theorem enter_sparing {order : Order} {work : Order.Work} (hwork : order.plan = .ok work)
    (bound : Nat) (id : ContextId) :
    Within (sparing mayGet) (enter (·.carriedOut id order)
      (Machine.whileLocked id order.operation fun _ =>
        Machine.runPlan (Machine.run bound) id work)) := by
  intro m
  have hrefused := Machine.refused_trimming hwork id bound m.machine
  have helsewhere := Machine.order_trimmingBut hwork id bound m.machine
  unfold enter
  cases hrun : Machine.whileLocked id order.operation
      (fun _ => Machine.runPlan (Machine.run bound) id work) m.machine with
  | error e machine =>
      rw [hrun] at hrefused
      exact upTo_sparing (hrefused nofun)
  | ok result machine =>
      rw [hrun] at hrefused helsewhere
      cases result with
      | error f => exact upTo_sparing (hrefused nofun)
      | ok u =>
          intro hm
          obtain ⟨hinOrder, hspares⟩ := hm.inOrder.carriedOut id order
          have hhere := exists_matches_of_ok hwork (hm.matching id) hrun
          obtain ⟨hsound, htold⟩ := sound_at hm helsewhere hinOrder
            (carriedOut_letters m id order) (fun _ => carriedOut_rosters_of_ne order) hhere
          exact ⟨hsound, htold, hspares.trans (upTo_spares machine _)⟩

/-! ### Commands -/

theorem sparing_tolerant : Tolerant (sparing mayGet) where
  keep := keep_sparing
  enter := enter_sparing
  endCall := endCall_sparing

variable {nested : Command → MailM Answer}

/-- **A callback is called** with a letter that may be sent, and nobody else gets one. -/
theorem callBack_sparing
    (hnested : ∀ c : Command, c.delivers = false → Within (sparing fun _ => False) (nested c))
    {letter : Letter} (hsend : m.MaySend letter) :
    (sparing (fun ticket => letter.ticket = some ticket)).keeps m
      (stateAfter (callBack nested letter m)) := by
  intro hm
  refine sparing_tolerant.callBack hm.calm (fun c hc => ?_)
    (fun cb shape payload hlookup hshape hpayload => ?_) hm
  · exact sparing_mono (hnested c hc) fun _ => False.elim
  · exact beginCall_sparing (hsend.of_spares (upTo_spares m.machine m)) hlookup hshape hpayload

/-- Whatever spares everybody is faithful. -/
theorem faithful_tolerant : Tolerant faithful where
  keep hact m :=
    have hkeeps : (sparing fun _ => False).keeps m _ := keep_sparing hact m
    faithful_of_sparing hkeeps
  enter hwork bound id m :=
    have hkeeps : (sparing fun _ => False).keeps m _ := enter_sparing hwork bound id m
    faithful_of_sparing hkeeps
  endCall place reactions m :=
    have hkeeps : (sparing fun _ => False).keeps m _ := endCall_sparing place reactions m
    faithful_of_sparing hkeeps

/-- **A command that delivers nothing** sends no letter to any subscription. -/
theorem run_sparing (bound : Nat) {c : Command} (hc : c.delivers = false) :
    Within (sparing fun _ => False) (run bound c) := by
  refine sparing_tolerant.run Command.delivers ?_ ?_ bound hc
  · intro bound name module notice hc
    cases hc
  · intro bound subscriber who notice _ hnested
    refine sparing_mono (fun m => callBack_sparing hnested ?_) nofun
    exact nofun

end Mailroom

end Subscription
