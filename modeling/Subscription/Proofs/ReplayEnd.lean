import Subscription.Proofs.Delivery

/-!
# The end of a replay

The end of a replay comes once: a subscription that has got it is told nothing more of
replays.  That it has got it is noted when the recipients are taken, before anybody is called.
So where nothing can be made for a callback, the replay of its subscription is over all the
same, although the subscription has not heard of it, and no later end comes to it.

This is the only way in which an end gets lost.  A delivery leaves every replay as it should
be (`NotificationSub.HearsEnd`) just when something can be made for everybody who awaits it
(`Machine.Servable`): `Machine.Ready.ends_are_heard_iff`.  In general an end does get lost
(`Machine.end_is_lost_unheard`).
-/

namespace Subscription

/-- Nothing is against making of a tree what a callback takes. -/
def Machine.Servable (machine : Machine) (tree : Option Node) (callback : CallbackId) : Prop :=
  ∀ cb shape, machine.callbacks.lookup callback = some cb → cb.shape = some shape →
    ∀ e, ¬Payload.Refused shape tree e

namespace NotificationSub

variable {nested : Command → MachineM Answer} {machine m m' : Machine} {module : String}
  {notice : Notice} {sub : NotificationSub} {fate : Fate} {tree : Option Node} {time : Int}

/-- **The end of a replay as it should be**: the replay is over from now on only if the
callback was called.  Where nothing could be made for it, the subscription still awaits every
later end, unless its filter does not select the tree that comes with it. -/
structure HearsEnd (notice : Notice) (sub : NotificationSub) (fate : Fate) : Prop where
  heard : sub.replayed = false → (sub.after notice.type notice.tree notice.time).replayed = true →
    ∃ call more, fate = .called call more
  goesOn : ∀ e, fate = .refused e → ∀ later time,
    (∀ f ∈ sub.filter, ∀ node ∈ later, f.selects node = true) →
      (sub.after notice.type notice.tree notice.time).Awaits .replayComplete later time

theorem after_of_awaits (hawaits : sub.Awaits .replayComplete tree time) :
    sub.after .replayComplete tree time = { sub with replayed := true } :=
  if_pos ⟨rfl, hawaits⟩

theorem after_of_not_awaits {type : NotificationType} (hother : ¬sub.Awaits type tree time) :
    sub.after type tree time = sub :=
  if_neg fun hawaits => hother hawaits.2

/-- Whoever has awaited an end awaits no other. -/
theorem not_awaits_after (hawaits : sub.Awaits .replayComplete tree time)
    (later : Option Node) (time' : Int) :
    ¬(sub.after .replayComplete tree time).Awaits .replayComplete later time' := by
  rw [after_of_awaits hawaits]
  exact not_awaits_of_replayed rfl

/-- It is as it should be for a subscription just when nothing is against it. -/
theorem hearsEnd_iff (hend : notice.type = .replayComplete)
    (hfares : sub.Fares nested machine module notice m fate m') :
    sub.HearsEnd notice fate ↔ (sub.Awaits notice.type notice.tree notice.time →
      machine.Servable notice.tree sub.callback) := by
  cases hfares with
  | passedOver hother =>
      constructor
      · intro _ hawaits
        exact absurd hawaits hother
      · intro _
        constructor
        · intro hopen hover
          rw [after_of_not_awaits hother, hopen] at hover
          cases hover
        · intro e hrefused
          cases hrefused
  | refused hawaits hcb hshape hrefused =>
      constructor
      · intro hhears
        rw [hend] at hawaits
        have hlater := hhears.goesOn _ rfl notice.tree notice.time hawaits.selected
        rw [hend] at hlater
        exact absurd hlater (not_awaits_after hawaits _ _)
      · intro hservable
        exact absurd hrefused (hservable hawaits _ _ hcb hshape _)
  | called hawaits hcb hshape hpayload =>
      constructor
      · intro _ _ cb shape hcb' hshape' e hrefused
        cases hcb.symm.trans hcb'
        cases hshape.symm.trans hshape'
        cases hpayload.symm.trans (Payload.ofNode_eq_error_iff.2 hrefused)
      · intro _
        constructor
        · intro _ _
          exact ⟨_, _, rfl⟩
        · intro e hrefused
          cases hrefused

end NotificationSub

namespace Machine

variable {machine : Machine} {name module : String} {id : ContextId} {c : Context}

/-- It is as it should be for all of them just when nothing is against any. -/
theorem Delivers.forall₂_hearsEnd_iff {nested : Command → MachineM Answer} {notice : Notice}
    {subs : List NotificationSub} {m m' : Machine} {fates : List Fate}
    (hend : notice.type = .replayComplete)
    (hdelivers : Delivers nested machine module notice subs m fates m') :
    List.Forall₂ (NotificationSub.HearsEnd notice) subs fates ↔
      ∀ sub ∈ subs, sub.Awaits notice.type notice.tree notice.time →
        machine.Servable notice.tree sub.callback := by
  induction hdelivers with
  | nil => simp
  | cons hfirst _ ih =>
      rw [List.forall₂_cons, List.forall_mem_cons, ih, NotificationSub.hearsEnd_iff hend hfirst]

/-- **Which ends are heard.**  The end of a replay is noted with everybody who awaits it when
the recipients are taken: none of them awaits an end again.  They are called only then, and
whatever the callbacks do meanwhile, all is as it should be just when something can be made
for the callback of each of them. -/
theorem Ready.ends_are_heard_iff (hready : machine.Ready name id c) (notice : Notice)
    (hend : notice.type = .replayComplete) (bound : Nat)
    (hcallable : ∀ sub ∈ c.store.subscribers module,
      sub.Awaits notice.type notice.tree notice.time → machine.Callable sub.callback) :
    ∃ taken fates called,
      gather id module notice (machine.held id) =
        .ok (c.store.audience module notice.type notice.tree notice.time) taken ∧
      taken.contexts[id]? = some { c with
        holders := c.holders + 1
        store := c.store.after module notice.type notice.tree notice.time } ∧
      (c.store.after module notice.type notice.tree notice.time).subscribers module =
        (c.store.subscribers module).map (·.after notice.type notice.tree notice.time) ∧
      (∀ sub ∈ c.store.subscribers module, sub.Awaits notice.type notice.tree notice.time →
        ∀ later time, ¬(sub.after notice.type notice.tree notice.time).Awaits
          .replayComplete later time) ∧
      callAll (run bound) module notice none
          (c.store.audience module notice.type notice.tree notice.time) taken =
        .ok (Fate.firstRefusal fates) called ∧
      called.calls = machine.calls ++ fates.flatMap Fate.calls ∧
      run (bound + 1) (.context (.deliver name module notice)) machine =
        (do
          releaseContext (run bound) id
          ofExcept (delivered (c.store.audience module notice.type notice.tree notice.time)
            (Fate.firstRefusal fates)) : MachineM Answer) called ∧
      Delivers (run bound) machine module notice (c.store.subscribers module) taken fates called ∧
      (List.Forall₂ (NotificationSub.HearsEnd notice) (c.store.subscribers module) fates ↔
        ∀ sub ∈ c.store.subscribers module, sub.Awaits notice.type notice.tree notice.time →
          machine.Servable notice.tree sub.callback) := by
  obtain ⟨taken, fates, called, hgather, htaken, hcalled, hdelivers, hcalls, hdeliver⟩ :=
    hready.exists_of_deliver bound hcallable
  have hover : ∀ sub ∈ c.store.subscribers module,
      sub.Awaits notice.type notice.tree notice.time → ∀ later time,
        ¬(sub.after notice.type notice.tree notice.time).Awaits .replayComplete later time := by
    intro sub _ hawaits later time
    rw [hend] at hawaits ⊢
    exact NotificationSub.not_awaits_after hawaits later time
  exact ⟨taken, fates, called, hgather, htaken, Store.subscribers_after, hover, hcalled,
    hcalls, hdeliver, hdelivers, hdelivers.forall₂_hearsEnd_iff hend⟩

open Newsroom in
/-- Something can be made for the second of two recipients only, or for both of them. -/
theorem ends_are_heard_iff_newsroom :
    (∃ taken fates called,
      Delivers (run 0) newsroom "m" ⟨.replayComplete, some alarm, 5, default⟩
        [reader, past, writer] taken fates called ∧
      ¬List.Forall₂ (NotificationSub.HearsEnd ⟨.replayComplete, some alarm, 5, default⟩)
        [reader, past, writer] fates) ∧
    ∃ taken fates called,
      Delivers (run 0) newsroom "m" ⟨.replayComplete, none, 5, default⟩
        [reader, past, writer] taken fates called ∧
      List.Forall₂ (NotificationSub.HearsEnd ⟨.replayComplete, none, 5, default⟩)
        [reader, past, writer] fates := by
  have hcallable : ∀ tree, ∀ sub ∈ context.store.subscribers "m",
      sub.Awaits .replayComplete tree 5 → newsroom.Callable sub.callback :=
    fun _ sub hsub _ => newsroom_callable sub hsub
  obtain ⟨taken, fates, called, -, -, -, -, -, -, -, hdelivers, hheard⟩ :=
    newsroom_ready.ends_are_heard_iff ⟨.replayComplete, some alarm, 5, default⟩ rfl 0
      (hcallable (some alarm))
  obtain ⟨taken', fates', called', -, -, -, -, -, -, -, hdelivers', hheard'⟩ :=
    newsroom_ready.ends_are_heard_iff ⟨.replayComplete, none, 5, default⟩ rfl 0 (hcallable none)
  rw [subscribers_newsroom] at hdelivers hheard hdelivers' hheard'
  refine ⟨⟨taken, fates, called, hdelivers, fun hall => ?_⟩, taken', fates', called', hdelivers',
    hheard'.2 ?_⟩
  · have hservable := hheard.1 hall reader (by decide) (by decide)
    exact hservable ⟨"reader", some .values, none⟩ .values rfl rfl _
      (Payload.ofNode_eq_error_iff.1 alarm_refused)
  · intro sub _ _ cb shape _ _ e hrefused
    cases hrefused

/-! ## An end that is lost -/

/-- A machine with one callback, which takes trees. -/
def lonely : Machine :=
  { Machine.fresh default [] with
    registries := [("registry", .fresh)]
    callbacks := [("callback", ⟨"callback", some .tree, none⟩)] }

/-- The callback subscribes for a replay. -/
def subscribed : Machine :=
  ((lonely.step (.context (.create "context" 1 "registry"))).2.step
    (.context (.addNotification "context" "m" none (some 0) none ⟨"callback", none⟩))).2

/-- The end of a replay comes to the module. -/
def ending (tree : Option Node) : Command :=
  .context (.deliver "context" "m" ⟨.replayComplete, tree, 100, default⟩)

/-- **An end can be lost.**  The tree of the first end is not that of a notification, and the
callback is not called.  The replay is over for it even so, and the second end comes to nobody. -/
theorem end_is_lost_unheard :
    let first := subscribed.step (ending (some (Node.container "m" "c")))
    let second := first.2.step (ending none)
    (subscribed.contexts.flatMap fun c => c.store.subscribers "m").map (·.replayed) = [false] ∧
      (first.1.result matches .error (.failure (.error (.fault (.notNotification "/m:c"))))) ∧
      first.1.calls.length = 0 ∧
      (first.2.contexts.flatMap fun c => c.store.subscribers "m").map (·.replayed) = [true] ∧
      (second.1.result matches .ok (.number 0)) ∧ second.1.calls.length = 0 := by
  decide +kernel

end Machine

end Subscription
