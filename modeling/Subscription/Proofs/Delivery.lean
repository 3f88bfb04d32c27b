import Mathlib.Data.List.Induction
import Subscription.Proofs.Audience
import Subscription.Proofs.CallsKept

/-!
# Deliveries

A delivery takes its recipients while the subscriptions are locked and calls them afterwards,
one after the other.  In between, callbacks run commands of their own, and some recipients
cannot be called at all.  Neither must keep the notification from those who come later, and
nobody must get it twice.

* Every subscription of the module has one fate in a delivery (`Fate`): it is passed over, or
  nothing could be made for its callback, or the callback is called once.  Which one it is
  depends on the subscription and the notification alone, so not on the others; only what the
  commands of a callback come to depends on what the machine is by then
  (`NotificationSub.Fares`).
* The fates come in the order of the store, each from where the one before has left the machine
  (`Machine.Delivers`, `Machine.exists_of_callAll`).  The calls that are noted are theirs, with
  those that their own commands have made behind each of them (`Machine.Delivers.calls`).
* The first failure is reported at the end, and the subscriptions are what taking the
  recipients has made of them, when no callback touches the context
  (`Machine.Ready.reaches_whoever_awaits`).
-/

namespace Subscription

/-! ## Fates -/

/-- What becomes of a subscription in a delivery. -/
inductive Fate where
  /-- The notification is not for it. -/
  | passedOver
  /-- Nothing could be made for its callback. -/
  | refused (e : Error)
  /-- Its callback is called, and runs commands that make more calls. -/
  | called (call : Call) (more : List Call)

namespace Fate

def refusal? : Fate → Option Error
  | refused e => some e
  | _ => none

/-- The calls that are noted. -/
def calls : Fate → List Call
  | called call more => call :: more
  | _ => []

/-- The first failure, if there has been one. -/
def firstRefusal (fates : List Fate) : Option Error := fates.findSome? refusal?

end Fate

namespace Machine

/-- A callback takes notifications. -/
def Callable (machine : Machine) (callback : CallbackId) : Prop :=
  ∃ cb shape, machine.callbacks.lookup callback = some cb ∧ cb.shape = some shape

/-- The machine when it is written down that somebody could not be called. -/
def warned (machine : Machine) (module : String) (e : Error) : Machine :=
  { machine with
    host := machine.host.note .error
      s!"Failed to deliver a notification of \"{module}\" ({e.message})." }

end Machine

/-- **What becomes of a subscription** in a delivery of `notice`, and of the machine meanwhile.
Callbacks and private data are those of `machine`, where the delivery began.  Whoever is called
is called once, and the calls that come behind its own are those of its commands. -/
inductive NotificationSub.Fares (nested : Command → MachineM Answer) (machine : Machine)
    (module : String) (notice : Notice) (sub : NotificationSub) (m : Machine) :
    Fate → Machine → Prop
  | passedOver (hother : ¬sub.Awaits notice.type notice.tree notice.time) :
      Fares nested machine module notice sub m .passedOver m
  | refused {cb : Callback} {shape : CallShape} {e : Error}
      (hawaits : sub.Awaits notice.type notice.tree notice.time)
      (hcb : machine.callbacks.lookup sub.callback = some cb) (hshape : cb.shape = some shape)
      (hrefused : Payload.Refused shape notice.tree e) :
      Fares nested machine module notice sub m (.refused e) (m.warned module e)
  | called {cb : Callback} {shape : CallShape} {payload : Payload} {call : Call}
      {more : List Call} {m' : Machine}
      (hawaits : sub.Awaits notice.type notice.tree notice.time)
      (hcb : machine.callbacks.lookup sub.callback = some cb) (hshape : cb.shape = some shape)
      (hpayload : Payload.ofNode shape notice.tree = .ok payload)
      (honce : Machine.CallsOnce nested cb
        (machine.noteOf cb (Store.recipientOf sub) notice payload) m call more m') :
      Fares nested machine module notice sub m (.called call more) m'

/-- **A delivery to subscriptions**, one after the other: each fate begins where the one before
it has left the machine. -/
inductive Machine.Delivers (nested : Command → MachineM Answer) (machine : Machine)
    (module : String) (notice : Notice) :
    List NotificationSub → Machine → List Fate → Machine → Prop
  | nil (m : Machine) : Delivers nested machine module notice [] m [] m
  | cons {sub : NotificationSub} {rest : List NotificationSub} {fate : Fate}
      {fates : List Fate} {m mid m' : Machine}
      (hfirst : sub.Fares nested machine module notice m fate mid)
      (hrest : Delivers nested machine module notice rest mid fates m') :
      Delivers nested machine module notice (sub :: rest) m (fate :: fates) m'

namespace NotificationSub.Fares

variable {nested : Command → MachineM Answer} {machine m m' : Machine} {module : String}
  {notice : Notice} {sub : NotificationSub} {fate : Fate} {cb : Callback} {shape : CallShape}

/-- A notification that is not for a subscription passes it over. -/
theorem eq_passedOver (hfares : sub.Fares nested machine module notice m fate m')
    (hother : ¬sub.Awaits notice.type notice.tree notice.time) : fate = .passedOver := by
  cases hfares with
  | passedOver => rfl
  | refused hawaits => exact absurd hawaits hother
  | called hawaits => exact absurd hawaits hother

/-- A callback for which nothing can be made is not called. -/
theorem eq_refused {e : Error} (hfares : sub.Fares nested machine module notice m fate m')
    (hawaits : sub.Awaits notice.type notice.tree notice.time)
    (hcb : machine.callbacks.lookup sub.callback = some cb) (hshape : cb.shape = some shape)
    (hmade : Payload.ofNode shape notice.tree = .error e) : fate = .refused e := by
  cases hfares with
  | passedOver hother => exact absurd hawaits hother
  | refused _ hcb' hshape' hrefused =>
      cases hcb.symm.trans hcb'
      cases hshape.symm.trans hshape'
      cases hmade.symm.trans (Payload.ofNode_eq_error_iff.2 hrefused)
      rfl
  | called _ hcb' hshape' hpayload =>
      cases hcb.symm.trans hcb'
      cases hshape.symm.trans hshape'
      cases hmade.symm.trans hpayload

/-- Every other callback is called once. -/
theorem exists_called {payload : Payload}
    (hfares : sub.Fares nested machine module notice m fate m')
    (hawaits : sub.Awaits notice.type notice.tree notice.time)
    (hcb : machine.callbacks.lookup sub.callback = some cb) (hshape : cb.shape = some shape)
    (hmade : Payload.ofNode shape notice.tree = .ok payload) :
    ∃ call more, fate = .called call more ∧ Machine.CallsOnce nested cb
      (machine.noteOf cb (Store.recipientOf sub) notice payload) m call more m' := by
  cases hfares with
  | passedOver hother => exact absurd hawaits hother
  | refused _ hcb' hshape' hrefused =>
      cases hcb.symm.trans hcb'
      cases hshape.symm.trans hshape'
      cases hmade.symm.trans (Payload.ofNode_eq_error_iff.2 hrefused)
  | called _ hcb' hshape' hpayload honce =>
      cases hcb.symm.trans hcb'
      cases hshape.symm.trans hshape'
      cases hmade.symm.trans hpayload
      exact ⟨_, _, rfl, honce⟩

end NotificationSub.Fares

namespace Machine

variable {nested : Command → MachineM Answer} {machine taken m : Machine} {id : ContextId}
  {module : String} {notice : Notice} {failure : Option Error}

/-! ## Calling the recipients -/

section Calling

variable {r : Recipient} {recipients : List Recipient}

theorem callAll_of_called {m' : Machine} (hcalled : callBack nested r notice m = .ok (.ok ()) m') :
    callAll nested module notice failure (r :: recipients) m =
      callAll nested module notice failure recipients m' :=
  bind_of_ok hcalled

/-- A failure is written down, and the next one is called all the same. -/
theorem callAll_of_refused {m' : Machine} {e : Error}
    (hrefused : callBack nested r notice m = .ok (.error e) m') :
    callAll nested module notice failure (r :: recipients) m =
      callAll nested module notice (failure.or (some e)) recipients (m'.warned module e) :=
  (bind_of_ok hrefused).trans rfl

theorem callAll_append (before after : List Recipient) :
    callAll nested module notice failure (before ++ after) =
      (do
        let failure ← callAll nested module notice failure before
        callAll nested module notice failure after : MachineM (Option Error)) := by
  induction before generalizing failure with
  | nil => rfl
  | cons r rest ih =>
      rw [List.cons_append, callAll, callAll, bind_assoc]
      congr 1
      funext result
      cases result with
      | ok done => exact ih
      | error e =>
          simp only [bind_assoc]
          congr 1
          funext _
          exact ih

end Calling

/-- The note of a call is made of what does not change. -/
theorem noteOf_congr (hdata : m.privateData = machine.privateData) (cb : Callback)
    (r : Recipient) (payload : Payload) :
    m.noteOf cb r notice payload = machine.noteOf cb r notice payload := by
  rw [noteOf, noteOf, hdata]

namespace Delivers

variable {sub : NotificationSub} {subs : List NotificationSub} {fates : List Fate} {m' : Machine}

theorem exists_of_cons
    (hdelivers : Delivers nested machine module notice (sub :: subs) m fates m') :
    ∃ fate rest mid, fates = fate :: rest ∧
      sub.Fares nested machine module notice m fate mid ∧
      Delivers nested machine module notice subs mid rest m' := by
  cases hdelivers with
  | cons hfirst hrest => exact ⟨_, _, _, rfl, hfirst, hrest⟩

/-- The calls that are noted are those of the fates, and no others. -/
theorem calls (hdelivers : Delivers nested machine module notice subs m fates m') :
    m'.calls = m.calls ++ fates.flatMap Fate.calls := by
  induction hdelivers with
  | nil => exact (List.append_nil _).symm
  | cons hfirst _ ih =>
      rw [ih, List.flatMap_cons, ← List.append_assoc]
      congr 1
      cases hfirst with
      | passedOver => exact (List.append_nil _).symm
      | refused => exact (List.append_nil _).symm
      | called _ _ _ _ honce => exact honce.calls

end Delivers

/-- **Everybody has a fate**, in the order of the store, whatever became of those before. -/
theorem exists_of_callAll (hnested : ∀ c, Within noting (nested c)) (module : String)
    {subs : List NotificationSub}
    (hcallable : ∀ sub ∈ subs, sub.Awaits notice.type notice.tree notice.time →
      machine.Callable sub.callback)
    (failure : Option Error) (hkept : noting.keeps machine m) :
    ∃ fates m', Delivers nested machine module notice subs m fates m' ∧
      callAll nested module notice failure ((subs.filter fun sub =>
        sub.Awaits notice.type notice.tree notice.time).map Store.recipientOf) m =
          .ok (failure.or (Fate.firstRefusal fates)) m' := by
  induction subs generalizing failure m with
  | nil =>
      refine ⟨[], m, .nil m, ?_⟩
      rw [Fate.firstRefusal, List.findSome?_nil, Option.or_none]
      rfl
  | cons sub rest ih =>
      obtain ⟨hfirst, hrest⟩ := List.forall_mem_cons.1 hcallable
      by_cases hawaits : sub.Awaits notice.type notice.tree notice.time
      · obtain ⟨cb, shape, hcb, hshape⟩ := hfirst hawaits
        have hthere : m.callbacks.lookup sub.callback = some cb := by rw [hkept.1, hcb]
        have hcall := callBack_eq nested (Store.recipientOf sub) hthere hshape notice
        rw [List.filter_cons_of_pos (by simpa using hawaits), List.map_cons]
        cases hmade : Payload.ofNode shape notice.tree with
        | error e =>
            rw [hmade] at hcall
            obtain ⟨fates, m', hfates, hrun⟩ :=
              ih hrest (m := m.warned module e) (failure.or (some e)) hkept
            have hfare : sub.Fares nested machine module notice m (.refused e) _ :=
              .refused hawaits hcb hshape (Payload.ofNode_eq_error_iff.1 hmade)
            refine ⟨.refused e :: fates, m', .cons hfare hfates, ?_⟩
            rw [callAll_of_refused hcall, hrun, Option.or_assoc]
            rfl
        | ok payload =>
            rw [hmade] at hcall
            obtain ⟨call, more, mid, hmake, hkept₁, honce⟩ :=
              exists_of_call hnested cb (Store.recipientOf sub) notice payload m
            rw [noteOf_congr hkept.2.1] at honce
            obtain ⟨fates, m', hfates, hrun⟩ := ih hrest failure (noting.trans hkept hkept₁)
            refine ⟨.called call more :: fates, m',
              .cons (.called hawaits hcb hshape hmade honce) hfates, ?_⟩
            rw [callAll_of_called (hcall.trans hmake), hrun]
            rfl
      · obtain ⟨fates, m', hfates, hrun⟩ := ih hrest failure hkept
        rw [List.filter_cons_of_neg (by simpa using hawaits)]
        exact ⟨.passedOver :: fates, m', .cons (.passedOver hawaits) hfates, hrun⟩

/-! ## The context -/

/-- A context that can deliver: it has a name, which holds it, nobody works on its
subscriptions, and they came about as subscriptions do. -/
structure Ready (machine : Machine) (name : String) (id : ContextId) (c : Context) : Prop where
  named : machine.contextNames.lookup name = some id
  there : machine.contexts[id]? = some c
  idle : c.busy = false
  held : 0 < c.holders
  reachable : c.store.Reachable

/-- The machine when one more holds a context. -/
def held (machine : Machine) (id : ContextId) : Machine :=
  { machine with
    contexts := machine.contexts.modify id fun c => { c with holders := c.holders + 1 } }

/-- The machine when one of those who hold a context has let it go. -/
def letGo (machine : Machine) (id : ContextId) : Machine :=
  { machine with
    contexts := machine.contexts.modify id fun c => { c with holders := c.holders - 1 } }

variable {name : String} {c : Context}

theorem getElem?_held (hthere : machine.contexts[id]? = some c) :
    (machine.held id).contexts[id]? = some { c with holders := c.holders + 1 } := by
  simp [held, hthere]

/-- **Taking the recipients** of a context that nobody works on. -/
theorem Ready.exists_of_gather (hready : machine.Ready name id c) (module : String)
    (notice : Notice) : ∃ taken,
      gather id module notice (machine.held id) =
        .ok (c.store.audience module notice.type notice.tree notice.time) taken ∧
      taken.contexts[id]? = some { c with
        holders := c.holders + 1
        store := c.store.after module notice.type notice.tree notice.time } ∧
      noting.keeps machine taken ∧ taken.calls = machine.calls := by
  have hheld := getElem?_held hready.there
  have hcontext : (machine.held id).contexts.getD id default =
      { c with holders := c.holders + 1 } := by
    rw [List.getD_eq_getElem?_getD, hheld]
    rfl
  have hidle : ((machine.held id).contexts.getD id default).busy ≠ true := by
    rw [hcontext, hready.idle]
    exact Bool.false_ne_true
  unfold gather
  rw [whileLocked_eq hidle, hcontext, Store.recipients_eq hready.reachable.orderly.tidy]
  refine ⟨_, rfl, ?_, ⟨rfl, rfl, List.prefix_rfl⟩, rfl⟩
  simp only [marked, List.getElem?_modify_eq, hheld, hready.idle]
  rfl

/-- A holder lets a context go that is held by others. -/
theorem releaseContext_of_held (hthere : m.contexts[id]? = some c) (hheld : 1 < c.holders) :
    releaseContext nested id m = .ok () (m.letGo id) := by
  have hlet : updateContext id (fun c => { c with holders := c.holders - 1 }) m =
      .ok () (m.letGo id) := rfl
  have hcontext : contextAt id (m.letGo id) =
      .ok { c with holders := c.holders - 1 } (m.letGo id) := by
    change EStateM.Result.ok ((m.letGo id).contexts.getD id default) (m.letGo id) = _
    simp [letGo, hthere]
  have hleft : ¬({ c with holders := c.holders - 1 } : Context).holders = 0 := by
    change ¬c.holders - 1 = 0
    omega
  unfold releaseContext
  rw [bind_of_ok hlet, bind_of_ok hcontext, if_neg hleft]
  rfl

/-- What a delivery comes to when its recipients were called. -/
def delivered (recipients : List Recipient) : Option Error → Except Halt Answer
  | none => .ok (.number recipients.length)
  | some e => .error (.failure (.error e))

/-- A delivery takes its recipients, calls them and lets its context go. -/
theorem deliver_eq {recipients : List Recipient}
    (hnamed : machine.contextNames.lookup name = some id)
    (hgather : gather id module notice (machine.held id) = .ok recipients taken)
    (hcalled : callAll nested module notice none recipients taken = .ok failure m) :
    deliver nested name module notice machine =
      (do
        releaseContext nested id
        ofExcept (delivered recipients failure) : MachineM Answer) m := by
  have hhold : updateContext id (fun c => { c with holders := c.holders + 1 }) machine =
      .ok () (machine.held id) := rfl
  have hact : (do
      let recipients ← gather id module notice
      match ← callAll nested module notice none recipients with
      | none => return .number recipients.length
      | some e => fail e : MachineM Answer) (machine.held id) =
        (ofExcept (delivered recipients failure) : MachineM Answer) m := by
    rw [bind_of_ok hgather, bind_of_ok hcalled]
    cases failure <;> rfl
  unfold deliver withContext
  rw [bind_of_ok (find_of_some hnamed), bind_of_ok hhold]
  cases failure with
  | none => exact bind_of_ok (attempt_of_ok hact)
  | some e => exact bind_of_ok (attempt_of_error hact)

/-- **How a delivery goes**: the recipients are taken, each of them has its fate, and the context
is let go. -/
theorem Ready.exists_of_deliver (hready : machine.Ready name id c) (bound : Nat)
    (hcallable : ∀ sub ∈ c.store.subscribers module,
      sub.Awaits notice.type notice.tree notice.time → machine.Callable sub.callback) :
    ∃ taken fates called,
      gather id module notice (machine.held id) =
        .ok (c.store.audience module notice.type notice.tree notice.time) taken ∧
      taken.contexts[id]? = some { c with
        holders := c.holders + 1
        store := c.store.after module notice.type notice.tree notice.time } ∧
      callAll (run bound) module notice none
          (c.store.audience module notice.type notice.tree notice.time) taken =
        .ok (Fate.firstRefusal fates) called ∧
      Delivers (run bound) machine module notice (c.store.subscribers module) taken fates called ∧
      called.calls = machine.calls ++ fates.flatMap Fate.calls ∧
      run (bound + 1) (.context (.deliver name module notice)) machine =
        (do
          releaseContext (run bound) id
          ofExcept (delivered (c.store.audience module notice.type notice.tree notice.time)
            (Fate.firstRefusal fates)) : MachineM Answer) called := by
  obtain ⟨taken, hgather, htaken, hkept, hcalls⟩ := hready.exists_of_gather module notice
  obtain ⟨fates, called, hdelivers, hcalled⟩ :=
    exists_of_callAll (run_noting bound) module hcallable none hkept
  rw [Option.none_or] at hcalled
  have hcalls' := hdelivers.calls
  rw [hcalls] at hcalls'
  exact ⟨taken, fates, called, hgather, htaken, hcalled, hdelivers, hcalls',
    deliver_eq hready.named hgather hcalled⟩

/-- **The callbacks do not touch a context**: when a delivery has taken its recipients and has
called some of them, the next call leaves the context as it finds it. -/
def LeftAlone (nested : Command → MachineM Answer) (machine : Machine) (id : ContextId)
    (module : String) (notice : Notice) : Prop :=
  ∀ before r rest taken failure m,
    gather id module notice (machine.held id) = .ok (before ++ r :: rest) taken →
    callAll nested module notice none before taken = .ok failure m →
    (Subscription.stateAfter (callBack nested r notice m)).contexts[id]? = m.contexts[id]?

/-- Then the whole delivery leaves it as it was when the recipients were taken. -/
theorem LeftAlone.context (halone : LeftAlone nested machine id module notice)
    (before rest : List Recipient)
    (hgather : gather id module notice (machine.held id) = .ok (before ++ rest) taken)
    (hcalled : callAll nested module notice none before taken = .ok failure m) :
    m.contexts[id]? = taken.contexts[id]? := by
  induction before using List.reverseRecOn generalizing rest failure m with
  | nil =>
      cases hcalled
      rfl
  | append_singleton before r ih =>
      rw [List.append_assoc] at hgather
      rw [callAll_append] at hcalled
      obtain ⟨failure₁, m₁, hbefore, hlast⟩ := exists_of_bind_ok hcalled
      rw [← ih _ hgather hbefore]
      have hcall := halone before r rest taken failure₁ m₁ hgather hbefore
      obtain ⟨result, m₂, hback, hrest⟩ := exists_of_bind_ok hlast
      rw [hback] at hcall
      rw [← hcall]
      cases result with
      | ok done =>
          cases hrest
          rfl
      | error e =>
          cases hrest
          rfl

section Commands

/-- A context stays as it is. -/
def keeping (id : ContextId) : Frame Machine where
  keeps machine machine' := machine'.contexts[id]? = machine.contexts[id]?
  refl _ := rfl
  trans hfirst hnext := hnext.trans hfirst

theorem keeping_of_aside {α : Type} {act : MachineM α} (hact : Within aside act) :
    Within (keeping id) act := by
  intro machine
  change (Subscription.stateAfter (act machine)).contexts[id]? = machine.contexts[id]?
  rw [(hact machine).1]

/-- A call does to a context what the commands of its callback do. -/
theorem callBack_keeping (r : Recipient) (notice : Notice)
    (hcommands : ∀ cb, m.callbacks.lookup r.callback = some cb →
      ∀ command ∈ cb.commands.getD [], Within (keeping id) (nested command)) :
    (keeping id).keeps m (Subscription.stateAfter (callBack nested r notice m)) := by
  unfold callBack
  cases hcb : m.callbacks.lookup r.callback with
  | none =>
      rw [bind_of_error (find_of_none hcb)]
      exact (keeping id).refl m
  | some cb =>
      have hattend : ∀ place, Within (keeping id) (attend nested cb place) := by
        intro place
        have hown := hcommands cb hcb
        unfold attend
        cases hcb : cb.commands with
        | none => exact .pure _
        | some commands =>
            rw [hcb] at hown
            exact (react_within hown).bind fun _ => .bind (.modify fun _ => rfl) fun _ => .pure _
      rw [bind_of_ok (find_of_some hcb)]
      cases cb.shape with
      | none => exact (keeping id).refl m
      | some shape =>
          cases hmade : Payload.ofNode shape notice.tree with
          | error e =>
              simp only [hmade]
              exact (keeping id).refl m
          | ok payload =>
              simp only [hmade]
              exact hattend m.calls.length (m.withNote (m.noteOf cb r notice payload))

/-- Callbacks whose commands do not touch a context do not touch it. -/
theorem leftAlone_of_commands (hnested : ∀ c, Within noting (nested c))
    (hcommands : ∀ callback cb, machine.callbacks.lookup callback = some cb →
      ∀ command ∈ cb.commands.getD [], Within (keeping id) (nested command))
    (module : String) (notice : Notice) : LeftAlone nested machine id module notice := by
  intro before r rest taken failure m hgather hcalled
  have htaken : noting.keeps (machine.held id) taken := by
    have hkept := gather_noting id module notice (machine.held id)
    rwa [hgather] at hkept
  have hkept := callAll_noting hnested module notice none before taken
  rw [hcalled] at hkept
  have hcallbacks : m.callbacks = machine.callbacks := hkept.1.trans htaken.1
  apply callBack_keeping r notice
  intro cb hcb
  rw [hcallbacks] at hcb
  exact hcommands r.callback cb hcb

end Commands

/-- **A delivery reaches whoever awaits the notification.**  When its recipients are taken, every
subscription of the module has its fate, in the order of the store.  The calls that are noted
are those of the callbacks that were called, each of them once, with the calls behind it that
its own commands have made.  If nothing failed, the answer is how many subscriptions have
awaited the notification, and otherwise the first failure.  The context is what it was but for
the end of a replay. -/
theorem Ready.reaches_whoever_awaits (hready : machine.Ready name id c) (bound : Nat)
    (hcallable : ∀ sub ∈ c.store.subscribers module,
      sub.Awaits notice.type notice.tree notice.time → machine.Callable sub.callback)
    (halone : LeftAlone (run bound) machine id module notice) :
    ∃ taken fates called,
      gather id module notice (machine.held id) =
        .ok (c.store.audience module notice.type notice.tree notice.time) taken ∧
      Delivers (run bound) machine module notice (c.store.subscribers module) taken fates called ∧
      run (bound + 1) (.context (.deliver name module notice)) machine =
        (match Fate.firstRefusal fates with
        | none => .ok (.number ((c.store.subscribers module).countP fun sub =>
            sub.Awaits notice.type notice.tree notice.time)) (called.letGo id)
        | some e => .error (.failure (.error e)) (called.letGo id)) ∧
      (called.letGo id).calls = machine.calls ++ fates.flatMap Fate.calls ∧
      (called.letGo id).contexts[id]? = some { c with
        store := c.store.after module notice.type notice.tree notice.time } := by
  obtain ⟨taken, fates, called, hgather, htaken, hcalled, hdelivers, hcalls, hdeliver⟩ :=
    hready.exists_of_deliver bound hcallable
  have hcontext : called.contexts[id]? = taken.contexts[id]? :=
    halone.context _ [] (by rw [List.append_nil]; exact hgather) hcalled
  rw [htaken] at hcontext
  have hrelease : releaseContext (run bound) id called = .ok () (called.letGo id) :=
    releaseContext_of_held hcontext (Nat.succ_lt_succ hready.held)
  refine ⟨taken, fates, called, hgather, hdelivers,
    (hdeliver.trans (bind_of_ok hrelease)).trans ?_, hcalls, ?_⟩
  · rw [List.countP_eq_length_filter]
    cases Fate.firstRefusal fates with
    | none => simp [delivered, ofExcept, Store.audience]
    | some e => rfl
  · simp [letGo, hcontext]

/-! ## A delivery of which one fails -/

namespace Newsroom

/-- A subscription of a replay for a callback that takes values. -/
def reader : NotificationSub := ⟨none, some 0, none, false, "reader", none⟩

/-- A subscription that has come to its end. -/
def past : NotificationSub := ⟨none, none, some 1, false, "reader", none⟩

/-- A subscription of a replay for a callback that takes trees and writes a file. -/
def writer : NotificationSub := ⟨none, some 0, none, false, "writer", none⟩

/-- Subscriptions on a segment that the first of them has opened. -/
def holding (subs : List NotificationSub) : Store :=
  { Store.empty with notifications := ⟨[⟨⟨"m", default⟩, ⟨subs⟩⟩]⟩ }

/-- A context with all three of them. -/
def context : Context := ⟨7, "registry", holding [reader, past, writer], false, 1⟩

def newsroom : Machine :=
  { Machine.fresh default [] with
    contexts := [context]
    contextNames := [("context", 0)]
    callbacks :=
      [("reader", ⟨"reader", some .values, none⟩),
        ("writer", ⟨"writer", some .tree, some [.file (.write "note" [])]⟩)] }

/-- An alarm with a value that is none. -/
def alarm : Node := (Node.notification "m" "alarm").withChild (Node.leaf "m" "on" .boolean "maybe")

theorem holding_reachable : (holding [reader, past, writer]).Reachable := by
  have hplan : ∀ start stop callback,
      (Order.addNotification "m" none start stop callback none).plan =
        .ok fun site s => s.addNotification site "m" ⟨none, start, stop, false, callback, none⟩ :=
    fun _ _ _ => rfl
  have hopened : (Store.openAndPublish ⟨"m", .notifications, 7⟩).CanEnd (.ok default) :=
    Plan.canEnd_request.2 ⟨.ok (default, true), Plan.canEnd_request.2 ⟨.ok (), rfl⟩⟩
  have hfirst : (holding [reader]).Reachable :=
    .order ⟨default, 7⟩ (.ok (), _) .empty (hplan (some 0) none "reader")
      (Plan.canEnd_bind.2 ⟨.ok default, hopened, Plan.canEnd_request.2 ⟨(), rfl⟩⟩)
  have hsecond : (holding [reader, past]).Reachable :=
    .order ⟨default, 7⟩ (.ok (), _) hfirst (hplan none (some 1) "reader")
      (Plan.canEnd_request.2 ⟨.ok (), Plan.canEnd_request.2 ⟨(), rfl⟩⟩)
  exact .order ⟨default, 7⟩ (.ok (), _) hsecond (hplan (some 0) none "writer")
    (Plan.canEnd_request.2 ⟨.ok (), Plan.canEnd_request.2 ⟨(), rfl⟩⟩)

theorem newsroom_ready : newsroom.Ready "context" 0 context :=
  ⟨rfl, rfl, rfl, Nat.one_pos, holding_reachable⟩

theorem subscribers_newsroom : context.store.subscribers "m" = [reader, past, writer] := by
  decide

theorem newsroom_callable :
    ∀ sub ∈ context.store.subscribers "m", newsroom.Callable sub.callback := by
  have hreader : newsroom.Callable "reader" := ⟨_, _, rfl, rfl⟩
  have hwriter : newsroom.Callable "writer" := ⟨_, _, rfl, rfl⟩
  rw [subscribers_newsroom]
  exact List.forall_mem_cons.2 ⟨hreader, List.forall_mem_cons.2 ⟨hreader,
    List.forall_mem_singleton.2 hwriter⟩⟩

/-- The writer's command has nothing to do with contexts. -/
theorem note_aside (bound : Nat) : Within aside (run bound (.file (.write "note" []))) := by
  have hrun : run bound (.file (.write "note" [])) = runFile (.write "note" []) := by
    cases bound <;> rfl
  rw [hrun]
  exact runFile_aside _

/-- Only files are written. -/
theorem newsroom_leftAlone (bound : Nat) (module : String) (notice : Notice) :
    LeftAlone (run bound) newsroom 0 module notice := by
  apply leftAlone_of_commands (run_noting bound)
  intro callback cb hcb command hcommand
  obtain ⟨before, after, hcallbacks, -⟩ := List.lookup_eq_some_iff.1 hcb
  have hmem : (callback, cb) ∈ newsroom.callbacks := by simp [hcallbacks]
  rcases List.mem_cons.1 hmem with heq | hmem
  · cases heq
    cases hcommand
  · cases List.mem_singleton.1 hmem
    obtain rfl := List.mem_singleton.1 hcommand
    exact keeping_of_aside (note_aside bound)

/-- The values of the alarm cannot be made. -/
theorem alarm_refused :
    Payload.ofNode .values (some alarm) = .error (.invalid (.boolean "maybe")) := by
  have hkind : alarm.kind = .notification := rfl
  have hbelow : alarm.descendants =
      [] ++ ("/m:alarm/on", Node.leaf "m" "on" .boolean "maybe") :: [] := by
    simp [Node.descendants, Node.walk, Node.childrenAt, alarm, Node.withChild, Node.notification,
      Node.leaf, Node.bare, Node.path, Node.step, Node.predicateText]
  have hvalue : Value.ofNode (Node.leaf "m" "on" .boolean "maybe") "/m:alarm/on" =
      .error (.invalid (.boolean "maybe")) := rfl
  rw [Payload.ofNode_eq_error_iff]
  exact .value hkind hbelow (List.forall_mem_nil _) hvalue

end Newsroom

open Newsroom in
/-- The first recipient cannot be called, the last one is, and the one between them is not
meant.  The last one writes a file, and so its call is the only one. -/
theorem reaches_whoever_awaits_newsroom : ∃ machine' call,
    run 1 (.context (.deliver "context" "m" ⟨.realtime, some alarm, 5, default⟩)) newsroom =
      .error (.failure (.error (.invalid (.boolean "maybe")))) machine' ∧
    machine'.calls = [call] ∧ call.callback = "writer" ∧
    call.reactions.map List.length = some 1 ∧ machine'.contexts[0]? = some context := by
  obtain ⟨taken, fates, called, -, hdelivers, hrun, hcalls, hcontext⟩ :=
    newsroom_ready.reaches_whoever_awaits 0 (fun sub hsub _ => newsroom_callable sub hsub)
      (newsroom_leftAlone 0 "m" ⟨.realtime, some alarm, 5, default⟩)
  rw [subscribers_newsroom] at hdelivers
  obtain ⟨first, _, mid₁, rfl, hreader, htwo⟩ := hdelivers.exists_of_cons
  obtain ⟨second, _, mid₂, rfl, hpast, hone⟩ := htwo.exists_of_cons
  obtain ⟨third, _, mid₃, rfl, hwriter, hnone⟩ := hone.exists_of_cons
  cases hnone
  have hreaderCb : newsroom.callbacks.lookup "reader" = some ⟨"reader", some .values, none⟩ := rfl
  have hwriterCb : newsroom.callbacks.lookup "writer" =
      some ⟨"writer", some .tree, some [.file (.write "note" [])]⟩ := rfl
  obtain rfl := hreader.eq_refused (by decide) hreaderCb rfl alarm_refused
  obtain rfl := hpast.eq_passedOver (by decide)
  obtain ⟨call, more, rfl, honce⟩ := hwriter.exists_called (by decide) hwriterCb rfl rfl
  obtain rfl := honce.more_eq_nil (List.forall_mem_singleton.2 (note_aside 0))
  have hcalled : call.callback = "writer" := congrArg Call.callback honce.eq_note
  exact ⟨called.letGo 0, call, hrun, hcalls, hcalled, honce.reactions_length rfl, hcontext⟩

end Machine

end Subscription
