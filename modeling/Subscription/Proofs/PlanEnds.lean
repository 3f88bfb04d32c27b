import Subscription.Proofs.Action
import Subscription.Store.Order

/-!
# What plans can come to

A plan is a tree that branches with each answer, and whoever answers may be anybody.  So
what can be said of an operation on the subscriptions alone is what it can end with under
some answers (`Plan.CanEnd`), and what it can ask for on its way (`Plan.Asks`).  Both go
through a plan in the order of its steps, and with any way of answering a plan ends with
something that it can end with (`Plan.canEnd_of_run`).

The operations have few ends each, and nothing else needs to be known of them when it
comes to what becomes of the subscriptions:

* adding one leaves them alone and fails, or puts the new one into its group
  (`Store.ends_of_addChange`, `Store.ends_of_addService`, `Store.ends_of_addNotification`);
* removing one leaves them alone when none is located or the registry objects, and goes on
  without it otherwise (`Store.ends_of_located`);
* an order that fails leaves them alone, and none settles anything on its way
  (`Store.unchanged_of_failure`, `Store.order_settles_nothing`);
* removing all leaves none, and settles no more than what is left when a group has been
  taken out (`Store.ends_of_removeAll`, `Store.left_of_settled`).
-/

namespace Subscription

namespace Plan

variable {α β : Type} {p : Plan α} {next : α → Plan β} {b : β} {r wanted : Request}

/-- Under some answers, a plan comes to this end. -/
def CanEnd : Plan α → α → Prop
  | .done a, b => a = b
  | .ask _ next, b => ∃ answer, (next answer).CanEnd b

/-- Under some answers, a plan comes to ask for this. -/
def Asks : Plan α → Request → Prop
  | .done _, _ => False
  | .ask r next, wanted => r = wanted ∨ ∃ answer, (next answer).Asks wanted

theorem canEnd_request {next : r.Answer → Plan β} :
    (request r >>= next).CanEnd b ↔ ∃ answer, (next answer).CanEnd b := Iff.rfl

/-- A plan that goes on with another ends where that one does. -/
theorem canEnd_bind : (p >>= next).CanEnd b ↔ ∃ a, p.CanEnd a ∧ (next a).CanEnd b := by
  induction p with
  | done a =>
      constructor
      · intro h
        exact ⟨a, rfl, h⟩
      · intro ⟨a', ha, h⟩
        cases ha
        exact h
  | ask r rest ih =>
      constructor
      · intro ⟨answer, h⟩
        obtain ⟨a, ha, hb⟩ := (ih answer).1 h
        exact ⟨a, ⟨answer, ha⟩, hb⟩
      · intro ⟨a, ⟨answer, ha⟩, hb⟩
        exact ⟨answer, (ih answer).2 ⟨a, ha, hb⟩⟩

theorem asks_pure {a : α} : ¬(pure a : Plan α).Asks wanted := id

theorem asks_request {next : r.Answer → Plan β} :
    (request r >>= next).Asks wanted ↔ r = wanted ∨ ∃ answer, (next answer).Asks wanted := Iff.rfl

/-- What a plan asks for is asked for by its first part or by the rest. -/
theorem asks_bind :
    (p >>= next).Asks wanted ↔ p.Asks wanted ∨ ∃ a, p.CanEnd a ∧ (next a).Asks wanted := by
  induction p with
  | done a =>
      constructor
      · intro h
        exact .inr ⟨a, rfl, h⟩
      · intro h
        rcases h with h | ⟨a', ha, h⟩
        · cases h
        · cases ha
          exact h
  | ask r rest ih =>
      constructor
      · intro h
        rcases h with rfl | ⟨answer, h⟩
        · exact .inl (Or.inl rfl)
        · rcases (ih answer).1 h with hfirst | ⟨a, ha, hrest⟩
          · exact .inl (Or.inr ⟨answer, hfirst⟩)
          · exact .inr ⟨a, ⟨answer, ha⟩, hrest⟩
      · intro h
        rcases h with (rfl | ⟨answer, h⟩) | ⟨a, ⟨answer, ha⟩, hrest⟩
        · exact Or.inl rfl
        · exact Or.inr ⟨answer, (ih answer).2 (.inl h)⟩
        · exact Or.inr ⟨answer, (ih answer).2 (.inr ⟨a, ha, hrest⟩)⟩

/-- A plan does not ask for what none of its parts asks for. -/
theorem not_asks_request {next : r.Answer → Plan β} (hr : r ≠ wanted)
    (hnext : ∀ answer, ¬(next answer).Asks wanted) : ¬(request r >>= next).Asks wanted := by
  intro hasks
  rcases asks_request.1 hasks with hsame | ⟨answer, hasks⟩
  · exact hr hsame
  · exact hnext answer hasks

theorem not_asks_bind (hp : ¬p.Asks wanted) (hnext : ∀ a, ¬(next a).Asks wanted) :
    ¬(p >>= next).Asks wanted := by
  intro hasks
  rcases asks_bind.1 hasks with hasks | ⟨a, -, hasks⟩
  · exact hp hasks
  · exact hnext a hasks

/-- **Whoever answers,** a plan that ends has come to one of its ends. -/
theorem canEnd_of_run {σ ε : Type} {answer : (r : Request) → EStateM ε σ r.Answer} {a : α}
    {w w' : σ} (hrun : p.run answer w = .ok a w') : p.CanEnd a := by
  induction p generalizing w with
  | done b =>
      cases hrun
      rfl
  | ask r rest ih =>
      obtain ⟨x, mid, -, hrest⟩ := exists_of_bind_ok hrun
      exact ⟨x, ih x hrest⟩

end Plan

namespace Store

open Plan

variable {s : Store} {site : Site} {module xpath : String} {ending : Ending}

/-! ## Adding -/

theorem ends_of_addChange {datastore : Datastore} {sub : ChangeSub}
    (hend : (s.addChange site module datastore sub).CanEnd ending) :
    (∃ e, ending = s.failed e) ∨
    (∃ place, s.changes.position? (isChanges module datastore) = some place ∧
      ending = (.ok (), { s with changes := s.changes.insert place sub })) ∨
    ∃ segment, s.changes.position? (isChanges module datastore) = none ∧
      ending = (.ok (),
        { s with changes := s.changes.insertNew ⟨module, datastore, segment⟩ sub }) := by
  unfold addChange at hend
  dsimp only at hend
  split at hend
  next place hplace =>
    obtain ⟨published, hend⟩ := canEnd_request.1 hend
    cases published with
    | error e => exact .inl ⟨e, hend.symm⟩
    | ok u =>
        obtain ⟨u, hend⟩ := canEnd_request.1 hend
        exact .inr (.inl ⟨place, hplace, hend.symm⟩)
  next hplace =>
    obtain ⟨opened, -, hend⟩ := canEnd_bind.1 hend
    cases opened with
    | error e => exact .inl ⟨e, hend.symm⟩
    | ok segment =>
        obtain ⟨u, hend⟩ := canEnd_request.1 hend
        exact .inr (.inr ⟨segment, hplace, hend.symm⟩)

theorem ends_of_addService {service : Service} {callback : CallbackId} {data : Option DataId}
    (hend : (s.addService site service module xpath callback data).CanEnd ending) :
    (∃ e, ending = s.failed e) ∨
    ∃ segment, ending = (.ok (), s.setServices service
      (match (s.services service).position? fun c => c.module = module with
        | some place => (s.services service).insert place ⟨xpath, callback, data, segment⟩
        | none => (s.services service).insertNew ⟨module⟩ ⟨xpath, callback, data, segment⟩)) := by
  unfold addService at hend
  obtain ⟨opened, -, hend⟩ := canEnd_bind.1 hend
  cases opened with
  | error e => exact .inl ⟨e, hend.symm⟩
  | ok segment =>
      obtain ⟨u, hend⟩ := canEnd_request.1 hend
      exact .inr ⟨segment, hend.symm⟩

theorem ends_of_addNotification {sub : NotificationSub}
    (hend : (s.addNotification site module sub).CanEnd ending) :
    (∃ e, ending = s.failed e) ∨
    (∃ place, s.notifications.position? (fun c => c.module = module) = some place ∧
      ending = (.ok (), { s with notifications := s.notifications.insert place sub })) ∨
    ∃ segment, s.notifications.position? (fun c => c.module = module) = none ∧
      ending = (.ok (),
        { s with notifications := s.notifications.insertNew ⟨module, segment⟩ sub }) := by
  unfold addNotification at hend
  dsimp only at hend
  split at hend
  next place hplace =>
    obtain ⟨published, hend⟩ := canEnd_request.1 hend
    cases published with
    | error e => exact .inl ⟨e, hend.symm⟩
    | ok u =>
        obtain ⟨u, hend⟩ := canEnd_request.1 hend
        exact .inr (.inl ⟨place, hplace, hend.symm⟩)
  next hplace =>
    obtain ⟨opened, -, hend⟩ := canEnd_bind.1 hend
    cases opened with
    | error e => exact .inl ⟨e, hend.symm⟩
    | ok segment =>
        obtain ⟨u, hend⟩ := canEnd_request.1 hend
        exact .inr (.inr ⟨segment, hplace, hend.symm⟩)

/-! ## Removing -/

theorem ends_of_retractOne {d : Descriptor} {without : Store}
    (hend : (s.retractOne d without).CanEnd ending) :
    (∃ e, ending = s.failed e) ∨ ending = (.ok (), without) := by
  unfold retractOne at hend
  obtain ⟨retracted, hend⟩ := canEnd_request.1 hend
  cases retracted with
  | error e => exact .inl ⟨e, hend.symm⟩
  | ok last =>
      cases last with
      | true =>
          obtain ⟨u, hend⟩ := canEnd_request.1 hend
          exact .inr hend.symm
      | false => exact .inr hend.symm

/-- The places of what is to be removed are found before anything else is done. -/
theorem ends_of_located {found : Option (Nat × Nat)} {a : Abort} {d : Descriptor}
    {without : Nat → Nat → Store}
    (hend : (match found with
      | none => s.aborted a
      | some (place, entry) => s.retractOne d (without place entry)).CanEnd ending) :
    (∃ f, ending = (.error f, s)) ∨
      ∃ place entry, found = some (place, entry) ∧ ending = (.ok (), without place entry) := by
  cases found with
  | none => exact .inl ⟨_, hend.symm⟩
  | some places =>
      rcases ends_of_retractOne hend with ⟨e, he⟩ | hdone
      · exact .inl ⟨_, he⟩
      · exact .inr ⟨places.1, places.2, rfl, hdone⟩

theorem ends_of_removeChange {datastore : Datastore} {sub : ChangeSub}
    (hend : (s.removeChange site module datastore sub).CanEnd ending) :
    (∃ f, ending = (.error f, s)) ∨ ∃ place entry,
      (s.changes.locate? (isChanges module datastore) fun other => sameChange other sub) =
        some (place, entry) ∧
      ending = (.ok (), { s with changes := s.changes.erase place entry }) :=
  ends_of_located hend

theorem ends_of_removeService {service : Service} {callback : CallbackId} {data : Option DataId}
    (hend : (s.removeService site service module xpath callback data).CanEnd ending) :
    (∃ f, ending = (.error f, s)) ∨ ∃ place entry,
      ((s.services service).locate? (fun c => c.module = module) fun sub =>
        sub.xpath = xpath && sub.callback = callback && sub.data = data) = some (place, entry) ∧
      ending = (.ok (), s.setServices service ((s.services service).erase place entry)) :=
  ends_of_located hend

theorem ends_of_removeNotification {q : NotificationQuery}
    (hend : (s.removeNotification site module q).CanEnd ending) :
    (∃ f, ending = (.error f, s)) ∨ ∃ place entry,
      s.notifications.locate? (fun c => c.module = module) q.isOf = some (place, entry) ∧
      ending = (.ok (), { s with notifications := s.notifications.erase place entry }) :=
  ends_of_located hend

/-! ## Orders -/

/-- **An order that fails** leaves the subscriptions alone. -/
theorem unchanged_of_failure {order : Order} {work : Order.Work} {f : Failure} {s' : Store}
    (hplan : order.plan = .ok work) (hend : (work site s).CanEnd (.error f, s')) : s' = s := by
  revert s site hend
  refine Order.work_induction (P := fun work => ∀ {s : Store} {site : Site},
    (work site s).CanEnd (.error f, s') → s' = s) ?_ ?_ ?_ ?_ ?_ ?_ hplan
  · intro module datastore sub s site hend
    obtain ⟨e, he⟩ | ⟨place, -, he⟩ | ⟨segment, -, he⟩ := ends_of_addChange hend <;> cases he
    rfl
  · intro module datastore sub s site hend
    obtain ⟨f', he⟩ | ⟨place, entry, -, he⟩ := ends_of_removeChange hend <;> cases he
    rfl
  · intro service module xpath callback data s site hend
    obtain ⟨e, he⟩ | ⟨segment, he⟩ := ends_of_addService hend <;> cases he
    rfl
  · intro service module xpath callback data s site hend
    obtain ⟨f', he⟩ | ⟨place, entry, -, he⟩ := ends_of_removeService hend <;> cases he
    rfl
  · intro module sub s site hend
    obtain ⟨e, he⟩ | ⟨place, -, he⟩ | ⟨segment, -, he⟩ := ends_of_addNotification hend <;> cases he
    rfl
  · intro module q s site hend
    obtain ⟨f', he⟩ | ⟨place, entry, -, he⟩ := ends_of_removeNotification hend <;> cases he
    rfl

section Settling

variable {left : Store}

theorem openAndPublish_settles_nothing (d : Descriptor) :
    ¬(openAndPublish d).Asks (.settle left) := by
  refine not_asks_request nofun fun opened => ?_
  cases opened with
  | error e => exact asks_pure
  | ok segment =>
      refine not_asks_request nofun fun published => ?_
      cases published with
      | ok u => exact asks_pure
      | error e =>
          dsimp only
          split
          · exact not_asks_request nofun fun _ => asks_pure
          · exact asks_pure

theorem retractOne_settles_nothing (d : Descriptor) (without : Store) :
    ¬(s.retractOne d without).Asks (.settle left) := by
  refine not_asks_request nofun fun retracted => ?_
  cases retracted with
  | error e => exact asks_pure
  | ok last =>
      cases last with
      | false => exact asks_pure
      | true => exact not_asks_request nofun fun _ => asks_pure

theorem located_settles_nothing {found : Option (Nat × Nat)} {a : Abort} {d : Descriptor}
    {without : Nat → Nat → Store} :
    ¬(match found with
      | none => s.aborted a
      | some (place, entry) => s.retractOne d (without place entry)).Asks (.settle left) := by
  cases found with
  | none => exact asks_pure
  | some places => exact retractOne_settles_nothing d _

theorem addChange_settles_nothing (module : String) (datastore : Datastore) (sub : ChangeSub) :
    ¬(s.addChange site module datastore sub).Asks (.settle left) := by
  unfold addChange
  dsimp only
  split
  · refine not_asks_request nofun fun published => ?_
    cases published with
    | error e => exact asks_pure
    | ok u => exact not_asks_request nofun fun _ => asks_pure
  · refine not_asks_bind (openAndPublish_settles_nothing _) fun opened => ?_
    cases opened with
    | error e => exact asks_pure
    | ok segment => exact not_asks_request nofun fun _ => asks_pure

theorem addService_settles_nothing (service : Service) (module xpath : String)
    (callback : CallbackId) (data : Option DataId) :
    ¬(s.addService site service module xpath callback data).Asks (.settle left) := by
  refine not_asks_bind (openAndPublish_settles_nothing _) fun opened => ?_
  cases opened with
  | error e => exact asks_pure
  | ok segment => exact not_asks_request nofun fun _ => asks_pure

theorem addNotification_settles_nothing (module : String) (sub : NotificationSub) :
    ¬(s.addNotification site module sub).Asks (.settle left) := by
  unfold addNotification
  dsimp only
  split
  · refine not_asks_request nofun fun published => ?_
    cases published with
    | error e => exact asks_pure
    | ok u => exact not_asks_request nofun fun _ => asks_pure
  · refine not_asks_bind (openAndPublish_settles_nothing _) fun opened => ?_
    cases opened with
    | error e => exact asks_pure
    | ok segment => exact not_asks_request nofun fun _ => asks_pure

/-- **An order settles nothing** on its way. -/
theorem order_settles_nothing {order : Order} {work : Order.Work} (hplan : order.plan = .ok work)
    (site : Site) (s : Store) : ¬(work site s).Asks (.settle left) := by
  revert site s
  exact Order.work_induction (P := fun work => ∀ site s, ¬(work site s).Asks (.settle left))
    (fun module datastore sub _ _ => addChange_settles_nothing module datastore sub)
    (fun _ _ _ _ _ => located_settles_nothing)
    (fun service module xpath callback data _ _ =>
      addService_settles_nothing service module xpath callback data)
    (fun _ _ _ _ _ _ _ => located_settles_nothing)
    (fun module sub _ _ => addNotification_settles_nothing module sub)
    (fun _ _ _ _ => located_settles_nothing) hplan

end Settling

/-! ## Removing everything -/

/-- **However it ends,** removing everything leaves nothing. -/
theorem ends_of_removeAll (hend : (s.removeAll site).CanEnd ending) : ending.2 = empty := by
  unfold removeAll at hend
  obtain ⟨failure, -, hend⟩ := canEnd_bind.1 hend
  cases failure with
  | none =>
      cases hend
      rfl
  | some e =>
      cases hend
      rfl

variable {left : Store}

theorem retractBatch_settles_nothing (batch : List Descriptor) (result : Bool × Option Error) :
    ¬(retractBatch batch result).Asks (.settle left) := by
  induction batch generalizing result with
  | nil => exact asks_pure
  | cons d rest ih =>
      refine not_asks_request nofun fun answer => ?_
      cases answer with
      | ok last => exact ih _
      | error e => exact not_asks_request nofun fun _ => ih _

theorem retractBatches_settle_nothing (batches : List (List Descriptor))
    (failure : Option Error) : ¬(retractBatches batches failure).Asks (.settle left) := by
  induction batches generalizing failure with
  | nil => exact asks_pure
  | cons batch rest ih =>
      refine not_asks_bind (retractBatch_settles_nothing _ _) fun result => ?_
      cases batch with
      | nil => exact ih _
      | cons d more =>
          obtain ⟨last, failure'⟩ := result
          cases last with
          | false => exact ih _
          | true => exact not_asks_request nofun fun _ => ih _

theorem retractGroups_settle (groups : List (Store × List (List Descriptor)))
    (failure : Option Error) (hasks : (retractGroups groups failure).Asks (.settle left)) :
    ∃ batches, (left, batches) ∈ groups := by
  induction groups generalizing failure with
  | nil => exact (asks_pure hasks).elim
  | cons g rest ih =>
      obtain ⟨first, batches⟩ := g
      unfold retractGroups at hasks
      rcases asks_request.1 hasks with hsame | ⟨u, hasks⟩
      · cases hsame
        exact ⟨batches, List.mem_cons_self⟩
      · rcases asks_bind.1 hasks with hasks | ⟨failure', -, hasks⟩
        · exact (retractBatches_settle_nothing _ _ hasks).elim
        · obtain ⟨batches', hmem⟩ := ih _ hasks
          exact ⟨batches', List.mem_cons_of_mem _ hmem⟩

/-- **What is settled on the way** is what is left when a group has been taken out. -/
theorem left_of_settled (hasks : (s.removeAll site).Asks (.settle left)) :
    ∃ batches, (left, batches) ∈ s.removals site.pipe := by
  unfold removeAll at hasks
  rcases asks_bind.1 hasks with hasks | ⟨failure, -, hasks⟩
  · exact retractGroups_settle _ _ hasks
  · cases failure <;> exact (asks_pure hasks).elim

end Store

end Subscription
