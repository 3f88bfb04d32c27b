import Subscription.Proofs.Agreement
import Subscription.Proofs.PlanEnds
import Subscription.Store.Notify

/-!
# How subscriptions come about

The subscriptions of a context begin empty and are changed by its operations alone: one is
added or removed, all are removed, the change groups are polled, a notification is given
out.  Whatever the operations were answered, and wherever a removal of all of them was
broken off, this is how the subscriptions came about (`Store.Reachable`).

Two things hold of all subscriptions that came about so (`Store.Orderly`): the groups are
tidy, and calls are filed under the module that their xpath names, as an order to remove
one says the xpath alone.
-/

namespace Subscription

open scoped List

/-- An RPC is filed under the module that its xpath names. -/
def Descriptor.Named (d : Descriptor) : Prop :=
  match d.topic with
  | .rpc xpath => XPath.firstModule xpath = some d.module
  | _ => True

namespace Store

open Plan

/-- Subscriptions that operations have led to. -/
inductive Reachable : Store → Prop
  | empty : Reachable .empty
  | order {s : Store} {order : Order} {work : Order.Work} (site : Site) (ending : Ending)
      (hs : Reachable s) (hplan : order.plan = .ok work) (hend : (work site s).CanEnd ending) :
      Reachable ending.2
  /-- Removing all of them was broken off. -/
  | brokenOff {s : Store} (site : Site) (left : Store) (hs : Reachable s)
      (hleft : (s.removeAll site).Asks (.settle left)) : Reachable left
  | removeAll {s : Store} (site : Site) (ending : Ending) (hs : Reachable s)
      (hend : (s.removeAll site).CanEnd ending) : Reachable ending.2
  | poll {s : Store} (cfg : Config) (timeout : Span) (host : Host) (hs : Reachable s) :
      Reachable (s.poll cfg timeout host).2.1
  | notify {s : Store} (module : String) (type : NotificationType) (tree : Option Node)
      (time : Int) (hs : Reachable s) : Reachable (s.recipients module type tree time).2

/-- The groups are tidy, and RPCs are where an order to remove one will look for them. -/
structure Orderly (s : Store) : Prop where
  tidy : s.Tidy
  named : ∀ x ∈ s.rpcs.entries, XPath.firstModule x.2.xpath = some x.1.module

variable {s s' : Store} {pipe : UInt32} {row : BookRow} {site : Site} {ending : Ending}

/-- Where the RPCs are can be seen in the rows. -/
theorem named_iff (s : Store) (pipe : UInt32) :
    (∀ x ∈ s.rpcs.entries, XPath.firstModule x.2.xpath = some x.1.module) ↔
      ∀ row ∈ s.rows pipe, row.1.Named := by
  rw [rows_eq]
  constructor
  · intro hnamed row hrow
    simp only [List.mem_append, List.mem_map] at hrow
    rcases hrow with ⟨x, -, rfl⟩ | ⟨x, -, rfl⟩ | ⟨x, hx, rfl⟩ | ⟨x, -, rfl⟩
    · trivial
    · trivial
    · exact hnamed x hx
    · trivial
  · intro hrows x hx
    exact hrows (bareRow (serviceRow pipe .rpc x)) (List.mem_append_right _
      (List.mem_append_right _ (List.mem_append_left _ (List.mem_map_of_mem hx))))

theorem orderly_empty : empty.Orderly :=
  ⟨tidy_empty, fun x hx => by cases hx⟩

theorem Orderly.gains (hs : s.Orderly) (hgains : Gains pipe s s' row) (hrow : row.1.Named) :
    s'.Orderly := by
  refine ⟨hgains.tidy, (named_iff s' pipe).2 fun row' hrow' => ?_⟩
  rcases List.mem_cons.1 (hgains.rows.mem_iff.1 hrow') with rfl | hold
  · exact hrow
  · exact (named_iff s pipe).1 hs.named row' hold

theorem Orderly.of_subset (hs : s.Orderly) (pipe : UInt32) (hrows : s'.rows pipe ⊆ s.rows pipe)
    (htidy : s'.Tidy) : s'.Orderly :=
  ⟨htidy, (named_iff s' pipe).2 fun _ hrow => (named_iff s pipe).1 hs.named _ (hrows hrow)⟩

theorem Orderly.loses (hs : s.Orderly) (hloses : Loses pipe s s' row) : s'.Orderly :=
  hs.of_subset pipe (fun _ hrow => hloses.rows.mem_iff.1 (List.mem_cons_of_mem _ hrow)) hloses.tidy

/-! ## One subscription more or less -/

theorem Orderly.addChange (hs : s.Orderly) {module : String} {datastore : Datastore}
    {sub : ChangeSub} (hend : (s.addChange site module datastore sub).CanEnd ending) :
    ending.2.Orderly := by
  obtain ⟨e, rfl⟩ | ⟨place, hplace, rfl⟩ | ⟨segment, hplace, rfl⟩ := ends_of_addChange hend
  · exact hs
  · obtain ⟨d, file, -, -, hgains⟩ := gains_joinChange hs.tidy 0 hplace sub
    exact hs.gains hgains trivial
  · exact hs.gains (gains_foundChange hs.tidy 0 hplace segment sub) trivial

theorem Orderly.addService (hs : s.Orderly) (service : Service) {module xpath : String}
    {callback : CallbackId} {data : Option DataId}
    (hnamed : Descriptor.Named ⟨module, service.topic xpath, 0⟩)
    (hend : (s.addService site service module xpath callback data).CanEnd ending) :
    ending.2.Orderly := by
  obtain ⟨e, rfl⟩ | ⟨segment, rfl⟩ := ends_of_addService hend
  · exact hs
  · exact hs.gains (gains_service hs.tidy 0 service module ⟨xpath, callback, data, segment⟩) hnamed

theorem Orderly.addNotification (hs : s.Orderly) {module : String} {sub : NotificationSub}
    (hend : (s.addNotification site module sub).CanEnd ending) : ending.2.Orderly := by
  obtain ⟨e, rfl⟩ | ⟨place, hplace, rfl⟩ | ⟨segment, hplace, rfl⟩ := ends_of_addNotification hend
  · exact hs
  · obtain ⟨d, file, -, -, hgains⟩ := gains_joinNotification hs.tidy 0 hplace sub
    exact hs.gains hgains trivial
  · exact hs.gains (gains_foundNotification hs.tidy 0 hplace segment sub) trivial

theorem Orderly.removeChange (hs : s.Orderly) {module : String} {datastore : Datastore}
    {sub : ChangeSub} (hend : (s.removeChange site module datastore sub).CanEnd ending) :
    ending.2.Orderly := by
  obtain ⟨f, rfl⟩ | ⟨place, entry, hlocate, rfl⟩ := ends_of_removeChange hend
  · exact hs
  · obtain ⟨file, hloses⟩ := loses_change hs.tidy 0 hlocate
    exact hs.loses hloses

theorem Orderly.removeService (hs : s.Orderly) {service : Service} {module xpath : String}
    {callback : CallbackId} {data : Option DataId}
    (hend : (s.removeService site service module xpath callback data).CanEnd ending) :
    ending.2.Orderly := by
  obtain ⟨f, rfl⟩ | ⟨place, entry, hlocate, rfl⟩ := ends_of_removeService hend
  · exact hs
  · obtain ⟨file, hloses⟩ := loses_service hs.tidy 0 hlocate
    exact hs.loses hloses

theorem Orderly.removeNotification (hs : s.Orderly) {module : String} {q : NotificationQuery}
    (hend : (s.removeNotification site module q).CanEnd ending) : ending.2.Orderly := by
  obtain ⟨f, rfl⟩ | ⟨place, entry, hlocate, rfl⟩ := ends_of_removeNotification hend
  · exact hs
  · obtain ⟨file, hloses⟩ := loses_notification hs.tidy 0 hlocate
    exact hs.loses hloses

/-- The module of an RPC is looked up in its xpath. -/
theorem firstModule_of_rpcModule {xpath module : String} (hmodule : rpcModule xpath = .ok module) :
    XPath.firstModule xpath = some module := by
  unfold rpcModule at hmodule
  cases hcheck : checkXPath xpath with
  | error e =>
      rw [hcheck] at hmodule
      cases hmodule
  | ok u =>
      cases hfirst : XPath.firstModule xpath with
      | none =>
          rw [hcheck, hfirst] at hmodule
          cases hmodule
      | some first =>
          rw [hcheck, hfirst] at hmodule
          cases hmodule
          rfl

/-- **Orders** keep the subscriptions orderly, whatever they are answered. -/
theorem Orderly.order (hs : s.Orderly) {order : Order} {work : Order.Work}
    (hplan : order.plan = .ok work) (hend : (work site s).CanEnd ending) : ending.2.Orderly := by
  cases order with
  | addChange =>
      obtain ⟨u, rfl⟩ := Order.exists_of_after hplan
      exact hs.addChange hend
  | removeChange =>
      cases hplan
      exact hs.removeChange hend
  | addData =>
      obtain ⟨u, rfl⟩ := Order.exists_of_after hplan
      exact hs.addService .data trivial hend
  | removeData =>
      cases hplan
      exact hs.removeService hend
  | addRpc xpath callback data =>
      cases hmodule : rpcModule xpath with
      | error e => simp [Order.plan, Order.after, hmodule] at hplan
      | ok module =>
          simp only [Order.plan, Order.after, hmodule, Except.ok.injEq] at hplan
          subst hplan
          exact hs.addService .rpc (firstModule_of_rpcModule hmodule) hend
  | removeRpc xpath callback data =>
      cases hmodule : XPath.firstModule xpath with
      | none => simp [Order.plan, hmodule] at hplan
      | some module =>
          simp only [Order.plan, hmodule, Except.ok.injEq] at hplan
          subst hplan
          exact hs.removeService hend
  | addNotification =>
      obtain ⟨filter, rfl⟩ := Order.exists_of_after hplan
      exact hs.addNotification hend
  | removeNotification =>
      cases hplan
      exact hs.removeNotification hend

/-! ## All subscriptions -/

/-- What is left when groups have been taken out is as orderly as before. -/
theorem Orderly.of_removals {groups : List (Store × List (List Descriptor))}
    (hs : s.Orderly) (hgroups : s.removals pipe = groups) :
    ∀ g ∈ groups, g.1.Orderly := by
  induction groups generalizing s with
  | nil => simp
  | cons first rest ih =>
      rcases removals_eq s pipe with hnone | ⟨left, batches, hfirst, hrows, htidy⟩
      · rw [hnone] at hgroups
        cases hgroups
      · rw [hfirst] at hgroups
        obtain ⟨rfl, hrest⟩ := List.cons.inj hgroups
        have hleft : left.Orderly := hs.of_subset pipe hrows.subset (htidy hs.tidy)
        intro g hg
        rcases List.mem_cons.1 hg with rfl | hg
        · exact hleft
        · exact ih hleft hrest g hg

theorem Orderly.poll (hs : s.Orderly) (cfg : Config) (timeout : Span) (host : Host) :
    (s.poll cfg timeout host).2.1.Orderly := by
  obtain ⟨hmold, -⟩ := pollGroups_mold cfg.readSpan timeout 0 s.changes.toList host
  obtain ⟨hrows, htidy⟩ := of_mold_eq hmold hs.tidy
  exact hs.of_subset 0 (fun row hrow => by rwa [← hrows]) htidy

/-- What subscriptions have heard is of no importance for their rows. -/
theorem Orderly.notify (hs : s.Orderly) (module : String) (type : NotificationType)
    (tree : Option Node) (time : Int) : (s.recipients module type tree time).2.Orderly := by
  unfold recipients
  split
  · exact hs
  next place hplace =>
    obtain ⟨g, hget, -⟩ := SwapSet.exists_get?_of_position? hplace
    obtain ⟨before, after, hgroups, hmodify, -⟩ := SwapSet.exists_around hget
    have hnotified := hmodify fun g => { g with subs := g.subs.map (noteReplay type tree time) }
    refine hs.of_subset 0 ?_ (tidy_notifications hs.tidy ⟨?_, ?_⟩)
    · intro row hrow
      have hentries : (Groups.entries (SwapSet.modify s.notifications place fun g =>
          { g with subs := g.subs.map (noteReplay type tree time) })).map
            (bareRow ∘ notificationRow 0) =
          s.notifications.entries.map (bareRow ∘ notificationRow 0) := by
        rw [map_entries, map_entries, hnotified, hgroups]
        simp [SwapSet.map, notificationRow]
      rw [rows_eq] at hrow ⊢
      rwa [hentries] at hrow
    · intro g' hg' hempty
      rw [hnotified] at hg'
      have hnonempty := hs.tidy.notifications.nonempty
      rw [hgroups] at hnonempty
      rcases List.mem_append.1 hg' with hbefore | hg'
      · exact hnonempty g' (List.mem_append_left _ hbefore) hempty
      · rcases List.mem_cons.1 hg' with rfl | hafter
        · refine hnonempty g (by simp) ?_
          simpa [SwapSet.map] using hempty
        · exact hnonempty g' (by simp [hafter]) hempty
    · have hnodup := hs.tidy.notifications.nodup
      rw [hgroups] at hnodup
      rw [hnotified]
      simpa using hnodup

/-- **Whatever operations have led to** is orderly. -/
theorem Reachable.orderly (hs : s.Reachable) : s.Orderly := by
  induction hs with
  | empty => exact orderly_empty
  | order site ending hs hplan hend ih => exact ih.order hplan hend
  | brokenOff site left hs hleft ih =>
      obtain ⟨batches, hmem⟩ := left_of_settled hleft
      exact ih.of_removals rfl _ hmem
  | removeAll site ending hs hend ih =>
      rw [ends_of_removeAll hend]
      exact orderly_empty
  | poll cfg timeout host hs ih => exact ih.poll cfg timeout host
  | notify module type tree time hs ih => exact ih.notify module type tree time

end Store

end Subscription
