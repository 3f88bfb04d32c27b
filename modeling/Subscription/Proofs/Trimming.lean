import Mathlib.Data.List.Induction
import Mathlib.Logic.Function.Basic
import Subscription.Proofs.Removing

/-!
# Groups that are only taken away

The groups of subscriptions to notifications of a context change by three means: an order
that is carried out, a delivery, and removing all of them, when a context is given up or
told to.  The last one takes the groups out from the end, and may fail on the way, so that
the groups that are left are the first ones of those that there were (`Store.trimmed`).

All that is not an order or a delivery does no more than that (`Machine.trimming`), and
neither does an order or a delivery that comes to nothing (`Machine.refused_trimming`,
`Machine.gather_refused`).  Of the others it is enough to know that they do no more than
that to any context but their own (`Machine.order_trimmingBut`, `Machine.gather_trimmingBut`).
-/

namespace Subscription

open scoped List

/-! ## What becomes of the groups -/

/-- What is taken out last is in front. -/
theorem SwapSet.prefix_of_mem_drain {α : Type} {s : SwapSet α} {x : α × SwapSet α}
    (hx : x ∈ s.drain) : x.2.toList <+: s.toList := by
  obtain ⟨items⟩ := s
  induction items using List.reverseRecOn with
  | nil => cases hx
  | append_singleton front item ih =>
      have hdrain : SwapSet.drain ⟨front ++ [item]⟩ = (item, ⟨front⟩) :: SwapSet.drain ⟨front⟩ :=
        SwapSet.drain_push ⟨front⟩ item
      rw [hdrain] at hx
      rcases List.mem_cons.1 hx with rfl | hx
      · exact List.prefix_append _ _
      · exact (ih hx).trans (List.prefix_append _ _)

namespace Store

/-- Groups of subscriptions to notifications only go, the last ones first. -/
def trimmed : Frame Store where
  keeps s s' := s'.notifications.toList <+: s.notifications.toList
  refl _ := List.prefix_refl _
  trans hfirst hnext := hnext.trans hfirst

theorem trimmed_empty (s : Store) : trimmed.keeps s empty := List.nil_prefix

theorem removeAll_trimmed (site : Site) (s : Store) : (s.removeAll site).Upholds trimmed s where
  ends ending hend := by
    rw [ends_of_removeAll hend]
    exact trimmed_empty s
  settles left hasks := by
    obtain ⟨batches, hmem⟩ := left_of_settled hasks
    simp only [removals, List.mem_append, List.mem_map, Prod.mk.injEq] at hmem
    rcases hmem with ((⟨x, -, rfl, -⟩ | ⟨x, -, rfl, -⟩) | ⟨x, -, rfl, -⟩) | ⟨x, hx, rfl, -⟩
    · exact List.prefix_refl _
    · exact List.prefix_refl _
    · exact List.prefix_refl _
    · exact SwapSet.prefix_of_mem_drain hx

theorem lenient_trimmed : Machine.Lenient fun _ => trimmed where
  removeAll _ site s := removeAll_trimmed site s
  poll _ _ _ _ _ := List.prefix_refl _

end Store

namespace Machine

variable {α : Type} {machine machine' : Machine} {id : ContextId}

/-- Nobody is called, and from all contexts groups only go. -/
def trimming : Frame Machine := quietly fun _ => Store.trimmed

/-- Nobody is called, and from all contexts but one groups only go. -/
def trimmingBut (id : ContextId) : Frame Machine :=
  quietly (Function.update (fun _ => Store.trimmed) id .free)

theorem trimming_of_aside {act : MachineM α} (hact : Within aside act) : Within trimming act :=
  quietly_of_aside hact

/-- What happens to the subscriptions of one context, it happens to no other one. -/
theorem trimmingBut_of_locked {operation : String} {act : Context → MachineM α}
    (hact : ∀ (F : ContextId → Frame Store) (c : Context), F id = .free →
      Within (quietly F) (act c)) :
    Within (trimmingBut id) (whileLocked id operation act) :=
  .of_always (whileLocked_quietly id operation fun c machine _ _ =>
    hact _ c (Function.update_self _ _ _) machine)

/-- What was settled, or nothing, is what a context has. -/
theorem trimmed_of_settled {store : Store}
    (hstore : machine.storeAt id = store ∨ machine.storeAt id = .empty) :
    Store.trimmed.keeps store (machine.storeAt id) := by
  rcases hstore with hsettled | hempty
  · rw [hsettled]
    exact Store.trimmed.refl store
  · rw [hempty]
    exact Store.trimmed_empty store

/-! ## Orders -/

section Orders

variable {order : Order} {work : Order.Work} (hwork : order.plan = .ok work) (id : ContextId)
include hwork

/-- An order that is not carried out takes no subscriptions away but at the end. -/
theorem refused_trimming (bound : Nat) :
    WithinWhen trimming (· ≠ .ok (.ok ()))
      (whileLocked id order.operation fun _ => runPlan (run bound) id work) := by
  refine whileLocked_quietly id _ fun c machine _ hrefused => ?_
  refine runPlan_quietly (P := (· ≠ .ok (.ok ()))) _ ?_ ?_ machine hrefused
  · rintro site s ⟨result, s'⟩ hend hresult
    cases result with
    | ok u => exact absurd rfl hresult
    | error f =>
        rw [Store.unchanged_of_failure hwork hend]
        exact Store.trimmed.refl s
  · intro site s left hasks
    exact absurd hasks (Store.order_settles_nothing hwork site s)

/-- An order does nothing to other contexts. -/
theorem order_trimmingBut (bound : Nat) :
    Within (trimmingBut id)
      (whileLocked id order.operation fun _ => runPlan (run bound) id work) := by
  refine trimmingBut_of_locked fun F c hfree => ?_
  refine runPlan_upholds _ fun site s => ⟨?_, ?_⟩
  · intro ending _
    rw [hfree]
    trivial
  · intro left hasks
    exact absurd hasks (Store.order_settles_nothing hwork site s)

omit hwork in
/-- Subscriptions that an order that was carried out can end with. -/
theorem exists_canEnd_of_order {bound : Nat}
    (hrun : whileLocked id order.operation (fun _ => runPlan (run bound) id work) machine =
      .ok (.ok ()) machine') :
    ∃ site store, (work site (machine.storeAt id)).CanEnd (.ok (), store) ∧
      Store.trimmed.keeps store (machine'.storeAt id) := by
  obtain ⟨before, after, hbefore, hplan, hafter⟩ := whileLocked_ok hrun
  obtain ⟨store, hends, hstore⟩ := runPlan_ok hplan
  obtain ⟨site, hend⟩ := hends.canEnd
  rw [hbefore] at hend
  refine ⟨site, store, hend, ?_⟩
  rw [hafter]
  exact trimmed_of_settled hstore

end Orders

/-! ## Deliveries -/

section Deliveries

variable {module : String} {notice : Notice}

/-- A delivery goes to the recipients of its context, and the subscriptions go on from it. -/
theorem gather_ok {recipients : List Recipient}
    (hrun : gather id module notice machine = .ok recipients machine') :
    ∃ store, (machine.storeAt id).recipients module notice.type notice.tree notice.time =
        (recipients, store) ∧ Store.trimmed.keeps store (machine'.storeAt id) := by
  obtain ⟨before, after, -, hact, hafter⟩ := whileLocked_ok hrun
  obtain ⟨u, mid, hsettle, hlast⟩ := exists_of_bind_ok hact
  cases hlast
  refine ⟨_, rfl, ?_⟩
  rw [hafter]
  exact trimmed_of_settled (storeAt_settle hsettle)

/-- A delivery that does not begin takes no subscriptions away but at the end. -/
theorem gather_refused (id : ContextId) (module : String) (notice : Notice) :
    WithinWhen trimming (∀ recipients, · ≠ .ok recipients) (gather id module notice) :=
  whileLocked_quietly id _ fun _ _ _ hrefused => absurd rfl (hrefused _)

/-- A delivery does nothing to other contexts. -/
theorem gather_trimmingBut (id : ContextId) (module : String) (notice : Notice) :
    Within (trimmingBut id) (gather id module notice) := by
  refine trimmingBut_of_locked fun F c hfree machine => ?_
  refine settle_keeps ((quietly F).refl machine) ?_
  rw [hfree]
  trivial

end Deliveries

end Machine

end Subscription
