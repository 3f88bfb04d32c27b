import Mathlib.Data.Multiset.AddSub
import Mathlib.Data.Multiset.Filter
import Subscription.Proofs.RegistryTable

/-!
# What a registry holds

Publishers wake whom the registry names, and a store removes a segment because the
registry said that its last descriptor was retracted.  Both depend on everything that was
published and retracted before, by whichever parties: descriptors of one key differ in
their xpaths, priorities or pipes, keys can share a hash, and the same descriptor can be
there several times.

A ledger keeps the books beside the registry (`Ledger`): what was published, and what was
retracted with success.  After any calls the registry stands for the difference, which
tells all that can be asked of it (`Registry.Represents`), and the difference also tells
how the next descriptor is retracted (`Ledger.registry_refines`).  The table itself is
treated one call at a time in `Registry.publish_all`, `Registry.retract_all` and
`Registry.retract_missing`.
-/

namespace Subscription

open scoped List

namespace Registry

/-- The registry files these descriptors, each of them as often as it is there, and all
that it can be asked is answered from them. -/
structure Represents (r : Registry) (held : Multiset Descriptor) : Prop where
  /-- Every key is there once, with descriptors of its own and at least one of them. -/
  order : r.InOrder
  holds : (r.all : Multiset Descriptor) = held
  size : r.size = held.card
  isEmpty : r.isEmpty = true ↔ held = 0
  subscribers : ∀ key, (r.subscribers key : Multiset Descriptor) = held.filter (·.key = key)
  pipes : ∀ key n, n ∈ r.pipes key ↔ ∃ d ∈ held, d.key = key ∧ d.pipe = n
  ascending : ∀ key, (r.pipes key).Pairwise (· < ·)

variable {r : Registry} {d : Descriptor} {held : Multiset Descriptor}

/-- A table without rows holds nothing, and conversely, as no row is without
descriptors. -/
theorem isEmpty_iff (horder : r.InOrder) : r.isEmpty = true ↔ r.all = [] := by
  rw [isEmpty, List.isEmpty_iff, all, List.flatMap_eq_nil_iff]
  constructor
  · intro hnil row hrow
    rw [hnil] at hrow
    cases hrow
  · intro hrows
    apply List.eq_nil_iff_forall_not_mem.2
    intro row hrow
    exact horder.used row hrow (hrows row hrow)

/-- What is filed under a key is all there is of that key. -/
theorem perm_subscribers (horder : r.InOrder) (key : SegmentKey) :
    r.subscribers key ~ r.all.filter (·.key = key) := by
  unfold subscribers
  cases hlookup : r.table.lookup key with
  | some subs =>
      obtain ⟨others, hfiled, hothers, hall, -⟩ := exists_others horder hlookup
      have hkept : subs.filter (·.key = key) = subs :=
        List.filter_eq_self.2 fun d hd => by simpa using hfiled d hd
      have hleft : others.filter (·.key = key) = [] :=
        List.filter_eq_nil_iff.2 fun d hd => by simpa using hothers d hd
      have hfilter := hall.filter (·.key = key)
      rw [List.filter_append, hkept, hleft, List.append_nil] at hfilter
      exact hfilter.symm
  | none =>
      have hnone : r.all.filter (·.key = key) = [] := by
        apply List.filter_eq_nil_iff.2
        intro d hd hkey
        obtain ⟨subs, hsubs, -⟩ := exists_lookup horder hd
        rw [of_decide_eq_true hkey, hlookup] at hsubs
        cases hsubs
      rw [hnone]
      exact .refl _

/-- A table in order answers from what it holds. -/
theorem represents_all (horder : r.InOrder) : r.Represents r.all where
  order := horder
  holds := rfl
  size := rfl
  isEmpty := by rw [isEmpty_iff horder, Multiset.coe_eq_zero]
  subscribers key := by
    rw [Multiset.filter_coe]
    exact Multiset.coe_eq_coe.2 (perm_subscribers horder key)
  pipes _ _ := mem_pipes horder
  ascending key := pairwise_pipes r key

theorem Represents.of_perm (horder : r.InOrder) {ds : List Descriptor} (hds : r.all ~ ds) :
    r.Represents ds := by
  rw [← Multiset.coe_eq_coe.2 hds]
  exact represents_all horder

theorem represents_empty : empty.Represents 0 := represents_all inOrder_empty

/-- **Publishing adds one copy.** -/
theorem Represents.publish (hr : r.Represents held) (d : Descriptor) :
    (r.publish d).Represents (d ::ₘ held) := by
  obtain ⟨horder, hall⟩ := publish_all hr.order d
  rw [← hr.holds, Multiset.cons_coe]
  exact .of_perm horder hall

/-- **Retracting takes one copy away** when there is one, and is told to be the last one
of its key if no other is left. -/
theorem Represents.retract (hr : r.Represents held) (hd : d ∈ held) :
    ∃ last r', r.retract d = .ok (last, r') ∧ r'.Represents (held.erase d) ∧
      (last = true ↔ ∀ d' ∈ held.erase d, d'.key ≠ d.key) := by
  rw [← hr.holds, Multiset.mem_coe] at hd
  obtain ⟨last, r', hretract, horder, hall, hlast⟩ := retract_all hr.order hd
  have hleft : (r'.all : Multiset Descriptor) = held.erase d := by
    rw [← hr.holds, ← Multiset.coe_eq_coe.2 hall, ← Multiset.cons_coe, Multiset.erase_cons_head]
  refine ⟨last, r', hretract, ?_, ?_⟩
  · rw [← hleft]
    exact represents_all horder
  · rw [hlast, ← hleft]
    rfl

/-- What is not there cannot be retracted.  The error says whether the key is known. -/
theorem Represents.retract_missing (hr : r.Represents held) (hd : d ∉ held) :
    r.retract d = .error (.missing (if d.key ∈ held.map Descriptor.key then .descriptor d.module
      else .subscriptions d.key.name)) := by
  rw [← hr.holds, Multiset.mem_coe] at hd
  simp only [← hr.holds, Multiset.map_coe, Multiset.mem_coe]
  exact Registry.retract_missing hr.order hd

end Registry

/-! ## Calls -/

/-- A call of a registry. -/
inductive RegistryCall where
  | publish (d : Descriptor)
  | retract (d : Descriptor)
  deriving DecidableEq, Repr

/-- A registry with the books on what became of the calls so far. -/
structure Ledger where
  registry : Registry
  published : Multiset Descriptor
  /-- What was retracted with success. -/
  retracted : Multiset Descriptor

namespace Ledger

/-- A registry before the first call. -/
def opening : Ledger := ⟨.empty, 0, 0⟩

/-- The books after one more call. -/
def take (l : Ledger) : RegistryCall → Ledger
  | .publish d => { l with registry := l.registry.publish d, published := d ::ₘ l.published }
  | .retract d =>
      match l.registry.retract d with
      | .ok (_, registry) => { l with registry, retracted := d ::ₘ l.retracted }
      | .error _ => l

/-- The books after some calls, the first one first. -/
def run (l : Ledger) (calls : List RegistryCall) : Ledger := calls.foldl take l

/-- What should be in the registry. -/
def held (l : Ledger) : Multiset Descriptor := l.published - l.retracted

/-- The registry has what the books say. -/
structure Balanced (l : Ledger) : Prop where
  covered : l.retracted ≤ l.published
  represents : l.registry.Represents l.held

theorem balanced_opening : opening.Balanced := ⟨le_rfl, Registry.represents_empty⟩

/-- **One call** keeps the balance. -/
theorem Balanced.take {l : Ledger} (hl : l.Balanced) (call : RegistryCall) :
    (l.take call).Balanced := by
  cases call with
  | publish d =>
      have hheld : d ::ₘ l.published - l.retracted = d ::ₘ (l.published - l.retracted) :=
        Multiset.cons_sub_of_le d hl.covered
      refine ⟨hl.covered.trans (Multiset.le_cons_self _ _), ?_⟩
      change (l.registry.publish d).Represents (d ::ₘ l.published - l.retracted)
      rw [hheld]
      exact hl.represents.publish d
  | retract d =>
      by_cases hd : d ∈ l.held
      · obtain ⟨last, r', hretract, hleft, -⟩ := hl.represents.retract hd
        have hcovered : d ::ₘ l.retracted ≤ l.published := by
          have hone : {d} ≤ l.published - l.retracted := Multiset.singleton_le.2 hd
          have hsum := Multiset.add_le_add_right (u := l.retracted) hone
          rwa [Multiset.sub_add_cancel hl.covered, Multiset.singleton_add] at hsum
        have hheld : l.published - d ::ₘ l.retracted = l.held.erase d := by
          rw [held, ← Multiset.sub_singleton, ← Multiset.sub_add_eq_sub_sub, Multiset.add_comm,
            Multiset.singleton_add]
        simp only [Ledger.take, hretract]
        refine ⟨hcovered, ?_⟩
        change r'.Represents (l.published - d ::ₘ l.retracted)
        rwa [hheld]
      · simp only [Ledger.take, hl.represents.retract_missing hd]
        exact hl

/-- **Any calls** keep the balance. -/
theorem Balanced.run {l : Ledger} (hl : l.Balanced) (calls : List RegistryCall) :
    (l.run calls).Balanced := by
  induction calls generalizing l with
  | nil => exact hl
  | cons call rest ih => exact ih (hl.take call)

/-- **A registry is a multiset of descriptors.**  After any calls it holds what was
published and not retracted since, and a descriptor is retracted if and only if it is
among them: one copy goes, and it was the last one if nothing is left under its key.
A call that fails changes nothing. -/
theorem registry_refines (calls : List RegistryCall) :
    (opening.run calls).retracted ≤ (opening.run calls).published ∧
    (opening.run calls).registry.Represents (opening.run calls).held ∧
    ∀ d, match (opening.run calls).registry.retract d with
      | .ok (last, r') => d ∈ (opening.run calls).held ∧
          ((opening.run calls).take (.retract d)).registry = r' ∧
          r'.Represents ((opening.run calls).held.erase d) ∧
          (last = true ↔ ∀ d' ∈ (opening.run calls).held.erase d, d'.key ≠ d.key)
      | .error e => d ∉ (opening.run calls).held ∧
          (opening.run calls).take (.retract d) = opening.run calls ∧
          e = .missing (if d.key ∈ (opening.run calls).held.map Descriptor.key
            then .descriptor d.module else .subscriptions d.key.name) := by
  have hbalanced := balanced_opening.run calls
  generalize opening.run calls = l at hbalanced ⊢
  refine ⟨hbalanced.covered, hbalanced.represents, fun d => ?_⟩
  by_cases hd : d ∈ l.held
  · obtain ⟨last, r', hretract, hleft, hlast⟩ := hbalanced.represents.retract hd
    simp only [hretract, take]
    exact ⟨hd, trivial, hleft, hlast⟩
  · have hretract := hbalanced.represents.retract_missing hd
    simp only [hretract, take]
    exact ⟨hd, trivial, trivial⟩

end Ledger

end Subscription
