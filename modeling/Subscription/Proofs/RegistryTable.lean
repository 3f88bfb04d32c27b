import Subscription.Registry
import Subscription.Proofs.Collections

/-!
# The table of the registry

The registry files descriptors under keys, and what matters is which descriptors it
holds and how often (`Registry.all`).  A table in order (`Registry.InOrder`) has
every key once, no key without descriptors and no descriptor under a wrong key; the
empty one is, and it stays so.

* Publishing adds one descriptor (`Registry.publish_all`).
* Retracting takes one away that is there, and tells whether the key is out of use
  then (`Registry.retract_all`).
* The pipes of a key are those of its descriptors, in ascending order and each of
  them once (`Registry.mem_pipes`, `Registry.pairwise_pipes`).
-/

namespace Subscription

open scoped List

namespace Registry

variable {r r' : Registry} {key : SegmentKey} {d : Descriptor} {subs : List Descriptor}

/-- All descriptors. -/
def all (r : Registry) : List Descriptor := r.table.flatMap fun row => row.2

/-- Every key is there once, with all descriptors of that key and none of another. -/
structure InOrder (r : Registry) : Prop where
  once : (r.table.map fun row => row.1).Nodup
  used : ∀ row ∈ r.table, row.2 ≠ []
  filed : ∀ row ∈ r.table, ∀ d ∈ row.2, d.key = row.1

theorem inOrder_empty : empty.InOrder := by
  constructor <;> simp [empty]

theorem mem_all : d ∈ r.all ↔ ∃ row ∈ r.table, d ∈ row.2 := List.mem_flatMap

/-- The row of a key has something before it and something behind it, where the key
is not. -/
theorem exists_row (horder : r.InOrder) (hlookup : r.table.lookup key = some subs) :
    ∃ before after, r.table = before ++ (key, subs) :: after ∧
      (∀ row ∈ before, row.1 ≠ key) ∧ ∀ row ∈ after, row.1 ≠ key := by
  obtain ⟨before, after, htable, hbefore⟩ := List.lookup_eq_some_iff.1 hlookup
  refine ⟨before, after, htable, ?_, ?_⟩
  · intro row hrow heq
    have := hbefore row hrow
    simp [heq] at this
  · intro row hrow heq
    have honce := horder.once
    rw [htable, List.map_append, List.map_cons, List.nodup_append'] at honce
    exact (List.nodup_cons.1 honce.2.1).1 (List.mem_map.2 ⟨row, hrow, heq⟩)

theorem table_update {before after : List (SegmentKey × List Descriptor)}
    (htable : r.table = before ++ (key, subs) :: after)
    (hbefore : ∀ row ∈ before, row.1 ≠ key) (hafter : ∀ row ∈ after, row.1 ≠ key)
    (new : List Descriptor) : (r.update key new).table = before ++ (key, new) :: after := by
  have hkeep : ∀ rows : List (SegmentKey × List Descriptor), (∀ row ∈ rows, row.1 ≠ key) →
      rows.map (fun row => if row.1 = key then (key, new) else row) = rows := by
    intro rows hrows
    calc rows.map (fun row => if row.1 = key then (key, new) else row)
        = rows.map id := List.map_congr_left fun row hrow => if_neg (hrows row hrow)
      _ = rows := List.map_id rows
  simp only [update, htable, List.map_append, List.map_cons]
  rw [hkeep before hbefore, hkeep after hafter]
  simp

theorem table_dropKey {before after : List (SegmentKey × List Descriptor)}
    (htable : r.table = before ++ (key, subs) :: after)
    (hbefore : ∀ row ∈ before, row.1 ≠ key) (hafter : ∀ row ∈ after, row.1 ≠ key) :
    (r.dropKey key).table = before ++ after := by
  have hkeep : ∀ rows : List (SegmentKey × List Descriptor), (∀ row ∈ rows, row.1 ≠ key) →
      rows.filter (fun row => row.1 ≠ key) = rows := fun rows hrows =>
    List.filter_eq_self.2 fun row hrow => by simpa using hrows row hrow
  simp only [dropKey, htable, List.filter_append, List.filter_cons]
  rw [hkeep before hbefore, hkeep after hafter]
  simp

/-- Other descriptors under a key, as long as there are some and they belong there. -/
theorem inOrder_update (horder : r.InOrder) (hlookup : r.table.lookup key = some subs)
    {new : List Descriptor} (hused : new ≠ []) (hfiled : ∀ d ∈ new, d.key = key) :
    (r.update key new).InOrder := by
  obtain ⟨before, after, htable, hbefore, hafter⟩ := exists_row horder hlookup
  have hnew := table_update htable hbefore hafter new
  have hrow : ∀ row ∈ (r.update key new).table, row = (key, new) ∨ row ∈ r.table := by
    intro row hrow
    rw [hnew] at hrow
    rcases List.mem_append.1 hrow with hrow | hrow
    · exact .inr (by simp [htable, hrow])
    · rcases List.mem_cons.1 hrow with rfl | hrow
      · exact .inl rfl
      · exact .inr (by simp [htable, hrow])
  constructor
  · have honce := horder.once
    rw [htable] at honce
    rw [hnew]
    simpa using honce
  · intro row hmem
    rcases hrow row hmem with rfl | hold
    · exact hused
    · exact horder.used row hold
  · intro row hmem
    rcases hrow row hmem with rfl | hold
    · exact hfiled
    · exact horder.filed row hold

theorem inOrder_dropKey (horder : r.InOrder) (key : SegmentKey) : (r.dropKey key).InOrder := by
  have hsub : (r.dropKey key).table.Sublist r.table := List.filter_sublist
  exact ⟨horder.once.sublist (hsub.map _), fun row hrow => horder.used row (hsub.subset hrow),
    fun row hrow => horder.filed row (hsub.subset hrow)⟩

/-- A first descriptor under a key that is not there. -/
theorem inOrder_addKey (horder : r.InOrder) (hlookup : r.table.lookup d.key = none) :
    (⟨r.table ++ [(d.key, [d])]⟩ : Registry).InOrder := by
  have hfree : ∀ row ∈ r.table, row.1 ≠ d.key := by
    intro row hrow heq
    have hmissing := List.lookup_eq_none_iff.1 hlookup row hrow
    simp [heq] at hmissing
  constructor
  · rw [List.map_append, List.nodup_append']
    refine ⟨horder.once, List.nodup_singleton _, ?_⟩
    rw [List.disjoint_right]
    intro key hkey hmem
    obtain ⟨row, hrow, rfl⟩ := List.mem_map.1 hmem
    exact hfree row hrow (by simpa using hkey)
  · intro row hrow
    rcases List.mem_append.1 hrow with hold | hlast
    · exact horder.used row hold
    · rw [List.mem_singleton.1 hlast]
      simp
  · intro row hrow
    rcases List.mem_append.1 hrow with hold | hlast
    · exact horder.filed row hold
    · rw [List.mem_singleton.1 hlast]
      simp

/-- The descriptors are those of a key and the others, which stay when those of the key
change. -/
theorem exists_others (horder : r.InOrder) (hlookup : r.table.lookup key = some subs) :
    ∃ others : List Descriptor, (∀ d ∈ subs, d.key = key) ∧ (∀ d ∈ others, d.key ≠ key) ∧
      r.all ~ subs ++ others ∧ (r.dropKey key).all = others ∧
      ∀ new, (r.update key new).all ~ new ++ others := by
  obtain ⟨before, after, htable, hbefore, hafter⟩ := exists_row horder hlookup
  -- What is filed in front moves behind the descriptors of the key.
  have hall : ∀ new : List Descriptor,
      before.flatMap (·.2) ++ (new ++ after.flatMap (·.2)) ~
        new ++ (before ++ after).flatMap (·.2) := by
    intro new
    rw [List.flatMap_append, ← List.append_assoc, ← List.append_assoc]
    exact List.perm_append_comm.append_right _
  refine ⟨(before ++ after).flatMap (·.2), horder.filed (key, subs) (by simp [htable]), ?_, ?_,
    ?_, ?_⟩
  · intro d hd
    obtain ⟨row, hrow, hin⟩ := List.mem_flatMap.1 hd
    rcases List.mem_append.1 hrow with hrow | hrow
    · rw [horder.filed row (by simp [htable, hrow]) d hin]
      exact hbefore row hrow
    · rw [horder.filed row (by simp [htable, hrow]) d hin]
      exact hafter row hrow
  · rw [all, htable, List.flatMap_append, List.flatMap_cons]
    exact hall subs
  · rw [all, table_dropKey htable hbefore hafter]
  · intro new
    rw [all, table_update htable hbefore hafter, List.flatMap_append, List.flatMap_cons]
    exact hall new

/-- **Publishing adds one descriptor.** -/
theorem publish_all (horder : r.InOrder) (d : Descriptor) :
    (r.publish d).InOrder ∧ (r.publish d).all ~ d :: r.all := by
  unfold publish
  cases hlookup : r.table.lookup d.key with
  | some subs =>
      obtain ⟨others, hfiled, -, hall, -, hupdate⟩ := exists_others horder hlookup
      refine ⟨inOrder_update horder hlookup (by simp) ?_, ?_⟩
      · intro d' hd'
        rcases List.mem_append.1 hd' with hold | hlast
        · exact hfiled d' hold
        · rw [List.mem_singleton.1 hlast]
      · calc (r.update d.key (subs ++ [d])).all
            ~ subs ++ [d] ++ others := hupdate _
          _ ~ d :: (subs ++ others) := by
            rw [List.append_assoc]
            exact List.perm_middle
          _ ~ d :: r.all := hall.symm.cons d
  | none =>
      refine ⟨inOrder_addKey horder hlookup, ?_⟩
      simp only [all, List.flatMap_append, List.flatMap_cons, List.flatMap_nil, List.append_nil]
      exact List.perm_append_singleton _ _

/-- The descriptors of a key that is there. -/
theorem exists_lookup (horder : r.InOrder) (hd : d ∈ r.all) :
    ∃ subs, r.table.lookup d.key = some subs ∧ d ∈ subs := by
  obtain ⟨row, hrow, hmem⟩ := mem_all.1 hd
  have hkey := horder.filed row hrow d hmem
  cases hlookup : r.table.lookup d.key with
  | none =>
      have hmissing := List.lookup_eq_none_iff.1 hlookup row hrow
      simp [hkey] at hmissing
  | some subs =>
      obtain ⟨before, after, htable, hbefore, hafter⟩ := exists_row horder hlookup
      refine ⟨subs, rfl, ?_⟩
      rw [htable] at hrow
      rcases List.mem_append.1 hrow with hrow | hrow
      · exact absurd hkey.symm (hbefore row hrow)
      · rcases List.mem_cons.1 hrow with rfl | hrow
        · exact hmem
        · exact absurd hkey.symm (hafter row hrow)

/-- **Retracting takes one descriptor away,** and the answer tells whether its key
is out of use then. -/
theorem retract_all (horder : r.InOrder) (hd : d ∈ r.all) :
    ∃ last r', r.retract d = .ok (last, r') ∧ r'.InOrder ∧ d :: r'.all ~ r.all ∧
      (last = true ↔ ∀ d' ∈ r'.all, d'.key ≠ d.key) := by
  obtain ⟨subs, hlookup, hmem⟩ := exists_lookup horder hd
  obtain ⟨others, hfiled, hothers, hall, hdrop, hupdate⟩ := exists_others horder hlookup
  obtain ⟨place, hplace⟩ : ∃ place, subs.findIdx? (fun other => other = d) = some place := by
    rw [← Option.isSome_iff_exists, List.findIdx?_isSome]
    exact List.any_eq_true.2 ⟨d, hmem, by simp⟩
  obtain ⟨hlt, hfound, -⟩ := List.findIdx?_eq_some_iff_getElem.1 hplace
  have hperm : d :: SwapSet.withoutPlace subs place ~ subs := by
    refine SwapSet.perm_withoutPlace ?_
    rw [List.getElem?_eq_getElem hlt]
    simpa using hfound
  have hrest : d :: (SwapSet.withoutPlace subs place ++ others) ~ r.all :=
    (hperm.append_right others).trans hall.symm
  unfold retract
  rw [hlookup]
  simp only [hplace]
  by_cases hempty : SwapSet.withoutPlace subs place = []
  · refine ⟨true, r.dropKey d.key, by simp [hempty], inOrder_dropKey horder d.key, ?_, ?_⟩
    · rw [hdrop]
      simpa [hempty] using hrest
    · simpa [hdrop] using hothers
  · have hleft : ∀ d' ∈ SwapSet.withoutPlace subs place, d'.key = d.key := fun d' hd' =>
      hfiled d' (hperm.mem_iff.1 (List.mem_cons_of_mem _ hd'))
    have hnew := hupdate (SwapSet.withoutPlace subs place)
    refine ⟨false, r.update d.key (SwapSet.withoutPlace subs place), by simp [hempty],
      inOrder_update horder hlookup hempty hleft, (hnew.cons d).trans hrest, ?_⟩
    simp only [Bool.false_eq_true, false_iff]
    obtain ⟨d', hd'⟩ := List.exists_mem_of_ne_nil _ hempty
    exact fun hnone => hnone d' (hnew.mem_iff.2 (List.mem_append_left _ hd')) (hleft d' hd')

/-- **What is not there** cannot be retracted, and the error says whether its key is. -/
theorem retract_missing (horder : r.InOrder) (hd : d ∉ r.all) :
    r.retract d = .error (.missing (if d.key ∈ r.all.map Descriptor.key then .descriptor d.module
      else .subscriptions d.key.name)) := by
  unfold retract
  cases hlookup : r.table.lookup d.key with
  | none =>
      have hnone : d.key ∉ r.all.map Descriptor.key := by
        intro hmem
        obtain ⟨d', hd', hkey⟩ := List.mem_map.1 hmem
        obtain ⟨subs, hsubs, -⟩ := exists_lookup horder hd'
        rw [hkey, hlookup] at hsubs
        cases hsubs
      rw [if_neg hnone]
  | some subs =>
      obtain ⟨before, after, htable, -⟩ := exists_row horder hlookup
      have hrow : (d.key, subs) ∈ r.table := by simp [htable]
      obtain ⟨d', hd'⟩ := List.exists_mem_of_ne_nil _ (horder.used _ hrow)
      have hsome : d.key ∈ r.all.map Descriptor.key :=
        List.mem_map.2 ⟨d', mem_all.2 ⟨_, hrow, hd'⟩, horder.filed _ hrow d' hd'⟩
      have hplace : subs.findIdx? (fun other => other = d) = none := by
        apply List.findIdx?_eq_none_iff.2
        intro other hother
        have hne : other ≠ d := by
          intro heq
          subst heq
          exact hd (mem_all.2 ⟨_, hrow, hother⟩)
        simpa using hne
      simp only [hplace]
      rw [if_pos hsome]

/-! ## The pipes of a key -/

/-- What is filed under a key. -/
theorem mem_subscribers (horder : r.InOrder) :
    d ∈ r.subscribers key ↔ d ∈ r.all ∧ d.key = key := by
  unfold subscribers
  constructor
  · intro hd
    cases hlookup : r.table.lookup key with
    | none => simp [hlookup] at hd
    | some subs =>
        rw [hlookup, Option.getD_some] at hd
        obtain ⟨before, after, htable, -⟩ := exists_row horder hlookup
        have hrow : (key, subs) ∈ r.table := by simp [htable]
        exact ⟨mem_all.2 ⟨_, hrow, hd⟩, horder.filed _ hrow d hd⟩
  · rintro ⟨hd, rfl⟩
    obtain ⟨subs, hlookup, hmem⟩ := exists_lookup horder hd
    rwa [hlookup, Option.getD_some]

theorem mem_insertNumber {n m : UInt32} {numbers : List UInt32} :
    m ∈ insertNumber n numbers ↔ m = n ∨ m ∈ numbers := by
  induction numbers with
  | nil => simp [insertNumber]
  | cons k rest ih =>
      unfold insertNumber
      split
      · simp
      · split
        · rename_i heq
          subst heq
          simp
        · simp only [List.mem_cons, ih]
          exact or_left_comm

theorem pairwise_insertNumber {n : UInt32} {numbers : List UInt32}
    (hsorted : numbers.Pairwise (· < ·)) : (insertNumber n numbers).Pairwise (· < ·) := by
  induction numbers with
  | nil => simp [insertNumber]
  | cons k rest ih =>
      obtain ⟨hfirst, hrest⟩ := List.pairwise_cons.1 hsorted
      unfold insertNumber
      split
      · rename_i hlt
        refine List.pairwise_cons.2 ⟨?_, hsorted⟩
        intro m hm
        rcases List.mem_cons.1 hm with rfl | hm
        · exact hlt
        · exact UInt32.lt_trans hlt (hfirst m hm)
      · split
        · exact hsorted
        · rename_i hnot hne
          refine List.pairwise_cons.2 ⟨?_, ih hrest⟩
          intro m hm
          rcases mem_insertNumber.1 hm with rfl | hm
          · exact UInt32.lt_of_le_of_ne (UInt32.not_lt.1 hnot) (Ne.symm hne)
          · exact hfirst m hm

/-- Every subscriber of a key is woken, and nobody else. -/
theorem mem_pipes (horder : r.InOrder) {n : UInt32} :
    n ∈ r.pipes key ↔ ∃ d ∈ r.all, d.key = key ∧ d.pipe = n := by
  have hfold : ∀ numbers : List UInt32,
      n ∈ numbers.foldr insertNumber [] ↔ n ∈ numbers := by
    intro numbers
    induction numbers with
    | nil => simp
    | cons m rest ih => rw [List.foldr_cons, mem_insertNumber, ih, List.mem_cons]
  rw [pipes, hfold, List.mem_map]
  constructor
  · rintro ⟨d, hd, rfl⟩
    obtain ⟨hall, hkey⟩ := (mem_subscribers horder).1 hd
    exact ⟨d, hall, hkey, rfl⟩
  · rintro ⟨d, hall, hkey, rfl⟩
    exact ⟨d, (mem_subscribers horder).2 ⟨hall, hkey⟩, rfl⟩

/-- Nobody is woken twice. -/
theorem pairwise_pipes (r : Registry) (key : SegmentKey) :
    (r.pipes key).Pairwise (· < ·) := by
  unfold pipes
  induction (r.subscribers key).map Descriptor.pipe with
  | nil => exact List.Pairwise.nil
  | cons n rest ih => exact pairwise_insertNumber ih

end Registry

end Subscription
