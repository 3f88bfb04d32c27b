import Mathlib.Data.List.Nodup
import Mathlib.Data.List.Perm.Basic
import Subscription.Store.Group

/-!
# What is in a collection

The order of a collection says nothing, so that it is seen as what it holds, up to
a permutation: a removal moves the last item into the hole and still takes out
nothing but the one at its place (`SwapSet.perm_withoutPlace`).

The same for groups (`Groups.entries`): adding a subscription adds one entry,
whether it goes into a group that is there or into a new one, and dropping one
takes one entry away, whether its group stays or goes with it (`Groups.Drops`).  What
groups share is no more repeated afterwards than before, and no group is ever empty
(`Groups.Distinct`).
-/

namespace Subscription

open scoped List

/-! ## Tables -/

section Tables

variable {α β : Type} [BEq α] [LawfulBEq α]

theorem lookup_concat [DecidableEq α] (table : List (α × β)) (a b : α) (y : β)
    (hfree : table.lookup b = none) :
    (table ++ [(b, y)]).lookup a = if a = b then some y else table.lookup a := by
  rw [List.lookup_append]
  by_cases hab : a = b
  · subst hab
    simp [hfree]
  · simp [hab, List.lookup_cons, beq_eq_false_iff_ne.2 hab]

theorem lookup_filter_ne [DecidableEq α] (table : List (α × β)) (a b : α) :
    (table.filter fun row => row.1 ≠ b).lookup a = if a = b then none else table.lookup a := by
  induction table with
  | nil => simp
  | cons row rest ih =>
      obtain ⟨c, y⟩ := row
      by_cases hc : c = b
      · subst hc
        rw [List.filter_cons_of_neg (by simp), ih]
        by_cases ha : a = c
        · simp [ha]
        · simp [ha, List.lookup_cons, beq_eq_false_iff_ne.2 ha]
      · rw [List.filter_cons_of_pos (by simpa using hc), List.lookup_cons, List.lookup_cons, ih]
        by_cases ha : a = c
        · subst ha
          simp [hc]
        · simp [beq_eq_false_iff_ne.2 ha]

end Tables

/-! ## What the items of a list hold -/

/-- What one item holds, and what the others do. -/
theorem exists_others {α β : Type} (f : α → List β) {items : List α} {i : Nat} {x : α}
    (hx : items[i]? = some x) :
    ∃ others, items.flatMap f ~ f x ++ others ∧
      (∀ y, (items.set i y).flatMap f ~ f y ++ others) ∧
      (items.eraseIdx i).flatMap f = others := by
  obtain ⟨hi, rfl⟩ := List.getElem?_eq_some_iff.1 hx
  have hmove : ∀ front back held : List β, front ++ (held ++ back) ~ held ++ (front ++ back) := by
    intro front back held
    rw [← List.append_assoc, ← List.append_assoc]
    exact List.perm_append_comm.append_right back
  refine ⟨(items.take i).flatMap f ++ (items.drop (i + 1)).flatMap f, ?_, ?_, ?_⟩
  · have hsplit : items = items.take i ++ items[i] :: items.drop (i + 1) := by
      rw [List.getElem_cons_drop, List.take_append_drop]
    calc items.flatMap f
        = (items.take i ++ items[i] :: items.drop (i + 1)).flatMap f := by
          rw [← hsplit]
      _ ~ _ := by
          rw [List.flatMap_append, List.flatMap_cons]
          exact hmove _ _ _
  · intro y
    rw [List.set_eq_take_append_cons_drop, if_pos hi, List.flatMap_append, List.flatMap_cons]
    exact hmove _ _ _
  · rw [List.eraseIdx_eq_take_drop_succ, List.flatMap_append]

/-- One item is replaced, and the others are what they were. -/
theorem forall_set {α : Type} {items : List α} {i : Nat} {x y : α} {P : Nat → α → Prop}
    (hx : items[i]? = some x) (hhere : P i y)
    (hother : ∀ j z, i ≠ j → items[j]? = some z → P j z) :
    ∀ j z, (items.set i y)[j]? = some z → P j z := by
  intro j z hz
  by_cases hij : i = j
  · subst hij
    rw [List.getElem?_set_self (List.getElem?_eq_some_iff.1 hx).1] at hz
    cases hz
    exact hhere
  · rw [List.getElem?_set_ne hij] at hz
    exact hother j z hij hz

/-! ## Collections -/

namespace SwapSet

variable {α : Type} {s : SwapSet α} {place : Nat} {x : α}

/-- A place has something before it and something behind it. -/
theorem exists_around (hget : s.get? place = some x) :
    ∃ before after, s.toList = before ++ x :: after ∧
      (∀ f, (s.modify place f).toList = before ++ f x :: after) ∧
      ∀ y, (s.set place y).toList = before ++ y :: after := by
  obtain ⟨hplace, hx⟩ := List.getElem?_eq_some_iff.1 hget
  refine ⟨s.toList.take place, s.toList.drop (place + 1), ?_, ?_, ?_⟩
  · rw [← hx, List.getElem_cons_drop, List.take_append_drop]
  · intro f
    rw [modify, List.modify_eq_take_cons_drop hplace, hx]
  · intro y
    rw [set, List.set_eq_take_append_cons_drop, if_pos hplace]

/-- **A removal takes out the item at its place.** -/
theorem perm_withoutPlace {items : List α} (hget : items[place]? = some x) :
    x :: withoutPlace items place ~ items := by
  cases hlast : items.getLast? with
  | none =>
      rw [List.getLast?_eq_none_iff] at hlast
      simp [hlast] at hget
  | some last =>
      obtain ⟨front, rfl⟩ := List.getLast?_eq_some_iff.1 hlast
      simp only [withoutPlace, hlast]
      obtain ⟨hplace, hx⟩ := List.getElem?_eq_some_iff.1 hget
      rw [List.length_append, List.length_singleton] at hplace
      by_cases hend : place = front.length
      · subst hend
        have hsame : last = x := by simpa using hx
        simpa [hsame] using (List.perm_append_singleton x front).symm
      · have hinside : place < front.length := by omega
        have hfront : front[place] = x := by simpa [List.getElem_append_left hinside] using hx
        rw [List.set_append_left _ _ hinside, List.dropLast_concat]
        calc x :: front.set place last
            ~ x :: last :: front.eraseIdx place := (List.set_perm_cons_eraseIdx hinside last).cons x
          _ ~ last :: x :: front.eraseIdx place := List.Perm.swap _ _ _
          _ ~ last :: front := by
              rw [← hfront]
              exact (List.getElem_cons_eraseIdx_perm hinside).cons last
          _ ~ front ++ [last] := (List.perm_append_singleton last front).symm

theorem perm_erasePlace (hget : s.get? place = some x) :
    x :: (s.erasePlace place).toList ~ s.toList := by
  have herase : (s.erasePlace place).toList = withoutPlace s.toList place := by
    simp [erasePlace, swapRemove?, hget]
  rw [herase]
  exact perm_withoutPlace hget

/-- There is no item, or there is one that came last. -/
theorem eq_empty_or_push (s : SwapSet α) : s = .empty ∨ ∃ front item, s = push front item := by
  obtain ⟨items⟩ := s
  rcases List.eq_nil_or_concat items with rfl | ⟨front, item, rfl⟩
  · exact .inl rfl
  · exact .inr ⟨⟨front⟩, item, by rw [push, List.concat_eq_append]⟩

theorem exists_get?_of_position? {test : α → Bool} (hplace : s.position? test = some place) :
    ∃ x, s.get? place = some x ∧ test x = true := by
  obtain ⟨hlt, hx, -⟩ := List.findIdx?_eq_some_iff_getElem.1 hplace
  exact ⟨s.toList[place], List.getElem?_eq_getElem hlt, hx⟩

theorem forall_of_position?_eq_none {test : α → Bool} (hplace : s.position? test = none) :
    ∀ x ∈ s.toList, test x = false := by
  simpa [position?] using hplace

end SwapSet

/-! ## Groups -/

namespace Groups

variable {ι κ α : Type} {groups : Groups ι α} {place entry : Nat}
variable {g : Group ι α} {shared : ι} {sub : α} {key : ι → κ}

/-- No group is empty, and no two of them have the same key. -/
structure Distinct (key : ι → κ) (groups : Groups ι α) : Prop where
  nonempty : ∀ g ∈ groups.toList, g.subs.toList ≠ []
  nodup : (groups.toList.map fun g => key g.shared).Nodup

/-- What is located is there. -/
theorem exists_of_locate? {isGroup : ι → Bool} {isSub : α → Bool}
    (hlocate : groups.locate? isGroup isSub = some (place, entry)) :
    ∃ g sub, groups.get? place = some g ∧ isGroup g.shared = true ∧
      g.subs.get? entry = some sub ∧ isSub sub = true := by
  unfold locate? at hlocate
  obtain ⟨place', hplace, hlocate⟩ := Option.bind_eq_some_iff.1 hlocate
  obtain ⟨g, hget, hlocate⟩ := Option.bind_eq_some_iff.1 hlocate
  obtain ⟨entry', hentry, hpair⟩ := Option.map_eq_some_iff.1 hlocate
  cases hpair
  obtain ⟨g', hget', hgroup⟩ := SwapSet.exists_get?_of_position? hplace
  obtain ⟨sub, hsub, htest⟩ := SwapSet.exists_get?_of_position? hentry
  rw [hget] at hget'
  cases hget'
  exact ⟨g, sub, hget, hgroup, hsub, htest⟩

theorem mem_of_get? (hget : groups.get? place = some g) : g ∈ groups.toList :=
  List.mem_of_getElem? hget

/-- What a group holds, each with what the group shares. -/
def entriesOf (g : Group ι α) : List (ι × α) := g.subs.toList.map fun sub => (g.shared, sub)

theorem entries_eq (groups : Groups ι α) : groups.entries = groups.toList.flatMap entriesOf := rfl

theorem mem_entries {x : ι × α} :
    x ∈ groups.entries ↔ ∃ g ∈ groups.toList, x.1 = g.shared ∧ x.2 ∈ g.subs.toList := by
  obtain ⟨shared, sub⟩ := x
  simp only [entries, List.mem_flatMap, List.mem_map, Prod.mk.injEq]
  constructor
  · rintro ⟨g, hg, sub, hsub, rfl, rfl⟩
    exact ⟨g, hg, rfl, hsub⟩
  · rintro ⟨g, hg, rfl, hsub⟩
    exact ⟨g, hg, sub, hsub, rfl, rfl⟩

theorem distinct_empty : Distinct key (SwapSet.empty : Groups ι α) := by
  constructor <;> simp [SwapSet.empty]

/-- A group that gets one more subscription. -/
theorem entriesOf_push (g : Group ι α) (sub : α) :
    entriesOf { g with subs := g.subs.push sub } ~ (g.shared, sub) :: entriesOf g := by
  simp only [entriesOf, SwapSet.toList_push, List.map_append, List.map_singleton]
  exact List.perm_append_singleton _ _

theorem perm_entries_insert (hget : groups.get? place = some g) (sub : α) :
    (groups.insert place sub).entries ~ (g.shared, sub) :: groups.entries := by
  obtain ⟨before, after, hgroups, hmodify, -⟩ := SwapSet.exists_around hget
  rw [entries_eq, entries_eq, insert, hmodify, hgroups]
  simp only [List.flatMap_append, List.flatMap_cons]
  calc before.flatMap entriesOf ++
        (entriesOf { g with subs := g.subs.push sub } ++ after.flatMap entriesOf)
      ~ before.flatMap entriesOf ++ ((g.shared, sub) :: entriesOf g ++ after.flatMap entriesOf) :=
        ((entriesOf_push g sub).append_right _).append_left _
    _ ~ (g.shared, sub) :: (before.flatMap entriesOf ++ (entriesOf g ++ after.flatMap entriesOf)) :=
        List.perm_middle

theorem distinct_insert (hget : groups.get? place = some g) (sub : α)
    (hdistinct : groups.Distinct key) : (groups.insert place sub).Distinct key := by
  obtain ⟨before, after, hgroups, hmodify, -⟩ := SwapSet.exists_around hget
  obtain ⟨hnonempty, hnodup⟩ := hdistinct
  constructor
  · intro g' hg'
    rw [insert, hmodify] at hg'
    rcases List.mem_append.1 hg' with hbefore | hg'
    · exact hnonempty g' (by simp [hgroups, hbefore])
    · rcases List.mem_cons.1 hg' with rfl | hafter
      · simp
      · exact hnonempty g' (by simp [hgroups, hafter])
  · rw [insert, hmodify]
    simpa [hgroups] using hnodup

theorem perm_entries_insertNew (groups : Groups ι α) (shared : ι) (sub : α) :
    (groups.insertNew shared sub).entries ~ (shared, sub) :: groups.entries := by
  have happend : (groups.insertNew shared sub).entries = groups.entries ++ [(shared, sub)] := by
    simp [entries, insertNew, SwapSet.empty]
  rw [happend]
  exact List.perm_append_singleton _ _

theorem distinct_insertNew (hdistinct : groups.Distinct key) (sub : α)
    (hnew : ∀ g ∈ groups.toList, key g.shared ≠ key shared) :
    (groups.insertNew shared sub).Distinct key := by
  obtain ⟨hnonempty, hnodup⟩ := hdistinct
  constructor
  · intro g hg
    rw [insertNew, SwapSet.toList_push] at hg
    rcases List.mem_append.1 hg with hold | hlast
    · exact hnonempty g hold
    · rw [List.mem_singleton.1 hlast]
      simp
  · rw [insertNew, SwapSet.toList_push, List.map_append, List.nodup_append']
    refine ⟨hnodup, List.nodup_singleton _, ?_⟩
    rw [List.disjoint_right]
    intro k hk hmem
    obtain ⟨g, hg, rfl⟩ := List.mem_map.1 hmem
    exact hnew g hg (by simpa using hk)

theorem entries_push (groups : Groups ι α) (g : Group ι α) :
    Groups.entries (groups.push g) = groups.entries ++ entriesOf g := by
  simp [entries_eq]

/-- The group that came last can be left out. -/
theorem Distinct.of_push (hdistinct : Distinct key (groups.push g)) : groups.Distinct key := by
  obtain ⟨hnonempty, hnodup⟩ := hdistinct
  constructor
  · exact fun g' hg' => hnonempty g' (List.mem_append_left _ hg')
  · rw [SwapSet.toList_push, List.map_append] at hnodup
    exact hnodup.of_append_left

/-- One subscription less: its group goes on with the others, or goes when there are none.
All other groups are as they were. -/
def Drops (groups groups' : Groups ι α) (shared : ι) (sub : α) : Prop :=
  ∃ (subs left : SwapSet α) (others : List (Group ι α)),
    groups.toList ~ ⟨shared, subs⟩ :: others ∧ subs.toList ~ sub :: left.toList ∧
    groups'.toList ~ if left.isEmpty then others else ⟨shared, left⟩ :: others

/-- **What is dropped** is one subscription, whatever becomes of its group. -/
theorem drops_erase (hget : groups.get? place = some g) (hsub : g.subs.get? entry = some sub) :
    groups.Drops (groups.erase place entry) g.shared sub := by
  have hleft : g.subs.toList ~ sub :: (g.subs.erasePlace entry).toList :=
    (SwapSet.perm_erasePlace hsub).symm
  unfold erase
  rw [hget]
  dsimp only
  by_cases hlast : (g.subs.erasePlace entry).isEmpty = true
  · refine ⟨g.subs, _, (groups.erasePlace place).toList, ?_, hleft, ?_⟩
    · exact (SwapSet.perm_erasePlace hget).symm
    · rw [if_pos hlast, if_pos hlast]
  · obtain ⟨before, after, hgroups, -, hset⟩ := SwapSet.exists_around hget
    refine ⟨g.subs, _, before ++ after, ?_, hleft, ?_⟩
    · rw [hgroups]
      exact List.perm_middle
    · rw [if_neg hlast, if_neg hlast, hset]
      exact List.perm_middle

/-- One entry is gone, and the others are there. -/
theorem Drops.perm_entries {groups' : Groups ι α} (hdrops : groups.Drops groups' shared sub) :
    groups.entries ~ (shared, sub) :: groups'.entries := by
  obtain ⟨subs, left, others, hgroups, hsubs, hgroups'⟩ := hdrops
  have hgroup : entriesOf ⟨shared, subs⟩ ~ (shared, sub) :: entriesOf ⟨shared, left⟩ :=
    hsubs.map fun sub => (shared, sub)
  have hrest : groups'.entries ~ entriesOf ⟨shared, left⟩ ++ others.flatMap entriesOf := by
    rw [entries_eq]
    refine (hgroups'.flatMap_right _).trans ?_
    by_cases hlast : left.isEmpty = true
    · have hempty : entriesOf (⟨shared, left⟩ : Group ι α) = [] := by
        simpa [entriesOf, SwapSet.isEmpty] using hlast
      rw [if_pos hlast, hempty]
      exact .refl _
    · rw [if_neg hlast]
      exact .refl _
  calc groups.entries
      ~ entriesOf ⟨shared, subs⟩ ++ others.flatMap entriesOf := by
        rw [entries_eq]
        exact hgroups.flatMap_right _
    _ ~ (shared, sub) :: (entriesOf ⟨shared, left⟩ ++ others.flatMap entriesOf) :=
        hgroup.append_right _
    _ ~ (shared, sub) :: groups'.entries := hrest.symm.cons _

theorem Drops.distinct {groups' : Groups ι α} (hdrops : groups.Drops groups' shared sub)
    (hdistinct : groups.Distinct key) : groups'.Distinct key := by
  obtain ⟨subs, left, others, hgroups, -, hgroups'⟩ := hdrops
  have hnodup := (hgroups.map fun g => key g.shared).nodup_iff.1 hdistinct.nodup
  have hothers : ∀ g ∈ others, g.subs.toList ≠ [] := fun g hg =>
    hdistinct.nonempty g (hgroups.mem_iff.2 (List.mem_cons_of_mem _ hg))
  by_cases hlast : left.isEmpty = true
  · rw [if_pos hlast] at hgroups'
    refine ⟨fun g hg => hothers g (hgroups'.mem_iff.1 hg), ?_⟩
    exact (hgroups'.map fun g => key g.shared).nodup_iff.2 (List.nodup_cons.1 hnodup).2
  · rw [if_neg hlast] at hgroups'
    refine ⟨fun g hg => ?_, (hgroups'.map fun g => key g.shared).nodup_iff.2 hnodup⟩
    rcases List.mem_cons.1 (hgroups'.mem_iff.1 hg) with rfl | hother
    · simpa [SwapSet.isEmpty] using hlast
    · exact hothers g hother

/-- **What is not located** is not there: groups are told apart by their keys, so that the
first one of a key is the only one. -/
theorem not_of_locate?_eq_none {isGroup : ι → Bool} {isSub : α → Bool} {k : κ}
    (hdistinct : groups.Distinct key) (hgroup : ∀ c, isGroup c = true ↔ key c = k)
    (hlocate : groups.locate? isGroup isSub = none) {x : ι × α} (hx : x ∈ groups.entries)
    (hshared : isGroup x.1 = true) : isSub x.2 = false := by
  obtain ⟨g, hg, hsame, hsub⟩ := mem_entries.1 hx
  rw [hsame] at hshared
  cases hplace : groups.position? isGroup with
  | none =>
      have hnone := SwapSet.forall_of_position?_eq_none hplace g hg
      rw [hshared] at hnone
      cases hnone
  | some place =>
      obtain ⟨first, hget, hfirst⟩ := SwapSet.exists_get?_of_position? hplace
      have hkeys : key first.shared = key g.shared :=
        ((hgroup _).1 hfirst).trans ((hgroup _).1 hshared).symm
      obtain rfl : first = g := List.inj_on_of_nodup_map hdistinct.nodup (mem_of_get? hget) hg hkeys
      simp only [locate?, hplace, Option.bind_some, hget, Option.map_eq_none_iff] at hlocate
      exact SwapSet.forall_of_position?_eq_none hlocate x.2 hsub

/-- **What is located** is there, and can be dropped. -/
theorem drops_of_locate? {isGroup : ι → Bool} {isSub : α → Bool}
    (hlocate : groups.locate? isGroup isSub = some (place, entry)) :
    ∃ shared sub, (shared, sub) ∈ groups.entries ∧ isGroup shared = true ∧ isSub sub = true ∧
      groups.Drops (groups.erase place entry) shared sub := by
  obtain ⟨g, sub, hget, hgroup, hsub, htest⟩ := exists_of_locate? hlocate
  have hdrops := drops_erase hget hsub
  exact ⟨g.shared, sub, hdrops.perm_entries.mem_iff.2 List.mem_cons_self, hgroup, htest, hdrops⟩

end Groups

end Subscription
