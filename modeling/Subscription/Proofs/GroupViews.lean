import Subscription.Proofs.Collections

/-!
# Groups seen in another way

What is done to groups does not look at what they hold: adding and dropping commute
with any way of seeing what groups share and what their subscriptions are
(`Groups.view`).  So two collections that look alike stay alike when the same is done
to both of them, although one may know more than the other.
-/

namespace Subscription

namespace SwapSet

variable {α β : Type}

/-- Every item seen in another way. -/
def view (h : α → β) (s : SwapSet α) : SwapSet β := ⟨s.toList.map h⟩

variable {h : α → β} {s : SwapSet α}

theorem get?_view (place : Nat) : (s.view h).get? place = (s.get? place).map h :=
  List.getElem?_map

theorem position?_view {test : α → Bool} {test' : β → Bool} (htest : ∀ x, test' (h x) = test x) :
    (s.view h).position? test' = s.position? test := by
  have hsame : test' ∘ h = test := funext htest
  rw [position?, view, List.findIdx?_map, hsame]
  rfl

theorem push_view (x : α) : (s.view h).push (h x) = (s.push x).view h := by
  simp [push, view]

theorem set_view (place : Nat) (x : α) : (s.view h).set place (h x) = (s.set place x).view h := by
  simp [set, view, List.map_set]

theorem modify_view {f : α → α} {f' : β → β} (hf : ∀ x, f' (h x) = h (f x)) (place : Nat) :
    (s.view h).modify place f' = (s.modify place f).view h := by
  simp only [modify, view]
  congr 1
  apply List.ext_getElem?
  intro i
  simp only [List.getElem?_modify, List.getElem?_map]
  cases s.toList[i]? with
  | none => rfl
  | some x =>
      by_cases hi : place = i
      · simp [hi, hf]
      · simp [hi]

theorem erasePlace_view (place : Nat) :
    (s.view h).erasePlace place = (s.erasePlace place).view h := by
  unfold erasePlace swapRemove?
  rw [get?_view]
  cases s.get? place with
  | none => rfl
  | some x =>
      simp only [Option.map_some, view, withoutPlace, List.getLast?_map]
      cases s.toList.getLast? with
      | none => rfl
      | some last => simp [List.map_set, List.map_dropLast]

end SwapSet

namespace Groups

variable {ι κ α β : Type}

/-- A group seen in another way. -/
def viewOf (f : ι → κ) (h : α → β) (g : Group ι α) : Group κ β := ⟨f g.shared, g.subs.view h⟩

/-- Groups seen in another way. -/
def view (f : ι → κ) (h : α → β) (groups : Groups ι α) : Groups κ β :=
  SwapSet.view (viewOf f h) groups

variable {f : ι → κ} {h : α → β} {groups : Groups ι α}

theorem position?_view {isGroup : ι → Bool} {isGroup' : κ → Bool}
    (hgroup : ∀ c, isGroup' (f c) = isGroup c) :
    (groups.view f h).position? isGroup' = groups.position? isGroup :=
  SwapSet.position?_view fun g => hgroup g.shared

theorem locate?_view {isGroup : ι → Bool} {isGroup' : κ → Bool} {isSub : α → Bool}
    {isSub' : β → Bool} (hgroup : ∀ c, isGroup' (f c) = isGroup c)
    (hsub : ∀ x, isSub' (h x) = isSub x) :
    (groups.view f h).locate? isGroup' isSub' = groups.locate? isGroup isSub := by
  unfold locate?
  rw [position?_view hgroup]
  congr 1
  funext place
  rw [view, SwapSet.get?_view]
  cases SwapSet.get? groups place with
  | none => rfl
  | some g =>
      simp only [Option.map_some, Option.bind_some]
      rw [viewOf, SwapSet.position?_view hsub]

theorem insert_view (place : Nat) (x : α) :
    (groups.view f h).insert place (h x) = (groups.insert place x).view f h := by
  refine SwapSet.modify_view (fun g => ?_) place
  simp [viewOf, SwapSet.push_view]

theorem insertNew_view (shared : ι) (x : α) :
    (groups.view f h).insertNew (f shared) (h x) = (groups.insertNew shared x).view f h :=
  SwapSet.push_view (h := viewOf f h) (s := groups) ⟨shared, SwapSet.empty.push x⟩

theorem erase_view (place entry : Nat) :
    (groups.view f h).erase place entry = (groups.erase place entry).view f h := by
  unfold erase
  rw [view, SwapSet.get?_view]
  cases SwapSet.get? groups place with
  | none => rfl
  | some g =>
      have hleft : (viewOf f h g).subs.erasePlace entry = (g.subs.erasePlace entry).view h :=
        SwapSet.erasePlace_view entry
      have hempty : ((g.subs.erasePlace entry).view h).isEmpty =
          (g.subs.erasePlace entry).isEmpty := by
        simp [SwapSet.isEmpty, SwapSet.view]
      simp only [Option.map_some, hleft, hempty]
      split
      · exact SwapSet.erasePlace_view place
      · exact SwapSet.set_view (h := viewOf f h) place { g with subs := g.subs.erasePlace entry }

theorem entries_view : (groups.view f h).entries = groups.entries.map (Prod.map f h) := by
  simp [entries, view, viewOf, SwapSet.view, List.flatMap_map, List.map_flatMap,
    Function.comp_def]

end Groups

end Subscription
