/-!
# Collections without an order of their own

A dense sequence in which the hole left by a removal is filled with the
last item, so that a removal moves at most one other item.  Items keep
their place otherwise; new ones go to the end.  `SwapSet.swapRemove` gives
the removed item back and `SwapSet.toList` is the view.
-/

namespace Subscription

/-- A dense collection of items. -/
structure SwapSet (α : Type) where
  toList : List α
  deriving DecidableEq, Repr, Inhabited

namespace SwapSet

variable {α : Type}

/-- The collection of no items. -/
def empty : SwapSet α := ⟨[]⟩

/-- The number of items. -/
def size (s : SwapSet α) : Nat := s.toList.length

/-- Whether there are no items. -/
def isEmpty (s : SwapSet α) : Bool := s.toList.isEmpty

/-- Puts an item at the end. -/
def push (s : SwapSet α) (item : α) : SwapSet α := ⟨s.toList ++ [item]⟩

/-- The place of the first item that passes the test. -/
def position? (s : SwapSet α) (test : α → Bool) : Option Nat := s.toList.findIdx? test

/-- The first item that passes the test. -/
def find? (s : SwapSet α) (test : α → Bool) : Option α := s.toList.find? test

/-- The item at a place. -/
def get? (s : SwapSet α) (place : Nat) : Option α := s.toList[place]?

/-- Replaces the item at a place. -/
def set (s : SwapSet α) (place : Nat) (item : α) : SwapSet α := ⟨s.toList.set place item⟩

/-- Changes the item at a place. -/
def modify (s : SwapSet α) (place : Nat) (change : α → α) : SwapSet α :=
  ⟨s.toList.modify place change⟩

/-- Changes every item. -/
def map (s : SwapSet α) (change : α → α) : SwapSet α := ⟨s.toList.map change⟩

/-- Takes the last item out. -/
def pop? (s : SwapSet α) : Option (α × SwapSet α) :=
  s.toList.getLast?.map fun item => (item, ⟨s.toList.dropLast⟩)

/-- The given items, the last one first, each with those before it. -/
def drainFrom : List α → List (α × SwapSet α)
  | [] => []
  | item :: before => (item, ⟨before.reverse⟩) :: drainFrom before

/-- The items in the order in which `pop?` takes them out, each with the items
that are left then. -/
def drain (s : SwapSet α) : List (α × SwapSet α) := drainFrom s.toList.reverse

/-- The items when the one at `place` is gone and the last one has moved
into its place. -/
def withoutPlace (items : List α) (place : Nat) : List α :=
  match items.getLast? with
  | some last => (items.set place last).dropLast
  | none => items

/-- Takes the item at a place out, the last item filling the hole. -/
def swapRemove? (s : SwapSet α) (place : Nat) : Option (α × SwapSet α) :=
  (s.get? place).map fun item => (item, ⟨withoutPlace s.toList place⟩)

/-- Drops the item at a place, if there is one. -/
def erasePlace (s : SwapSet α) (place : Nat) : SwapSet α :=
  match s.swapRemove? place with
  | some (_, rest) => rest
  | none => s

@[simp] theorem toList_push (s : SwapSet α) (item : α) :
    (s.push item).toList = s.toList ++ [item] := rfl

/-- The item that came last is taken out first. -/
theorem drain_push (s : SwapSet α) (item : α) : (s.push item).drain = (item, s) :: s.drain := by
  simp [drain, push, drainFrom]

/-- A removal leaves one item less. -/
theorem length_withoutPlace (items : List α) (place : Nat) :
    (withoutPlace items place).length = items.length - 1 := by
  cases h : items.getLast? with
  | none => simp_all [withoutPlace]
  | some last => simp [withoutPlace, h]

end SwapSet

end Subscription
