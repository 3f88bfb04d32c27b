import Subscription.SwapSet

/-!
# Groups of subscriptions

Subscriptions that have something in common — the module, or the segment
they listen on — are kept together in a group.  A group is there as long as
it has subscriptions: it is made with the first one and goes with the last
one (`Groups.erase`).
-/

namespace Subscription

/-- Subscriptions with what they have in common. -/
structure Group (ι α : Type) where
  shared : ι
  subs : SwapSet α
  deriving DecidableEq, Repr, Inhabited

/-- A collection of groups. -/
abbrev Groups (ι α : Type) := SwapSet (Group ι α)

namespace Groups

variable {ι α : Type}

/-- The subscriptions of all groups, each with what its group shares. -/
def entries (groups : Groups ι α) : List (ι × α) :=
  groups.toList.flatMap fun g => g.subs.toList.map fun sub => (g.shared, sub)

/-- The place of the first group that passes a test. -/
def position? (groups : Groups ι α) (isGroup : ι → Bool) : Option Nat :=
  SwapSet.position? groups fun g => isGroup g.shared

/-- The first group that passes a test. -/
def find? (groups : Groups ι α) (isGroup : ι → Bool) : Option (Group ι α) :=
  SwapSet.find? groups fun g => isGroup g.shared

/-- The number of subscriptions in the first group that passes a test. -/
def countIn (groups : Groups ι α) (isGroup : ι → Bool) : Nat :=
  match groups.find? isGroup with
  | some g => g.subs.size
  | none => 0

/-- The places of the first group that passes a test and of the first
subscription in it that passes another. -/
def locate? (groups : Groups ι α) (isGroup : ι → Bool) (isSub : α → Bool) : Option (Nat × Nat) :=
  (groups.position? isGroup).bind fun place =>
    (groups.get? place).bind fun g =>
      (g.subs.position? isSub).map fun entry => (place, entry)

/-- Adds a subscription to the group at a place. -/
def insert (groups : Groups ι α) (place : Nat) (sub : α) : Groups ι α :=
  groups.modify place fun g => { g with subs := g.subs.push sub }

/-- Adds a group with one subscription. -/
def insertNew (groups : Groups ι α) (shared : ι) (sub : α) : Groups ι α :=
  groups.push ⟨shared, SwapSet.empty.push sub⟩

/-- Drops a subscription, and its group with it when it was the last one. -/
def erase (groups : Groups ι α) (place entry : Nat) : Groups ι α :=
  match groups.get? place with
  | none => groups
  | some g =>
      let left := g.subs.erasePlace entry
      if left.isEmpty then groups.erasePlace place
      else groups.set place { g with subs := left }

end Groups

end Subscription
