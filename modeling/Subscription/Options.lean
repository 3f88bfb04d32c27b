/-!
# Options of a change subscription

A set of flags, kept with the subscription and part of its identity.
-/

namespace Subscription

/-- A set of subscription flags. -/
structure SubscribeOptions where
  bits : UInt32
  deriving DecidableEq, Repr, Inhabited

namespace SubscribeOptions

/-- No flag. -/
def none : SubscribeOptions := ⟨0⟩
/-- The subscriber does not count as interested in the module. -/
def passive : SubscribeOptions := ⟨1⟩
/-- Only finished changes are of interest. -/
def doneOnly : SubscribeOptions := ⟨2⟩
/-- The present data are wanted at once. -/
def enabled : SubscribeOptions := ⟨4⟩
/-- The subscriber may amend a change. -/
def update : SubscribeOptions := ⟨8⟩

/-- The flags in either set. -/
def union (a b : SubscribeOptions) : SubscribeOptions := ⟨a.bits ||| b.bits⟩

/-- Whether every flag of `b` is in `a`. -/
def contains (a b : SubscribeOptions) : Bool := a.bits &&& b.bits == b.bits

end SubscribeOptions

end Subscription
