import Subscription.Log
import Subscription.Store.Basic

/-!
# Plans

Adding and removing subscriptions reaches outside the store: segments are
opened and removed, descriptors published and retracted, and the log is
written.  Other parties may act between any two of these steps.  So an
operation is a plan: a finite tree that puts one request after the other
and goes on with each answer.  Whoever runs a plan says how a request is
answered (`Plan.run`), and each request is answered in one step.

A request may be the end of the whole operation, when a promise is broken
while it is answered.  What the operation has changed by then is what it has
settled: unless a plan says otherwise (`Plan.settle`), nothing.
-/

namespace Subscription

/-- What a plan asks for. -/
inductive Request where
  /-- Open the segment with a key, making it when there is none. -/
  | openSegment (key : SegmentKey) (kind : HeaderKind)
  /-- Remove the segment with a key. -/
  | removeSegment (key : SegmentKey)
  /-- Put a descriptor into the registry. -/
  | publish (d : Descriptor)
  /-- Take a descriptor out of the registry. -/
  | retract (d : Descriptor)
  /-- Add a line to the log. -/
  | note (line : LogLine)
  /-- Let these be the subscriptions, whatever becomes of the operation. -/
  | settle (s : Store)
  deriving DecidableEq, Repr, Inhabited

/-- How a request is answered: an opened segment comes with whether it was
made, a retracted descriptor with whether it was the last one of its
segment. -/
def Request.Answer : Request → Type
  | .openSegment _ _ => Except Error (Segment × Bool)
  | .publish _ => Except Error Unit
  | .retract _ => Except Error Bool
  | .removeSegment _ | .note _ | .settle _ => Unit

/-- Requests, one after the other, and a result. -/
inductive Plan (α : Type) where
  | done (result : α)
  | ask (request : Request) (next : request.Answer → Plan α)

namespace Plan

variable {α β : Type}

/-- A plan that goes on with a second one. -/
def bind : Plan α → (α → Plan β) → Plan β
  | done result, next => next result
  | ask request rest, next => ask request fun answer => (rest answer).bind next

instance : Monad Plan where
  pure := done
  bind := bind

/-- A single request. -/
def request (r : Request) : Plan r.Answer := ask r done

/-- Opens a segment. -/
def openSegment (key : SegmentKey) (kind : HeaderKind) : Plan (Except Error (Segment × Bool)) :=
  request (.openSegment key kind)

/-- Removes a segment. -/
def removeSegment (key : SegmentKey) : Plan Unit := request (.removeSegment key)

/-- Publishes a descriptor. -/
def publish (d : Descriptor) : Plan (Except Error Unit) := request (.publish d)

/-- Retracts a descriptor. -/
def retract (d : Descriptor) : Plan (Except Error Bool) := request (.retract d)

/-- Adds a line to the log. -/
def note (level : LogLevel) (text : String) : Plan Unit := request (.note ⟨level, text⟩)

/-- Lets the subscriptions be the given ones from here on. -/
def settle (s : Store) : Plan Unit := request (.settle s)

/-- Runs a plan with the given answers. -/
def run {m : Type → Type} [Monad m] (answer : (r : Request) → m r.Answer) : Plan α → m α
  | done result => Pure.pure result
  | ask r next => answer r >>= fun a => (next a).run answer

/-- Going on with a result changes nothing. -/
theorem bind_done (p : Plan α) : p.bind done = p := by
  induction p with
  | done result => rfl
  | ask request next ih => simp [bind, ih]

/-- How plans are put together does not matter. -/
theorem bind_assoc {γ : Type} (p : Plan α) (f : α → Plan β) (g : β → Plan γ) :
    (p.bind f).bind g = p.bind fun a => (f a).bind g := by
  induction p with
  | done result => rfl
  | ask request next ih => simp [bind, ih]

end Plan

end Subscription
