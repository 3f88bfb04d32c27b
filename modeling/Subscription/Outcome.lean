import Subscription.Error.Basic

/-!
# Actions that may fail

An action changes a state and ends with a result or fails; a failure keeps
what has been changed until then.  The type of an action says how it can
fail: with an `Error`, with an `Abort`, with either of them (`Failure`), or
not at all, when it is written for every type of failure.

`attempt` turns a failure into a result.
-/

namespace Subscription

variable {σ ε ε' α : Type}

/-- Runs an action and gives its failure as a result. -/
def attempt (act : EStateM ε σ α) : EStateM ε' σ (Except ε α) := fun s =>
  match act s with
  | .ok a s => .ok (.ok a) s
  | .error e s => .ok (.error e) s

/-- Changes the type of failures. -/
def mapFailure (f : ε → ε') (act : EStateM ε σ α) : EStateM ε' σ α := fun s =>
  match act s with
  | .ok a s => .ok a s
  | .error e s => .error (f e) s

instance : MonadLift (EStateM Error σ) (EStateM Failure σ) := ⟨mapFailure .error⟩

instance : MonadLift (EStateM Abort σ) (EStateM Failure σ) := ⟨mapFailure .abort⟩

/-- The result, or the failure as one of the action. -/
def ofExcept (result : Except ε α) : EStateM ε σ α := fun s =>
  match result with
  | .ok a => .ok a s
  | .error e => .error e s

/-- Runs an action on a part of the state. -/
def onPart {τ : Type} (part : σ → τ) (put : τ → σ → σ) (act : EStateM ε τ α) : EStateM ε σ α :=
  fun s =>
    match act (part s) with
    | .ok a t => .ok a (put t s)
    | .error e t => .error e (put t s)

end Subscription
