import Subscription.Outcome

/-!
# Following an action

An action is followed in several ways.  Forwards: when a step is known to end
with a result, the rest goes on from there (`bind_of_ok`), and when it is
known to fail, so does the whole (`bind_of_error`).  Backwards: when the whole
has a result, its steps have had theirs (`exists_of_bind_ok`), and when it fails, one
of them has (`exists_of_bind_error`).  Beside another one: an
action on more than a part of the state *shadows* one on that part alone when its steps
do (`Shadows.bind`).  From afar: a *frame*
says how a state may change at all, and an action stays within it when all
its steps do (`Within.bind`), however they end and whoever takes part.
-/

namespace Subscription

variable {σ τ ε ε' α β : Type}

/-- The state that an action leaves, however it ended. -/
def stateAfter : EStateM.Result ε σ α → σ
  | .ok _ s => s
  | .error _ s => s

/-- How an action ended. -/
def resultOf : EStateM.Result ε σ α → Except ε α
  | .ok a _ => .ok a
  | .error e _ => .error e

/-- The same end with another state. -/
def mapState (f : σ → τ) : EStateM.Result ε σ α → EStateM.Result ε τ α
  | .ok a s => .ok a (f s)
  | .error e s => .error e (f s)

@[simp] theorem stateAfter_mapState (f : σ → τ) (r : EStateM.Result ε σ α) :
    stateAfter (mapState f r) = f (stateAfter r) := by
  cases r <;> rfl

@[simp] theorem resultOf_mapState (f : σ → τ) (r : EStateM.Result ε σ α) :
    resultOf (mapState f r) = resultOf r := by
  cases r <;> rfl

@[simp] theorem stateAfter_ofExcept (r : Except ε α) (s : σ) : stateAfter (ofExcept r s) = s := by
  cases r <;> rfl

@[simp] theorem resultOf_ofExcept (r : Except ε α) (s : σ) : resultOf (ofExcept r s) = r := by
  cases r <;> rfl

theorem mapError_eq_ok_iff {f : ε → ε'} {r : Except ε α} {a : α} :
    r.mapError f = .ok a ↔ r = .ok a := by
  cases r with
  | ok b => exact ⟨fun h => Except.ok.inj h ▸ rfl, fun h => Except.ok.inj h ▸ rfl⟩
  | error e =>
      constructor
      all_goals
        intro h
        cases h

theorem mapError_eq_error_iff {f : ε → ε'} {r : Except ε α} {e' : ε'} :
    r.mapError f = .error e' ↔ ∃ e, r = .error e ∧ f e = e' := by
  cases r with
  | ok a =>
      constructor
      · intro h
        cases h
      · intro h
        obtain ⟨_, h, -⟩ := h
        cases h
  | error e =>
      constructor
      · intro h
        cases h
        exact ⟨e, rfl, rfl⟩
      · intro h
        obtain ⟨_, h, heq⟩ := h
        cases h
        rw [← heq]
        rfl

/-! ## Forwards -/

section Forwards

variable {x : EStateM ε σ α} {s s' : σ} {a : α} {e : ε}

/-- The rest goes on with the result. -/
theorem bind_of_ok {f : α → EStateM ε σ β} (h : x s = .ok a s') :
    (x >>= f) s = f a s' := by
  show EStateM.bind x f s = f a s'
  simp [EStateM.bind, h]

/-- Looking at the state comes first in many actions. -/
theorem get_bind_eq {f : σ → EStateM ε σ β} : (MonadState.get >>= f) s = f s s := rfl

/-- A failure is that of the whole. -/
theorem bind_of_error {f : α → EStateM ε σ β} (h : x s = .error e s') :
    (x >>= f) s = .error e s' := by
  show EStateM.bind x f s = .error e s'
  simp [EStateM.bind, h]

theorem modifyGet_of_eq {f : σ → α × σ} (h : f s = (a, s')) :
    (modifyGet f : EStateM ε σ α) s = .ok a s' := by
  have hrun : (modifyGet f : EStateM ε σ α) s = .ok (f s).1 (f s).2 := rfl
  rw [hrun, h]

theorem attempt_of_ok (h : x s = .ok a s') :
    (attempt x : EStateM ε' σ _) s = .ok (.ok a) s' := by
  simp [attempt, h]

theorem attempt_of_error (h : x s = .error e s') :
    (attempt x : EStateM ε' σ _) s = .ok (.error e) s' := by
  simp [attempt, h]

theorem mapFailure_of_ok {f : ε → ε'} (h : x s = .ok a s') :
    mapFailure f x s = .ok a s' := by
  simp [mapFailure, h]

theorem mapFailure_of_error {f : ε → ε'} (h : x s = .error e s') :
    mapFailure f x s = .error (f e) s' := by
  simp [mapFailure, h]

theorem onPart_of_ok {part : τ → σ} {put : σ → τ → τ} {t : τ} (h : x (part t) = .ok a s') :
    onPart part put x t = .ok a (put s' t) := by
  simp [onPart, h]

/-- What never succeeds has nothing to go on with. -/
theorem bind_ne_ok {f : α → EStateM ε σ β} (hx : ∀ a s', x s ≠ .ok a s') (b : β) (s' : σ) :
    (x >>= f) s ≠ .ok b s' := by
  cases hrun : x s with
  | ok a mid => exact absurd hrun (hx a mid)
  | error e mid =>
      rw [bind_of_error hrun]
      exact nofun

/-- The whole does not succeed when the rest never does. -/
theorem bind_ne_ok_of_rest {f : α → EStateM ε σ β} (hf : ∀ a mid b s', f a mid ≠ .ok b s')
    (b : β) (s' : σ) : (x >>= f) s ≠ .ok b s' := by
  cases hrun : x s with
  | ok a mid =>
      rw [bind_of_ok hrun]
      exact hf a mid b s'
  | error e mid =>
      rw [bind_of_error hrun]
      exact nofun

theorem mapFailure_ne_ok {f : ε → ε'} (hx : ∀ a s', x s ≠ .ok a s') (a : α) (s' : σ) :
    mapFailure f x s ≠ .ok a s' := by
  cases hrun : x s with
  | ok a mid => exact absurd hrun (hx a mid)
  | error e mid => simp [mapFailure, hrun]

theorem onPart_ne_ok {part : τ → σ} {put : σ → τ → τ} {t : τ}
    (hx : ∀ a s', x (part t) ≠ .ok a s') (a : α) (t' : τ) : onPart part put x t ≠ .ok a t' := by
  cases hrun : x (part t) with
  | ok a mid => exact absurd hrun (hx a mid)
  | error e mid => simp [onPart, hrun]

end Forwards

/-! ## Backwards -/

section Backwards

variable {s s' : σ}

/-- Whoever has a result had one to go on with. -/
theorem exists_of_bind_ok {x : EStateM ε σ α} {f : α → EStateM ε σ β} {b : β}
    (hrun : (x >>= f) s = .ok b s') : ∃ a mid, x s = .ok a mid ∧ f a mid = .ok b s' := by
  cases hx : x s with
  | ok a mid => exact ⟨a, mid, rfl, (bind_of_ok hx).symm.trans hrun⟩
  | error e mid =>
      rw [bind_of_error hx] at hrun
      cases hrun

/-- A failure is that of the first action or of the rest. -/
theorem exists_of_bind_error {x : EStateM ε σ α} {f : α → EStateM ε σ β} {e : ε}
    (hrun : (x >>= f) s = .error e s') :
    x s = .error e s' ∨ ∃ a mid, x s = .ok a mid ∧ f a mid = .error e s' := by
  cases hx : x s with
  | ok a mid => exact .inr ⟨a, mid, rfl, (bind_of_ok hx).symm.trans hrun⟩
  | error e' mid =>
      rw [bind_of_error hx] at hrun
      cases hrun
      exact .inl rfl

theorem exists_of_mapFailure_error {x : EStateM ε σ α} {f : ε → ε'} {e' : ε'}
    (hrun : mapFailure f x s = .error e' s') : ∃ e, x s = .error e s' ∧ f e = e' := by
  unfold mapFailure at hrun
  cases hx : x s with
  | ok a mid =>
      rw [hx] at hrun
      cases hrun
  | error e mid =>
      rw [hx] at hrun
      cases hrun
      exact ⟨e, rfl, rfl⟩

/-- A result that is given after something else was done. -/
theorem exists_of_attempt_ok {x : EStateM ε σ α} {after : EStateM ε σ Unit} {a : α}
    (hrun : (do
      let result ← (attempt x : EStateM ε σ (Except ε α))
      after
      ofExcept result : EStateM ε σ α) s = .ok a s') :
    ∃ mid, x s = .ok a mid ∧ after mid = .ok () s' := by
  cases hx : x s with
  | ok b mid =>
      rw [bind_of_ok (attempt_of_ok hx)] at hrun
      obtain ⟨done, last, hafter, hlast⟩ := exists_of_bind_ok hrun
      cases hlast
      exact ⟨mid, rfl, hafter⟩
  | error e mid =>
      rw [bind_of_ok (attempt_of_error hx)] at hrun
      obtain ⟨done, last, hafter, hlast⟩ := exists_of_bind_ok hrun
      cases hlast

end Backwards

/-! ## Shadows -/

/-- An action does to a part of the state what another one does to that part alone, and
ends like it. -/
def Shadows (part : σ → τ) (x : EStateM ε σ α) (y : EStateM ε τ α) : Prop :=
  ∀ s, mapState part (x s) = y (part s)

namespace Shadows

variable {part : σ → τ} {x : EStateM ε σ α} {y : EStateM ε τ α}

theorem pure (a : α) : Shadows part (pure a : EStateM ε σ α) (pure a) := fun _ => rfl

theorem throw (e : ε) : Shadows part (throw e : EStateM ε σ α) (throw e) := fun _ => rfl

theorem ofExcept (result : Except ε α) :
    Shadows part (ofExcept result : EStateM ε σ α) (ofExcept result) := by
  intro s
  cases result <;> rfl

/-- Actions that do what others do, one after the other. -/
theorem bind {f : α → EStateM ε σ β} {g : α → EStateM ε τ β} (hx : Shadows part x y)
    (hf : ∀ a, Shadows part (f a) (g a)) : Shadows part (x >>= f) (y >>= g) := by
  intro s
  have hfirst := hx s
  cases hrun : x s with
  | ok a s' =>
      rw [hrun] at hfirst
      rw [bind_of_ok hrun, bind_of_ok hfirst.symm]
      exact hf a s'
  | error e s' =>
      rw [hrun] at hfirst
      rw [bind_of_error hrun, bind_of_error hfirst.symm]
      rfl

theorem attempt (hx : Shadows part x y) :
    Shadows part (attempt x : EStateM ε' σ (Except ε α)) (attempt y) := by
  intro s
  have hfirst := hx s
  cases hrun : x s with
  | ok a s' =>
      rw [hrun] at hfirst
      rw [attempt_of_ok hrun, attempt_of_ok hfirst.symm]
      rfl
  | error e s' =>
      rw [hrun] at hfirst
      rw [attempt_of_error hrun, attempt_of_error hfirst.symm]
      rfl

end Shadows

/-! ## Frames -/

/-- A way in which a state may change.  Not changing at all is one, and so is
changing twice in that way. -/
structure Frame (σ : Type) where
  keeps : σ → σ → Prop
  refl : ∀ s, keeps s s
  trans : ∀ {a b c}, keeps a b → keeps b c → keeps a c

/-- A state may change in any way. -/
def Frame.free : Frame σ where
  keeps _ _ := True
  refl _ := trivial
  trans _ _ := trivial

/-- However the action ends, the state has changed within the frame. -/
def Within (F : Frame σ) (act : EStateM ε σ α) : Prop :=
  ∀ s, F.keeps s (stateAfter (act s))

/-- The same when the action ends in one of some ways; otherwise, nothing is said. -/
def WithinWhen (F : Frame σ) (P : Except ε α → Prop) (act : EStateM ε σ α) : Prop :=
  ∀ s, P (resultOf (act s)) → F.keeps s (stateAfter (act s))

namespace Within

variable {F : Frame σ} {x : EStateM ε σ α}

theorem of_always (hx : WithinWhen F (fun _ => True) x) : Within F x := fun s => hx s trivial

theorem pure (a : α) : Within F (pure a : EStateM ε σ α) := fun s => F.refl s

theorem throw (e : ε) : Within F (throw e : EStateM ε σ α) := fun s => F.refl s

theorem get : Within F (get : EStateM ε σ σ) := fun s => F.refl s

theorem ofExcept (r : Except ε α) : Within F (ofExcept r : EStateM ε σ α) := by
  intro s
  cases r <;> exact F.refl s

theorem modify {f : σ → σ} (h : ∀ s, F.keeps s (f s)) :
    Within F (modify f : EStateM ε σ PUnit) := fun s => h s

theorem modifyGet {f : σ → α × σ} (h : ∀ s, F.keeps s (f s).2) :
    Within F (modifyGet f : EStateM ε σ α) := fun s => h s

/-- The rest starts from what the action has left. -/
theorem bind_at {f : α → EStateM ε σ β} {s : σ} (hx : F.keeps s (stateAfter (x s)))
    (hf : ∀ a mid, x s = .ok a mid → F.keeps mid (stateAfter (f a mid))) :
    F.keeps s (stateAfter ((x >>= f) s)) := by
  cases hrun : x s with
  | ok a mid =>
      rw [hrun] at hx
      rw [bind_of_ok hrun]
      exact F.trans hx (hf a mid hrun)
  | error e mid =>
      rw [hrun] at hx
      rw [bind_of_error hrun]
      exact hx

/-- An action stays within a frame when its parts do. -/
theorem bind {f : α → EStateM ε σ β} (hx : Within F x) (hf : ∀ a, Within F (f a)) :
    Within F (x >>= f) := fun s => bind_at (hx s) fun a mid _ => hf a mid

/-- What comes after a failure does not matter. -/
theorem throw_bind (e : ε) (f : α → EStateM ε σ β) :
    Within F ((MonadExcept.throw e : EStateM ε σ α) >>= f) := fun s => F.refl s

/-- An action that begins by looking at the state may go on with what it has
seen. -/
theorem get_bind {f : σ → EStateM ε σ β} (hf : ∀ s, F.keeps s (stateAfter (f s s))) :
    Within F (MonadState.get >>= f) := fun s => hf s

theorem attempt (hx : Within F x) : Within F (attempt x : EStateM ε' σ _) := by
  intro s
  have hsame : stateAfter ((Subscription.attempt x : EStateM ε' σ _) s) = stateAfter (x s) := by
    simp only [Subscription.attempt]
    cases x s <;> rfl
  rw [hsame]
  exact hx s

theorem mapFailure {f : ε → ε'} (hx : Within F x) : Within F (mapFailure f x) := by
  intro s
  have hsame : stateAfter (Subscription.mapFailure f x s) = stateAfter (x s) := by
    simp only [Subscription.mapFailure]
    cases x s <;> rfl
  rw [hsame]
  exact hx s

/-- An action on a part of the state stays within a frame of the whole, when
that part may change in the way it does. -/
theorem onPart {part : τ → σ} {put : σ → τ → τ} {G : Frame τ}
    (hput : ∀ t s, F.keeps (part t) s → G.keeps t (put s t)) (hx : Within F x) :
    Within G (onPart part put x) := by
  intro t
  have hsame : stateAfter (Subscription.onPart part put x t) = put (stateAfter (x (part t))) t := by
    simp only [Subscription.onPart]
    cases x (part t) <;> rfl
  rw [hsame]
  exact hput t _ (hx (part t))

end Within

/-- An action between two changes of the state that cannot fail. -/
theorem run_between (before after : σ → σ) (x : EStateM ε σ α) (s : σ) :
    (do
      modify before
      let result ← (attempt x : EStateM ε σ (Except ε α))
      modify after
      ofExcept result : EStateM ε σ α) s = mapState after (x (before s)) := by
  have hfirst : (modify before : EStateM ε σ PUnit) s = .ok () (before s) := rfl
  rw [bind_of_ok hfirst]
  cases hrun : x (before s) with
  | ok a mid =>
      rw [bind_of_ok (attempt_of_ok hrun)]
      rfl
  | error e mid =>
      rw [bind_of_ok (attempt_of_error hrun)]
      rfl

end Subscription
