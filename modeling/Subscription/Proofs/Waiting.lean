import Subscription.Proofs.Action
import Subscription.Host.Locking

/-!
# What waiting takes

Nothing but waiting takes time, and whoever waits for a lock waits until the deadline or until
there is nothing left to wait for.  Those who come up meanwhile come up before the deadline,
so that they do not put it off.

* Time passes until the limit, unless there has been enough of it before
  (`Host.elapse_eq_ok`).
* Whoever gives up a lock does so at the deadline, neither before nor after
  (`Host.clock_of_lockTimeout`).
-/

namespace Subscription

namespace Host

variable {ε α β : Type} {limit : Int}

/-! ## What takes no time -/

/-- An action is done at once: it does not fail, and takes no time. -/
def AtOnce (act : HostM ε α) : Prop :=
  ∀ h, ∃ a h', act h = .ok a h' ∧ h'.clock = h.clock

theorem clock_setLock (h : Host) (place : LockPlace) (lock : RwLock) :
    (h.setLock place lock).clock = h.clock := by
  cases place <;> rfl

theorem clock_setMutex (h : Host) (place : LockPlace) (mutex : Mutex) :
    (h.setMutex place mutex).clock = h.clock := by
  unfold setMutex
  dsimp only
  split
  · rfl
  · exact clock_setLock _ _ _

namespace AtOnce

theorem pure (a : α) : AtOnce (pure a : HostM ε α) := fun h => ⟨a, h, rfl, rfl⟩

theorem modify {f : Host → Host} (hf : ∀ h, (f h).clock = h.clock) :
    AtOnce (modify f : HostM ε PUnit) := fun h => ⟨_, f h, rfl, hf h⟩

theorem modifyGet {f : Host → α × Host} (hf : ∀ h, (f h).2.clock = h.clock) :
    AtOnce (modifyGet f : HostM ε α) := fun h => ⟨_, _, rfl, hf h⟩

theorem bind {x : HostM ε α} {f : α → HostM ε β} (hx : AtOnce x) (hf : ∀ a, AtOnce (f a)) :
    AtOnce (x >>= f) := by
  intro h
  obtain ⟨a, mid, hrun, hclock⟩ := hx h
  obtain ⟨b, last, hrest, hclock'⟩ := hf a mid
  exact ⟨b, last, (bind_of_ok hrun).trans hrest, hclock'.trans hclock⟩

theorem get_bind {f : Host → HostM ε α} (hf : ∀ h, AtOnce (f h)) :
    AtOnce (MonadState.get >>= f) := fun h => hf h h

theorem say (level : LogLevel) (text : String) : AtOnce (say level text : HostM ε Unit) :=
  modify fun _ => rfl

theorem tryMutex (place : LockPlace) (p : Party) (limit : Int) :
    AtOnce (tryMutex place p limit : HostM ε Grant) :=
  modifyGet fun h => clock_setMutex h _ _

theorem tryRelease (place : LockPlace) (p : Party) :
    AtOnce (tryRelease place p : HostM ε (Option Errno)) :=
  modifyGet fun h => clock_setMutex h _ _

theorem releaseMutex (place : LockPlace) (p : Party) :
    AtOnce (releaseMutex place p : HostM ε Unit) := by
  refine bind (tryRelease place p) fun failed => ?_
  cases failed with
  | none => exact pure _
  | some e => exact say _ _

theorem leaveQueue (place : LockPlace) : AtOnce (leaveQueue place : HostM ε Unit) :=
  modify fun h => clock_setLock h _ _

theorem countOut (place : LockPlace) (p : Party) (holder : String) :
    AtOnce (countOut place p holder : HostM ε Unit) := by
  refine get_bind fun h => ?_
  split
  · exact bind (modify fun h => clock_setLock h _ _) fun _ => releaseMutex place p
  · exact bind (say _ _) fun _ => releaseMutex place p

theorem tryReturn (l : Leaver) : AtOnce (tryReturn l : HostM ε Bool) := by
  refine bind (tryMutex _ _ _) fun grant => ?_
  cases grant with
  | granted => exact bind (countOut _ _ _) fun _ => pure _
  | recovered => exact bind (say _ _) fun _ => bind (countOut _ _ _) fun _ => pure _
  | refused e => exact bind (say _ _) fun _ => pure _
  | busy => exact pure _

end AtOnce

/-! ## Time that passes -/

/-- Whoever comes up, or gives up, does so by the limit. -/
def Turn.IsBy (limit : Int) : Turn → Prop
  | comesUp l | givesUp l => l.due ≤ limit
  | isServed _ => True

theorem nextTurn?_isBy {h : Host} {turn : Turn} (hturn : h.nextTurn? limit = some turn) :
    turn.IsBy limit := by
  have hbefore : ∀ {l : Leaver} {turn' : Turn}, (l.due ≤ limit → turn'.IsBy limit) →
      (if l.due ≤ limit then some turn' else none) = some turn → turn.IsBy limit := by
    intro l turn' hby hl
    obtain ⟨hdue, hsame⟩ := Option.ite_none_right_eq_some.1 hl
    cases hsame
    exact hby hdue
  unfold nextTurn? at hturn
  split at hturn
  · cases hturn
    trivial
  · split at hturn
    · split at hturn
      · exact hbefore id hturn
      · exact hbefore id hturn
    · exact hbefore id hturn
    · exact hbefore id hturn
    · cases hturn

/-- Waiting for something by the limit does not put off the limit. -/
theorem max_waitUntil {due : Nat} (hdue : due ≤ limit) (h : Host) :
    max (h.waitUntil due).clock limit.toNat = max h.clock limit.toNat := by
  unfold waitUntil
  dsimp only
  omega

/-- A turn does not put off the limit. -/
theorem run_eq_ok {turn : Turn} (hby : turn.IsBy limit) (h : Host) :
    ∃ h', (turn.run : HostM ε Unit) h = .ok () h' ∧
      max h'.clock limit.toNat = max h.clock limit.toNat := by
  cases turn with
  | comesUp l =>
      have hrest : AtOnce (do
          if ← tryReturn l then pure ()
          else
            modify fun h =>
              let due := (deadline h.now l.readTimeout).toNanos.toNat
              { h with waiters := h.waiters ++ [{ l with due }] } : HostM ε Unit) := by
        refine AtOnce.bind (AtOnce.tryReturn l) fun ended => ?_
        cases ended with
        | true => exact AtOnce.pure _
        | false => exact AtOnce.modify fun _ => rfl
      obtain ⟨_, h', hrun, hclock⟩ := hrest { h.waitUntil l.due with
        leavers := h.leavers.filter (fun o => o.party ≠ l.party) }
      refine ⟨h', hrun, ?_⟩
      rw [hclock]
      exact max_waitUntil hby h
  | isServed l =>
      have hrest : AtOnce (do let _ ← tryReturn l : HostM ε Unit) :=
        AtOnce.bind (AtOnce.tryReturn l) fun _ => AtOnce.pure _
      obtain ⟨_, h', hrun, hclock⟩ :=
        hrest { h with waiters := h.waiters.filter (fun o => o.party ≠ l.party) }
      refine ⟨h', hrun, ?_⟩
      rw [hclock]
  | givesUp l => exact ⟨_, rfl, max_waitUntil hby h⟩

/-- **Time passes until the limit**, unless there has been enough of it before. -/
theorem elapse_eq_ok (limit : Int) (enough : Host → Bool) (steps : Nat) (h : Host) :
    ∃ h', (elapse limit enough steps : HostM ε Unit) h = .ok () h' ∧
      (enough h' = true ∨ h'.clock = max h.clock limit.toNat) := by
  -- By induction on the turns: no turn puts off the limit, so that the rest ends when it would
  -- have ended without it.
  induction steps generalizing h with
  | zero => exact ⟨_, rfl, .inr rfl⟩
  | succ steps ih =>
      rw [elapse, get_bind_eq]
      by_cases henough : enough h = true
      · rw [if_pos henough]
        exact ⟨h, rfl, .inl henough⟩
      · rw [if_neg henough, get_bind_eq]
        cases hturn : h.nextTurn? limit with
        | none => exact ⟨_, rfl, .inr rfl⟩
        | some turn =>
            obtain ⟨mid, hrun, hmid⟩ := run_eq_ok (nextTurn?_isBy hturn) h
            obtain ⟨last, hrest, hlast⟩ := ih mid
            refine ⟨last, (bind_of_ok hrun).trans hrest, ?_⟩
            rw [← hmid]
            exact hlast

/-- Time passes until the limit, whatever happens. -/
theorem pass_eq_ok (limit : Int) (h : Host) :
    ∃ h', (pass limit : HostM ε Unit) h = .ok () h' ∧ h'.clock = max h.clock limit.toNat := by
  obtain ⟨h', hrun, hend⟩ := elapse_eq_ok limit (fun _ => false) h.stepBound h
  exact ⟨h', hrun, hend.resolve_left nofun⟩

/-! ## Giving up -/

/-- An action that gives up a lock does so at the limit. -/
def GivesUpAt (limit : Int) (act : HostM Error α) : Prop :=
  ∀ h mode holder h', act h = .error (.lockTimeout mode holder) h' →
    h'.clock = max h.clock limit.toNat

/-- What is done at once does not put off giving up. -/
theorem GivesUpAt.bind {x : HostM Error α} {f : α → HostM Error β} (hx : AtOnce x)
    (hf : ∀ a, GivesUpAt limit (f a)) : GivesUpAt limit (x >>= f) := by
  intro h mode holder h' hrun
  obtain ⟨a, mid, hfirst, hclock⟩ := hx h
  rw [bind_of_ok hfirst] at hrun
  rw [← hclock]
  exact hf a mid mode holder h' hrun

theorem GivesUpAt.of_ne {act : HostM Error α}
    (hact : ∀ h mode holder h', act h ≠ .error (.lockTimeout mode holder) h') :
    GivesUpAt limit act := fun h mode holder h' hrun => absurd hrun (hact h mode holder h')

theorem AtOnce.givesUpAt {act : HostM Error α} (hact : AtOnce act) : GivesUpAt limit act := by
  refine .of_ne fun h mode holder h' hrun => ?_
  obtain ⟨a, mid, hrun', -⟩ := hact h
  cases hrun'.symm.trans hrun

theorem takeMutex_givesUpAt (place : LockPlace) (p : Party) (limit : Int) (mode : LockMode)
    (holder : String) : GivesUpAt limit (takeMutex place p limit mode holder) := by
  refine .bind (.tryMutex _ _ _) fun grant => ?_
  cases grant with
  | granted => exact (AtOnce.pure _).givesUpAt
  | recovered => exact (AtOnce.say _ _).givesUpAt
  | refused e => exact .of_ne nofun
  | busy =>
      intro h mode' holder' h' hrun
      obtain ⟨mid, hpass, hclock⟩ := pass_eq_ok (ε := Error) limit h
      have hend := (bind_of_ok hpass).symm.trans hrun
      cases hend
      exact hclock

/-- A mutex that is had is had at once. -/
theorem takeMutex_ok {place : LockPlace} {p : Party} {mode : LockMode} {holder : String}
    {h h' : Host} (hrun : takeMutex place p limit mode holder h = .ok () h') :
    h'.clock = h.clock := by
  obtain ⟨grant, mid, hfirst, hclock⟩ := AtOnce.tryMutex (ε := Error) place p limit h
  unfold takeMutex at hrun
  rw [bind_of_ok hfirst] at hrun
  cases grant with
  | granted | recovered =>
      cases hrun
      exact hclock
  | refused e => cases hrun
  | busy =>
      obtain ⟨last, hpass, -⟩ := pass_eq_ok (ε := Error) limit mid
      cases (bind_of_ok hpass).symm.trans hrun

/-- A writer who waits for the readers gives up at the limit. -/
theorem awaitReaders_givesUpAt (place : LockPlace) (p : Party) (limit : Int) (holder : String) :
    GivesUpAt limit (awaitReaders place p limit holder) := by
  intro h mode holder' h' hrun
  unfold awaitReaders at hrun
  rw [get_bind_eq] at hrun
  dsimp only at hrun
  by_cases hempty : hasNoReaders place h = true
  · rw [if_pos hempty] at hrun
    cases hrun
  · rw [if_neg hempty] at hrun
    refine GivesUpAt.bind (.tryRelease _ _) (fun failed => ?_) h mode holder' h' hrun
    cases failed with
    | some e => exact .bind (.leaveQueue _) fun _ => .of_ne nofun
    | none =>
        intro h mode holder' h' hrun
        dsimp only at hrun
        obtain ⟨mid, hwait, hend⟩ :=
          elapse_eq_ok (ε := Error) limit (hasNoReaders place) h.stepBound h
        rw [get_bind_eq, bind_of_ok hwait, get_bind_eq] at hrun
        cases hleft : hasNoReaders place mid with
        | true =>
            -- The readers have left, and nothing else is waited for.
            obtain ⟨grant, last, hgrant, -⟩ := AtOnce.tryMutex (ε := Error) place p limit mid
            simp only [hleft, if_true] at hrun
            rw [bind_of_ok hgrant] at hrun
            cases grant <;> cases hrun
        | false =>
            have hclock := hend.resolve_left (by rw [hleft]; exact nofun)
            obtain ⟨_, out, hout, hclock'⟩ := AtOnce.leaveQueue (ε := Error) place mid
            obtain ⟨grant, last, hgrant, hclock''⟩ := AtOnce.tryMutex (ε := Error) place p limit out
            simp only [hleft] at hrun
            rw [if_neg nofun, bind_of_ok hout, bind_of_ok hgrant] at hrun
            rw [← hclock, ← hclock', ← hclock'']
            cases grant with
            | refused e => cases hrun
            | granted | recovered | busy =>
                cases hrun
                rfl

/-- A writer gives up a lock at the limit, and gives the mutex back at once. -/
theorem lockWrite_givesUp {place : LockPlace} {p : Party} {timeout : Span} {holder : String}
    {h h' : Host} {mode holder' : String}
    (hrun : lockWrite place p timeout holder h = .error (.lockTimeout mode holder') h') :
    h'.clock = max h.clock (deadline h.now timeout).toNanos.toNat := by
  unfold lockWrite at hrun
  rw [get_bind_eq] at hrun
  generalize (deadline h.now timeout).toNanos = limit at hrun ⊢
  rcases exists_of_bind_error hrun with htake | ⟨_, mid, htake, hrest⟩
  · exact takeMutex_givesUpAt _ _ _ _ _ h _ _ _ htake
  · rw [← takeMutex_ok htake]
    cases hawait : awaitReaders place p limit holder mid with
    | ok _ last => cases (bind_of_ok (attempt_of_ok hawait)).symm.trans hrest
    | error e last =>
        rw [bind_of_ok (attempt_of_error hawait)] at hrest
        obtain ⟨_, out, hrelease, hclock⟩ := AtOnce.releaseMutex (ε := Error) place p last
        cases (bind_of_ok hrelease).symm.trans hrest
        rw [hclock]
        exact awaitReaders_givesUpAt place p limit holder mid _ _ _ hawait

/-- A reader gives up a lock at the limit; with the mutex in hand it is not given up. -/
theorem lockRead_givesUp {place : LockPlace} {p : Party} {timeout readTimeout : Span}
    {holder : String} {h h' : Host} {mode holder' : String}
    (hrun : lockRead place p timeout readTimeout holder h =
      .error (.error (.lockTimeout mode holder')) h') :
    h'.clock = max h.clock (deadline h.now (timeout.shorter readTimeout)).toNanos.toNat := by
  unfold lockRead at hrun
  rw [get_bind_eq] at hrun
  rcases exists_of_bind_error hrun with hfirst | ⟨_, mid, -, hrest⟩
  · obtain ⟨e, htake, hsame⟩ := exists_of_mapFailure_error hfirst
    cases hsame
    exact takeMutex_givesUpAt _ _ _ _ _ h _ _ _ htake
  · obtain ⟨a, -, hsame⟩ := exists_of_mapFailure_error hrest
    cases hsame

end Host

/-- How long a lock is waited for. -/
def LockMode.wait (mode : LockMode) (timeout readTimeout : Span) : Span :=
  match mode with
  | read => timeout.shorter readTimeout
  | write => timeout

/-- **A lock is given up at its deadline**, neither before nor after. -/
theorem Host.clock_of_lockTimeout {place : LockPlace} {p : Party} {timeout readTimeout : Span}
    {mode : LockMode} {holder : String} {h h' : Host} {mode' holder' : String}
    (hrun : lock place p timeout readTimeout mode holder h =
      .error (.error (.lockTimeout mode' holder')) h') :
    h'.clock = max h.clock (deadline h.now (mode.wait timeout readTimeout)).toNanos.toNat := by
  cases mode with
  | read => exact lockRead_givesUp hrun
  | write =>
      obtain ⟨e, hwrite, hsame⟩ := exists_of_mapFailure_error hrun
      cases hsame
      exact lockWrite_givesUp hwrite

end Subscription
