import Subscription.Proofs.Exclusion

/-!
# Calls on a lock, step by step

What a host does with a lock is a run of the steps that visitors take: a call for the
lock or for giving it back is as many steps of one visitor, and whoever comes up
meanwhile to return a read lock is another visitor who takes its own.  So whatever holds
of all runs at a lock holds of the locks of a host.

A gate is a place with a lock together with the visitors who come there (`Gate`).  A host
shows the traffic at a gate (`Gate.Shows`) when the lock is that of the traffic and those
who are to return a read lock have one.  An action walks (`Gate.Walks`) when the traffic
that the host shows in the end is reached by a run from that at the start.

A new lock shows that nobody has come yet (`Gate.shows_newLock`), and from then on there is
one result for each call: `Gate.walks_lockRead`, `Gate.walks_lockWrite`,
`Gate.walks_unlockRead` and `Gate.walks_unlockWrite`.
-/

namespace Subscription

/-- Whoever takes a turn is one of those who are to return a read lock, or wait for that. -/
def Host.Turn.IsOf (h : Host) : Turn → Prop
  | comesUp l => l ∈ h.leavers
  | isServed l | givesUp l => l ∈ h.waiters

theorem Host.mem_of_earliest? {ls : List Leaver} {l : Leaver} (h : earliest? ls = some l) :
    l ∈ ls := by
  induction ls generalizing l with
  | nil => cases h
  | cons o rest ih =>
      unfold earliest? at h
      split at h
      · rename_i o' hrest
        split at h
        · cases h
          exact List.mem_cons_of_mem _ (ih hrest)
        · cases h
          exact List.mem_cons_self
      · cases h
        exact List.mem_cons_self

/-- Whose turn it is. -/
theorem Host.nextTurn?_isOf {h : Host} {limit : Int} {turn : Turn}
    (hturn : h.nextTurn? limit = some turn) : turn.IsOf h := by
  have hserved : ∀ l, (if h.clock < limit then h.waiters.find? h.canTake else none) = some l →
      l ∈ h.waiters := by
    intro l hl
    split at hl
    · exact List.mem_of_find?_eq_some hl
    · cases hl
  have hbefore : ∀ {l : Leaver} {turn' : Turn},
      (if l.due ≤ limit then some turn' else none) = some turn → turn = turn' := by
    intro l turn' hl
    split at hl
    · cases hl
      rfl
    · cases hl
  unfold nextTurn? at hturn
  split at hturn
  · rename_i l hl
    cases hturn
    exact hserved l hl
  · split at hturn
    · rename_i l w hl hw
      split at hturn
      · rw [hbefore hturn]
        exact mem_of_earliest? hl
      · rw [hbefore hturn]
        exact mem_of_earliest? hw
    · rename_i l hl hw
      rw [hbefore hturn]
      exact mem_of_earliest? hl
    · rename_i w hl hw
      rw [hbefore hturn]
      exact mem_of_earliest? hw
    · cases hturn

/-- A place with a lock, and the visitors who come there. -/
structure Gate (V : Type) where
  place : LockPlace
  party : V → Party
  crowd : Finset V
  /-- Who has the mutex, given in which state. -/
  Has : Option Party → Mutex → Prop
  /-- Whether a host has the place. -/
  Stands : Host → Prop
  exclusive : Mutex.Exclusive Has
  found : ∀ {h : Host} {holder : Option Party} {l : RwLock}, Stands h → Has holder l.mutex →
    (h.setLock place l).lockAt place = l
  stands : ∀ {h : Host} {holder : Option Party} {l : RwLock}, Stands h → Has holder l.mutex →
    Stands (h.setLock place l)
  steady : ∀ {h h' : Host}, h'.disk = h.disk → h'.locks = h.locks → Stands h → Stands h'

namespace Gate

variable {V : Type}

/-- The gate to a lock outside segments. -/
def loose (id : Nat) (party : V → Party) (crowd : Finset V) : Gate V where
  place := .loose id
  party := party
  crowd := crowd
  Has := Mutex.HasPlain
  Stands h := id < h.locks.length
  exclusive := Mutex.exclusive_plain
  found hstands _ := by simp [Host.setLock, Host.lockAt, hstands]
  stands hstands _ := by simpa [Host.setLock] using hstands
  steady _ hlocks hstands := by rwa [hlocks]

/-- The gate to a lock in a segment. -/
def inSegment (file : FileId) (offset : Nat) (party : V → Party) (crowd : Finset V) :
    Gate V where
  place := .inFile file offset
  party := party
  crowd := crowd
  Has := Mutex.HasRobust
  Stands h := h.HasLockAt file offset ∧
    (h.lockAt (.inFile file offset)).mutex.kind = .ofSegments
  exclusive := Mutex.exclusive_robust
  found hstands hhas :=
    Host.lockAt_setLock_inFile hstands.1.regular hhas.fits hstands.1.covers
      (hhas.kind.trans hstands.2.symm)
  stands hstands hhas := by
    have hstores := Host.stores_setLock hstands.1 hhas.fits (hhas.kind.trans hstands.2.symm)
    exact ⟨hstores.only.hasLockAt hstands.1, by rw [hstores.lock]; exact hhas.kind⟩
  steady {h h'} hdisk _ hstands := by
    have hlock : h'.lockAt (.inFile file offset) = h.lockAt (.inFile file offset) := by
      simp only [Host.lockAt, hdisk]
    exact ⟨⟨hdisk ▸ hstands.1.regular, hdisk ▸ hstands.1.covers⟩, hlock ▸ hstands.2⟩

variable (g : Gate V)

/-- A host shows the traffic at a gate: its lock is there, and those who are to return a
read lock have one, or have begun to return it. -/
structure Shows (h : Host) (s : Traffic V) : Prop where
  stands : g.Stands h
  lock : h.lockAt g.place = s.lock
  sound : Traffic.Sound g.Has g.party g.crowd s
  leavers : ∀ l ∈ h.leavers, l.lock = g.place ∧
    ∃ v ∈ g.crowd, g.party v = l.party ∧ s.stage v = .reading
  waiters : ∀ l ∈ h.waiters, l.lock = g.place ∧
    ∃ v ∈ g.crowd, g.party v = l.party ∧ s.stage v = .leaving
  apart : ∀ l ∈ h.leavers, ∀ w ∈ h.waiters, l.party ≠ w.party

/-- A visitor is none of those who come up by themselves. -/
def IsCaller (v : V) (h : Host) : Prop :=
  ∀ l, l ∈ h.leavers ∨ l ∈ h.waiters → l.party ≠ g.party v

variable {g} {h h' h'' : Host} {s s' s'' : Traffic V} {v w : V} {st next : Stage}
  {holder : Option V} {deed : Deed} {l : RwLock} {m : Mutex} {ε α : Type}

theorem IsCaller.congr (hcaller : g.IsCaller v h) (hleavers : h'.leavers = h.leavers)
    (hwaiters : h'.waiters = h.waiters) : g.IsCaller v h' := by
  unfold IsCaller
  rw [hleavers, hwaiters]
  exact hcaller

/-- **A lock that has just been made shows that nobody has come to it yet.** -/
theorem shows_newLock (hleavers : h.leavers = []) (hwaiters : h.waiters = [])
    (party : V → Party) (crowd : Finset V) :
    ∃ h', (Host.newLock : HostM ε LockPlace) h = .ok (.loose h.locks.length) h' ∧
      (loose h.locks.length party crowd).Shows h' (.opening (.fresh .plain)) := by
  refine ⟨_, rfl, ?_, ?_, Traffic.sound_opening Mutex.hasPlain_fresh rfl, ?_, ?_, ?_⟩
  · simp [loose]
  · simp [loose, Host.lockAt, Traffic.opening]
  · simp [hleavers]
  · simp [hwaiters]
  · simp [hleavers]

/-- What has become of the traffic and of the host after steps of one visitor: how far it
has got, and who has the mutex. -/
structure Moved (g : Gate V) (v : V) (next : Stage) (holder : Option V) (h : Host)
    (s : Traffic V) (h' : Host) (s' : Traffic V) : Prop where
  shows : g.Shows h' s'
  callers : ∀ w, g.IsCaller w h → g.IsCaller w h'
  others : ∀ w, w ≠ v → s'.stage w = s.stage w
  stage : s'.stage v = next
  holder : s'.holder = holder

theorem Moved.trans {holder' : Option V} {next' : Stage}
    (hfirst : g.Moved v next holder h s h' s') (hsecond : g.Moved v next' holder' h' s' h'' s'') :
    g.Moved v next' holder' h s h'' s'' where
  shows := hsecond.shows
  callers w hw := hsecond.callers w (hfirst.callers w hw)
  others w hw := (hsecond.others w hw).trans (hfirst.others w hw)
  stage := hsecond.stage
  holder := hsecond.holder

/-- What is logged, what time it is and who is about to come up is nothing to the lock. -/
theorem Shows.congr (hs : g.Shows h s) (hdisk : h'.disk = h.disk) (hlocks : h'.locks = h.locks)
    (hleavers : ∀ l ∈ h'.leavers, l ∈ h.leavers)
    (hwaiters : ∀ l ∈ h'.waiters, l ∈ h.waiters) : g.Shows h' s where
  stands := g.steady hdisk hlocks hs.stands
  lock := by
    rw [← hs.lock]
    cases g.place with
    | loose id => simp only [Host.lockAt, hlocks]
    | inFile file offset => simp only [Host.lockAt, hdisk]
  sound := hs.sound
  leavers l hl := hs.leavers l (hleavers l hl)
  waiters l hl := hs.waiters l (hwaiters l hl)
  apart l hl w hw := hs.apart l (hleavers l hl) w (hwaiters w hw)

theorem Moved.note (hmoved : g.Moved v next holder h s h' s') (level : LogLevel)
    (text : String) : g.Moved v next holder h s (h'.note level text) s' where
  shows := hmoved.shows.congr rfl rfl (fun _ => id) fun _ => id
  callers := hmoved.callers
  others := hmoved.others
  stage := hmoved.stage
  holder := hmoved.holder

/-- A caller has got to a stage. -/
structure At (g : Gate V) (v : V) (stage : Stage) (h : Host) (s : Traffic V) : Prop where
  shows : g.Shows h s
  caller : g.IsCaller v h
  stage_eq : s.stage v = stage

theorem At.note (hat : g.At v st h s) (level : LogLevel) (text : String) :
    g.At v st (h.note level text) s where
  shows := hat.shows.congr rfl rfl (fun _ => id) fun _ => id
  caller := hat.caller
  stage_eq := hat.stage_eq

theorem Moved.at (hmoved : g.Moved v next holder h s h' s') (hcaller : g.IsCaller v h) :
    g.At v next h' s' :=
  ⟨hmoved.shows, hmoved.callers v hcaller, hmoved.stage⟩

/-- What the others have done meanwhile: the callers are where they were, and so is the
mutex. -/
structure Meanwhile (g : Gate V) (h : Host) (s : Traffic V) (h' : Host) (s' : Traffic V) :
    Prop where
  shows : g.Shows h' s'
  callers : ∀ w, g.IsCaller w h → g.IsCaller w h' ∧ s'.stage w = s.stage w
  holder : s'.holder = s.holder

theorem Meanwhile.trans (hfirst : g.Meanwhile h s h' s') (hsecond : g.Meanwhile h' s' h'' s'') :
    g.Meanwhile h s h'' s'' where
  shows := hsecond.shows
  callers w hw :=
    have hmid := hfirst.callers w hw
    ⟨(hsecond.callers w hmid.1).1, (hsecond.callers w hmid.1).2.trans hmid.2⟩
  holder := hsecond.holder.trans hfirst.holder

/-- Time passes, and nothing else happens. -/
theorem Shows.waits (hs : g.Shows h s) (limit : Int) :
    g.Meanwhile h s (h.waitUntil limit) s where
  shows := hs.congr rfl rfl (fun _ => id) fun _ => id
  callers _ hw := ⟨hw, rfl⟩
  holder := rfl

/-- Whoever has come up is no caller. -/
theorem Moved.meanwhile {h₁ : Host} {l : Leaver} (hmoved : g.Moved v next s.holder h₁ s h' s')
    (hl : l ∈ h.leavers ∨ l ∈ h.waiters) (hparty : g.party v = l.party)
    (hfewer : ∀ o, o ∈ h₁.leavers ∨ o ∈ h₁.waiters → o ∈ h.leavers ∨ o ∈ h.waiters) :
    g.Meanwhile h s h' s' where
  shows := hmoved.shows
  callers w hw := by
    have hne : w ≠ v := fun heq => hw l hl (heq ▸ hparty.symm)
    exact ⟨hmoved.callers w fun o ho => hw o (hfewer o ho), hmoved.others w hne⟩
  holder := hmoved.holder

/-- Somebody who is to return a read lock comes up, and is no longer about to. -/
theorem Shows.withoutLeaver {l : Leaver} (hs : g.Shows h s) (hl : l ∈ h.leavers)
    (hparty : g.party v = l.party) (clock : Nat) :
    g.Shows { h with clock, leavers := h.leavers.filter fun o => o.party ≠ l.party } s ∧
    g.IsCaller v { h with clock, leavers := h.leavers.filter fun o => o.party ≠ l.party } ∧
    ∀ o, o ∈ h.leavers.filter (fun o => o.party ≠ l.party) ∨ o ∈ h.waiters →
      o ∈ h.leavers ∨ o ∈ h.waiters := by
  have hfewer := fun o (ho : o ∈ h.leavers.filter fun o => o.party ≠ l.party) =>
    (List.mem_filter.mp ho).1
  refine ⟨hs.congr rfl rfl hfewer (fun _ => id), fun o ho => ?_, fun o => Or.imp (hfewer o) id⟩
  rw [hparty]
  rcases ho with ho | ho
  · simpa using (List.mem_filter.mp ho).2
  · exact (hs.apart l hl o ho).symm

/-- Somebody who waits for the mutex does so no more. -/
theorem Shows.withoutWaiter {l : Leaver} (hs : g.Shows h s) (hl : l ∈ h.waiters)
    (hparty : g.party v = l.party) (clock : Nat) :
    g.Shows { h with clock, waiters := h.waiters.filter fun o => o.party ≠ l.party } s ∧
    g.IsCaller v { h with clock, waiters := h.waiters.filter fun o => o.party ≠ l.party } ∧
    ∀ o, o ∈ h.leavers ∨ o ∈ h.waiters.filter (fun o => o.party ≠ l.party) →
      o ∈ h.leavers ∨ o ∈ h.waiters := by
  have hfewer := fun o (ho : o ∈ h.waiters.filter fun o => o.party ≠ l.party) =>
    (List.mem_filter.mp ho).1
  refine ⟨hs.congr rfl rfl (fun _ => id) hfewer, fun o ho => ?_, fun o => Or.imp id (hfewer o)⟩
  rw [hparty]
  rcases ho with ho | ho
  · exact hs.apart o ho l hl
  · simpa using (List.mem_filter.mp ho).2

theorem IsCaller.joined {l : Leaver} (hcaller : g.IsCaller v h) (hne : l.party ≠ g.party v) :
    g.IsCaller v { h with waiters := h.waiters ++ [l] } := by
  intro o ho
  rcases ho with ho | ho
  · exact hcaller o (.inl ho)
  · rcases List.mem_append.mp ho with ho | ho
    · exact hcaller o (.inr ho)
    · rw [List.mem_singleton.mp ho]
      exact hne

/-- Somebody who wants to be counted out begins to wait for the mutex. -/
theorem Shows.joined {l : Leaver} (hs : g.Shows h s) (hv : v ∈ g.crowd)
    (hcaller : g.IsCaller v h) (hplace : l.lock = g.place) (hparty : g.party v = l.party)
    (hstage : s.stage v = .leaving) : g.Shows { h with waiters := h.waiters ++ [l] } s where
  stands := g.steady (h := h) rfl rfl hs.stands
  lock := hs.lock
  sound := hs.sound
  leavers := hs.leavers
  waiters o ho := by
    rcases List.mem_append.mp ho with ho | ho
    · exact hs.waiters o ho
    · rw [List.mem_singleton.mp ho]
      exact ⟨hplace, v, hv, hparty, hstage⟩
  apart o ho w hw := by
    rcases List.mem_append.mp hw with hw | hw
    · exact hs.apart o ho w hw
    · rw [List.mem_singleton.mp hw]
      exact hparty ▸ hcaller o (.inl ho)

/-- A visitor who has the mutex can give it back. -/
theorem Shows.release (hs : g.Shows h s) (hhad : (s.stage v).hasMutex = true) :
    (s.lock.mutex.release (g.party v)).1 = none := by
  have hhas := hs.sound.mutex
  rw [(hs.sound.own v).mp hhad] at hhas
  exact (g.exclusive.release hhas).1

theorem Shows.tryRelease (hs : g.Shows h s) (hhad : (s.stage v).hasMutex = true) :
    (Host.tryRelease g.place (g.party v) : HostM ε (Option Errno)) h =
      .ok none (h.setMutex g.place (s.lock.mutex.release (g.party v)).2) := by
  rw [← hs.release hhad, ← hs.lock]
  rfl

/-! ## Walking -/

variable [DecidableEq V]

/-- An action ends as it should, having changed the traffic by a run. -/
def Walks (g : Gate V) (act : HostM ε α) (h : Host) (s : Traffic V)
    (post : Except ε α → Host → Traffic V → Prop) : Prop :=
  ∃ s', Traffic.Run g.party g.crowd s s' ∧
    match act h with
    | .ok a h' => post (.ok a) h' s'
    | .error e h' => post (.error e) h' s'

namespace Walks

variable {ε' β : Type} {act : HostM ε α}
  {post post' : Except ε α → Host → Traffic V → Prop}

theorem of_ok {a : α} {h' : Host} (hact : act h = .ok a h') (hpost : post (.ok a) h' s) :
    g.Walks act h s post :=
  ⟨s, .refl, by rw [hact]; exact hpost⟩

theorem of_error {e : ε} {h' : Host} (hact : act h = .error e h')
    (hpost : post (.error e) h' s) : g.Walks act h s post :=
  ⟨s, .refl, by rw [hact]; exact hpost⟩

theorem mono (hwalks : g.Walks act h s post) (himp : ∀ r h' s', post r h' s' → post' r h' s') :
    g.Walks act h s post' := by
  obtain ⟨s', hrun, hend⟩ := hwalks
  refine ⟨s', hrun, ?_⟩
  cases hact : act h with
  | ok a h' =>
      rw [hact] at hend
      exact himp _ _ _ hend
  | error e h' =>
      rw [hact] at hend
      exact himp _ _ _ hend

/-- A visitor takes a step before the host does anything. -/
theorem step (hv : v ∈ g.crowd) (hact : Act (g.party v) s.lock (s.stage v) deed l next)
    (hwalks : g.Walks act h (s.after v deed l next) post) : g.Walks act h s post := by
  obtain ⟨s', hrest, hend⟩ := hwalks
  exact ⟨s', Relation.ReflTransGen.head ⟨v, hv, deed, l, next, hact, rfl⟩ hrest, hend⟩

theorem bind {f : α → HostM ε β} {post : Except ε β → Host → Traffic V → Prop}
    (hwalks : g.Walks act h s fun r h' s' =>
      match r with
      | .ok a => g.Walks (f a) h' s' post
      | .error e => post (.error e) h' s') :
    g.Walks (act >>= f) h s post := by
  obtain ⟨s', hrun, hend⟩ := hwalks
  cases hact : act h with
  | ok a h' =>
      rw [hact] at hend
      obtain ⟨s'', hrest, hfinal⟩ := hend
      refine ⟨s'', hrun.trans hrest, ?_⟩
      rw [bind_of_ok hact]
      exact hfinal
  | error e h' =>
      rw [hact] at hend
      refine ⟨s', hrun, ?_⟩
      rw [bind_of_error hact]
      exact hend

theorem get_bind {f : Host → HostM ε β} {post : Except ε β → Host → Traffic V → Prop}
    (hwalks : g.Walks (f h) h s post) : g.Walks (get >>= f) h s post := hwalks

theorem attempt {post : Except ε' (Except ε α) → Host → Traffic V → Prop}
    (hwalks : g.Walks act h s fun r h' s' => post (.ok r) h' s') :
    g.Walks (Subscription.attempt act : HostM ε' _) h s post := by
  obtain ⟨s', hrun, hend⟩ := hwalks
  refine ⟨s', hrun, ?_⟩
  cases hact : act h with
  | ok a h' =>
      rw [hact] at hend
      rw [attempt_of_ok hact]
      exact hend
  | error e h' =>
      rw [hact] at hend
      rw [attempt_of_error hact]
      exact hend

theorem mapFailure {f : ε → ε'} {post : Except ε' α → Host → Traffic V → Prop}
    (hwalks : g.Walks act h s fun r h' s' => post (r.mapError f) h' s') :
    g.Walks (Subscription.mapFailure f act) h s post := by
  obtain ⟨s', hrun, hend⟩ := hwalks
  refine ⟨s', hrun, ?_⟩
  unfold Subscription.mapFailure
  cases hact : act h with
  | ok a h' =>
      rw [hact] at hend
      exact hend
  | error e h' =>
      rw [hact] at hend
      exact hend

end Walks

/-! ## What the host shows after a step -/

/-- A visitor other than those who come up by themselves takes a step. -/
theorem Shows.act (hs : g.Shows h s) (hv : v ∈ g.crowd) (hcaller : g.IsCaller v h)
    (hact : Act (g.party v) s.lock (s.stage v) deed l next) (hstands : g.Stands h')
    (hlock : h'.lockAt g.place = l) (hleavers : h'.leavers = h.leavers)
    (hwaiters : h'.waiters = h.waiters) : g.Shows h' (s.after v deed l next) where
  stands := hstands
  lock := hlock
  sound := hs.sound.step g.exclusive ⟨v, hv, deed, l, next, hact, rfl⟩
  leavers o ho := by
    rw [hleavers] at ho
    obtain ⟨hplace, w, hw, hparty, hstage⟩ := hs.leavers o ho
    have hne : w ≠ v := fun heq => hcaller o (.inl ho) (heq ▸ hparty.symm)
    exact ⟨hplace, w, hw, hparty, (Traffic.stage_after_of_ne hne).trans hstage⟩
  waiters o ho := by
    rw [hwaiters] at ho
    obtain ⟨hplace, w, hw, hparty, hstage⟩ := hs.waiters o ho
    have hne : w ≠ v := fun heq => hcaller o (.inr ho) (heq ▸ hparty.symm)
    exact ⟨hplace, w, hw, hparty, (Traffic.stage_after_of_ne hne).trans hstage⟩
  apart := by
    rw [hleavers, hwaiters]
    exact hs.apart

/-- A step that the host shows by its lock alone. -/
theorem Shows.moved (hs : g.Shows h s) (hv : v ∈ g.crowd) (hcaller : g.IsCaller v h)
    (hact : Act (g.party v) s.lock (s.stage v) deed l next) (hstands : g.Stands h')
    (hlock : h'.lockAt g.place = l) (hleavers : h'.leavers = h.leavers)
    (hwaiters : h'.waiters = h.waiters) :
    g.Moved v next (deed.holder v s.holder) h s h' (s.after v deed l next) where
  shows := hs.act hv hcaller hact hstands hlock hleavers hwaiters
  callers _ hw := hw.congr hleavers hwaiters
  others _ hne := Traffic.stage_after_of_ne hne
  stage := Traffic.stage_after_self
  holder := rfl

theorem Shows.stay (hs : g.Shows h s) (hv : v ∈ g.crowd) (hcaller : g.IsCaller v h)
    (hact : Act (g.party v) s.lock (s.stage v) deed s.lock next) :
    g.Moved v next (deed.holder v s.holder) h s h (s.after v deed s.lock next) :=
  hs.moved hv hcaller hact hs.stands hs.lock rfl rfl

theorem Shows.store (hs : g.Shows h s) (hv : v ∈ g.crowd) (hcaller : g.IsCaller v h)
    (hact : Act (g.party v) s.lock (s.stage v) deed l next) :
    g.Moved v next (deed.holder v s.holder) h s (h.setLock g.place l)
      (s.after v deed l next) := by
  have hhas := (hs.sound.step g.exclusive ⟨v, hv, deed, l, next, hact, rfl⟩).mutex
  refine hs.moved hv hcaller hact (g.stands hs.stands hhas) (g.found hs.stands hhas) ?_ ?_
  · cases g.place <;> rfl
  · cases g.place <;> rfl

theorem Shows.storeMutex (hs : g.Shows h s) (hv : v ∈ g.crowd) (hcaller : g.IsCaller v h)
    (hact : Act (g.party v) s.lock (s.stage v) deed { s.lock with mutex := m } next) :
    g.Moved v next (deed.holder v s.holder) h s (h.setMutex g.place m)
      (s.after v deed { s.lock with mutex := m } next) := by
  have hlock := hs.lock
  unfold Host.setMutex
  rw [hlock]
  dsimp only
  split
  · rename_i hsame
    refine hs.moved hv hcaller hact hs.stands ?_ rfl rfl
    rw [hlock, hsame]
  · exact hs.store hv hcaller hact

/-! ## The mutex -/

/-- A visitor who wants the mutex gets it if nobody has it, and finds it busy otherwise. -/
theorem walks_tryMutex (hs : g.Shows h s) (hv : v ∈ g.crowd) (hcaller : g.IsCaller v h)
    (hnext : (s.stage v).granted = some next) (limit : Int) :
    g.Walks (Host.tryMutex g.place (g.party v) limit : HostM ε Grant) h s fun r h' s' =>
      s'.lock.readers = s.lock.readers ∧
      ((∃ grant, r = .ok grant ∧ grant.isHad = true ∧ s.holder = none ∧
          g.Moved v next (some v) h s h' s') ∨
        (r = .ok .busy ∧ s.holder ≠ none ∧ g.Moved v (s.stage v) s.holder h s h' s')) := by
  have htry : (Host.tryMutex g.place (g.party v) limit : HostM ε Grant) h =
      .ok (s.lock.mutex.acquire (g.party v) (0 ≤ limit)).1
        (h.setMutex g.place (s.lock.mutex.acquire (g.party v) (0 ≤ limit)).2) := by
    rw [← hs.lock]
    rfl
  rcases g.exclusive.acquire hs.sound.mutex (g.party v) (0 ≤ limit) with
    ⟨hfree, hhad, -⟩ | ⟨hbusy, -⟩
  · have hact : Act (g.party v) s.lock (s.stage v) .takes _ next := .take (0 ≤ limit) hnext hhad
    exact .step hv hact (.of_ok htry ⟨rfl, .inl ⟨_, rfl, hhad, hfree,
      hs.storeMutex hv hcaller hact⟩⟩)
  · have hact : Act (g.party v) s.lock (s.stage v) .nothing _ (s.stage v) :=
      .findBusy (0 ≤ limit) hnext hbusy
    refine .step hv hact (.of_ok htry ⟨rfl, .inr ⟨by rw [hbusy], ?_,
      hs.storeMutex hv hcaller hact⟩⟩)
    -- A mutex that nobody has is not busy.
    intro hnone
    have hhas := hs.sound.mutex
    rw [hnone] at hhas
    have hhad := (g.exclusive.free hhas (g.party v) (0 ≤ limit)).1
    rw [hbusy] at hhad
    cases hhad

/-- A visitor gives the mutex back, and goes on. -/
theorem walks_releaseMutex (hs : g.Shows h s) (hv : v ∈ g.crowd) (hcaller : g.IsCaller v h)
    (hnext : (s.stage v).handedBack = some next) :
    g.Walks (Host.releaseMutex g.place (g.party v) : HostM ε Unit) h s fun r h' s' =>
      r = .ok () ∧ g.Moved v next none h s h' s' := by
  have hhad := (Stage.handedBack_eq_some hnext).1
  have hact : Act (g.party v) s.lock (s.stage v) .yields _ next :=
    .handBack hnext (hs.release hhad)
  have hrelease : (Host.releaseMutex g.place (g.party v) : HostM ε Unit) h =
      .ok () (h.setMutex g.place (s.lock.mutex.release (g.party v)).2) :=
    bind_of_ok (hs.tryRelease hhad)
  exact .step hv hact (.of_ok hrelease ⟨rfl, hs.storeMutex hv hcaller hact⟩)

/-! ## Counting -/

/-- A visitor who has the mutex is counted in, unless there are too many. -/
theorem walks_countIn (hs : g.Shows h s) (hv : v ∈ g.crowd) (hcaller : g.IsCaller v h)
    (hstage : s.stage v = .entering) (holder : String) :
    g.Walks (Host.countIn g.place (g.party v) holder) h s fun r h' s' =>
      (r = .ok () ∧ g.Moved v .reading none h s h' s') ∨
      (r = .error (.tooManyReaders holder) ∧ g.Moved v .overrun s.holder h s h' s') := by
  unfold Host.countIn
  refine .get_bind ?_
  rw [hs.lock]
  cases henter : s.lock.enter? with
  | some l =>
      have hact : Act (g.party v) s.lock (s.stage v) .nothing l .entered := by
        rw [hstage]
        exact .enter henter
      have hmoved := hs.store hv hcaller hact
      refine .step hv hact (.bind (.of_ok rfl ?_))
      refine (walks_releaseMutex hmoved.shows hv (hmoved.callers v hcaller)
        (by rw [hmoved.stage]; rfl)).mono fun r h' s' hend => .inl ⟨hend.1, ?_⟩
      exact hmoved.trans hend.2
  | none =>
      have hact : Act (g.party v) s.lock (s.stage v) .nothing s.lock .overrun := by
        rw [hstage]
        exact .overrun henter
      exact .step hv hact (.of_error rfl (.inr ⟨rfl, hs.stay hv hcaller hact⟩))

/-- A visitor who has the mutex is counted out. -/
theorem walks_countOut (hs : g.Shows h s) (hv : v ∈ g.crowd) (hcaller : g.IsCaller v h)
    (hstage : s.stage v = .discounting) (holder : String) :
    g.Walks (Host.countOut g.place (g.party v) holder : HostM ε Unit) h s fun r h' s' =>
      r = .ok () ∧ g.Moved v .outside none h s h' s' := by
  have hact : Act (g.party v) s.lock (s.stage v) .nothing (s.lock.leave?.getD s.lock) .left := by
    rw [hstage]
    exact .countOut
  -- Whether somebody was counted or not, the mutex is given back.
  have hrest : ∀ {h' : Host}, g.Moved v .left s.holder h s h'
      (s.after v .nothing (s.lock.leave?.getD s.lock) .left) →
      g.Walks (Host.releaseMutex g.place (g.party v) : HostM ε Unit) h'
        (s.after v .nothing (s.lock.leave?.getD s.lock) .left) fun r h'' s' =>
          r = .ok () ∧ g.Moved v .outside none h s h'' s' := by
    intro h' hmoved
    refine (walks_releaseMutex hmoved.shows hv (hmoved.callers v hcaller)
      (by rw [hmoved.stage]; rfl)).mono fun r h'' s' hend => ⟨hend.1, ?_⟩
    exact hmoved.trans hend.2
  unfold Host.countOut
  refine .get_bind ?_
  rw [hs.lock]
  refine .step hv hact ?_
  cases hleave : s.lock.leave? with
  | some l =>
      rw [hleave] at hact hrest
      exact .bind (.of_ok rfl (hrest (hs.store hv hcaller hact)))
  | none =>
      rw [hleave] at hact hrest
      exact .bind (.of_ok rfl (hrest ((hs.stay hv hcaller hact).note _ _)))

/-! ## Those who come up meanwhile -/

/-- A visitor who wants to be counted out takes the mutex for it, or finds it busy. -/
theorem walks_tryReturn {l : Leaver} (hs : g.Shows h s) (hv : v ∈ g.crowd)
    (hcaller : g.IsCaller v h) (hplace : l.lock = g.place) (hparty : g.party v = l.party)
    (hstage : s.stage v = .leaving) :
    g.Walks (Host.tryReturn l : HostM ε Bool) h s fun r h' s' =>
      ∃ ended next, r = .ok ended ∧ (ended = false → next = .leaving) ∧
        g.Moved v next s.holder h s h' s' := by
  unfold Host.tryReturn
  rw [hplace, ← hparty]
  refine .bind ((walks_tryMutex hs hv hcaller (by rw [hstage]; rfl) l.due).mono ?_)
  intro r h' s' htried
  rcases htried.2 with ⟨grant, rfl, hhad, hfree, hmoved⟩ | ⟨rfl, -, hmoved⟩
  · -- The mutex is had, and the reader is counted out.
    have hout : ∀ {h'' : Host}, g.Moved v .discounting (some v) h s h'' s' →
        g.Walks (do Host.countOut g.place (g.party v) l.holder; return true : HostM ε Bool)
          h'' s' fun r h' s' => ∃ ended next, r = .ok ended ∧ (ended = false → next = .leaving) ∧
            g.Moved v next s.holder h s h' s' := by
      intro h'' hmoved
      refine .bind ((walks_countOut hmoved.shows hv (hmoved.callers v hcaller) hmoved.stage
        l.holder).mono ?_)
      intro r h₃ s₃ hend
      obtain ⟨rfl, hlast⟩ := hend
      refine .of_ok rfl ⟨true, .outside, rfl, nofun, ?_⟩
      rw [hfree]
      exact hmoved.trans hlast
    cases grant with
    | granted => exact hout hmoved
    | recovered => exact .bind (.of_ok rfl (hout (hmoved.note _ _)))
    | busy => cases hhad
    | refused e => cases hhad
  · rw [hstage] at hmoved
    exact .of_ok rfl ⟨false, .leaving, rfl, fun _ => rfl, hmoved⟩

/-- Whoever comes up takes its turn. -/
theorem walks_turn (hs : g.Shows h s) {turn : Host.Turn} (hturn : turn.IsOf h) :
    g.Walks (turn.run : HostM ε Unit) h s fun r h' s' =>
      r = .ok () ∧ g.Meanwhile h s h' s' := by
  cases turn with
  | comesUp l =>
      obtain ⟨hplace, v, hv, hparty, hstage⟩ := hs.leavers l hturn
      obtain ⟨hup, hcaller, hfewer⟩ := hs.withoutLeaver hturn hparty (h.waitUntil l.due).clock
      have hact : Act (g.party v) s.lock (s.stage v) .nothing s.lock .leaving := by
        rw [hstage]
        exact .leave
      have hbegun := hup.stay hv hcaller hact
      refine .bind (.of_ok rfl (.step hv hact (.bind ?_)))
      refine (walks_tryReturn hbegun.shows hv (hbegun.callers v hcaller) hplace hparty
        hbegun.stage).mono ?_
      intro r h' s' hend
      obtain ⟨ended, next, rfl, hnext, hlast⟩ := hend
      have hmoved : g.Moved v next s.holder _ s h' s' := hbegun.trans hlast
      have hmeanwhile : g.Meanwhile h s h' s' :=
        hmoved.meanwhile (.inl hturn) hparty hfewer
      cases ended with
      | true => exact .of_ok rfl ⟨rfl, hmeanwhile⟩
      | false =>
          -- It found the mutex busy, and joins those who wait.
          refine .of_ok rfl ⟨rfl, ?_, fun w hw => ?_, hmeanwhile.holder⟩
          · exact hmoved.shows.joined hv (hmoved.callers v hcaller) hplace hparty
              (hmoved.stage.trans (hnext rfl))
          · obtain ⟨hcaller', hstage'⟩ := hmeanwhile.callers w hw
            exact ⟨hcaller'.joined (hw l (.inl hturn)), hstage'⟩
  | isServed l =>
      obtain ⟨hplace, v, hv, hparty, hstage⟩ := hs.waiters l hturn
      obtain ⟨hup, hcaller, hfewer⟩ := hs.withoutWaiter hturn hparty h.clock
      refine .bind (.of_ok rfl (.bind ?_))
      refine (walks_tryReturn hup hv hcaller hplace hparty hstage).mono ?_
      intro r h' s' hend
      obtain ⟨ended, next, rfl, -, hmoved⟩ := hend
      exact .of_ok rfl ⟨rfl, hmoved.meanwhile (.inr hturn) hparty hfewer⟩
  | givesUp l =>
      obtain ⟨hplace, v, hv, hparty, hstage⟩ := hs.waiters l hturn
      obtain ⟨hup, hcaller, hfewer⟩ := hs.withoutWaiter hturn hparty (h.waitUntil l.due).clock
      have hact : Act (g.party v) s.lock (s.stage v) .forfeits s.lock .outside := by
        rw [hstage]
        exact .forfeit
      refine .bind (.of_ok rfl (.step hv hact (.of_ok rfl ⟨rfl, ?_⟩)))
      exact ((hup.stay hv hcaller hact).note _ _).meanwhile (.inr hturn) hparty hfewer

/-- **Meanwhile the others take their turns.**  However long that is, and whatever one waits
for, it is a run in which the callers stay where they are. -/
theorem walks_elapse (hs : g.Shows h s) (limit : Int) (enough : Host → Bool) (steps : Nat) :
    g.Walks (Host.elapse limit enough steps : HostM ε Unit) h s fun r h' s' =>
      r = .ok () ∧ g.Meanwhile h s h' s' := by
  induction steps generalizing h s with
  | zero => exact .of_ok rfl ⟨rfl, hs.waits limit⟩
  | succ steps ih =>
      unfold Host.elapse
      refine .get_bind ?_
      split
      · exact .of_ok rfl ⟨rfl, hs, fun _ hw => ⟨hw, rfl⟩, rfl⟩
      · refine .get_bind ?_
        split
        · rename_i turn hturn
          refine .bind ((walks_turn hs (Host.nextTurn?_isOf hturn)).mono ?_)
          intro r h' s' hend
          obtain ⟨rfl, hfirst⟩ := hend
          exact (ih hfirst.shows).mono fun r h'' s'' hrest =>
            ⟨hrest.1, hfirst.trans hrest.2⟩
        · exact .of_ok rfl ⟨rfl, hs.waits limit⟩

/-! ## Calls -/

/-- A caller who wants the mutex has it in the end, or has waited in vain. -/
theorem walks_takeMutex {missed : Stage} (hat : g.At v st h s) (hv : v ∈ g.crowd)
    (hnext : st.granted = some next) (hmissed : ∀ l, Act (g.party v) l st deed l missed)
    (limit : Int) (mode : LockMode) (holder : String) :
    g.Walks (Host.takeMutex g.place (g.party v) limit mode holder) h s fun r h' s' =>
      match r with
      | .ok () => g.At v next h' s'
      | .error _ => g.At v missed h' s' := by
  obtain ⟨hs, hcaller, rfl⟩ := hat
  unfold Host.takeMutex
  refine .bind ((walks_tryMutex hs hv hcaller hnext limit).mono ?_)
  intro r h' s' htried
  rcases htried.2 with ⟨grant, rfl, hhad, -, hmoved⟩ | ⟨rfl, -, hmoved⟩
  · cases grant with
    | granted => exact .of_ok rfl (hmoved.at hcaller)
    | recovered => exact .of_ok rfl ((hmoved.note _ _).at hcaller)
    | busy => cases hhad
    | refused e => cases hhad
  · -- It waits until the limit, while the others take their turns.
    refine .bind (.get_bind ((walks_elapse hmoved.shows _ _ _).mono ?_))
    intro r h'' s'' hend
    obtain ⟨rfl, hmeanwhile⟩ := hend
    obtain ⟨hcaller', hstage⟩ := hmeanwhile.callers v (hmoved.callers v hcaller)
    have hact : Act (g.party v) s''.lock (s''.stage v) deed s''.lock missed := by
      rw [hstage, hmoved.stage]
      exact hmissed _
    exact .step hv hact (.of_error rfl ((hmeanwhile.shows.stay hv hcaller' hact).at hcaller'))

/-- **Taking a read lock is a run of the caller's steps.**  The caller has the lock in the
end, or was refused, or was stopped because there are too many readers. -/
theorem walks_lockRead (hat : g.At v st h s) (hv : v ∈ g.crowd) (hidle : st.isIdle = true)
    (timeout readTimeout : Span) (holder : String) :
    g.Walks (Host.lockRead g.place (g.party v) timeout readTimeout holder) h s fun r h' s' =>
      match r with
      | .ok () => g.At v .reading h' s'
      | .error (.error _) => g.At v .refused h' s'
      | .error (.abort _) => g.At v .overrun h' s' := by
  obtain ⟨hs, hcaller, rfl⟩ := hat
  have hcall : Act (g.party v) s.lock (s.stage v) .nothing s.lock (.asking .read) :=
    .call .read hidle
  unfold Host.lockRead
  refine .step hv hcall (.get_bind (.bind (.mapFailure ?_)))
  refine (walks_takeMutex ((hs.stay hv hcaller hcall).at hcaller) hv rfl
    (fun _ => .timeOut .read) _ _ _).mono ?_
  intro r h' s' htaken
  cases r with
  | ok _ =>
      refine .mapFailure ((walks_countIn htaken.shows hv htaken.caller htaken.stage_eq
        holder).mono ?_)
      intro r h'' s'' hend
      rcases hend with ⟨rfl, hmoved⟩ | ⟨rfl, hmoved⟩
      · exact hmoved.at htaken.caller
      · exact hmoved.at htaken.caller
  | error e => exact htaken

/-- A caller who wants a mutex that nobody has is given it, and goes on. -/
theorem walks_retakeMutex {rest : HostM Error α}
    {post : Except Error α → Host → Traffic V → Prop} (hat : g.At v st h s) (hv : v ∈ g.crowd)
    (hfree : s.holder = none) (hnext : st.granted = some next) (limit : Int)
    (failure : Errno → Error) (holder : String)
    (hrest : ∀ {h' s'}, s'.lock.readers = s.lock.readers → g.At v next h' s' →
      g.Walks rest h' s' post) :
    g.Walks (do
      match ← Host.tryMutex g.place (g.party v) limit with
      | .refused e => throw (failure e)
      | .recovered => Host.sayRecovered holder
      | _ => pure ()
      rest) h s post := by
  obtain ⟨hs, hcaller, rfl⟩ := hat
  refine .bind ((walks_tryMutex hs hv hcaller hnext limit).mono ?_)
  intro r h' s' htried
  rcases htried.2 with ⟨grant, rfl, hhad, -, hmoved⟩ | ⟨-, hheld, -⟩
  · have hat := hmoved.at hcaller
    cases grant with
    | granted => exact hrest htried.1 hat
    | recovered => exact .bind (.of_ok rfl (hrest htried.1 (hat.note _ _)))
    | busy => cases hhad
    | refused e => cases hhad
  · exact absurd hfree hheld

/-- A caller who has the mutex and finds no reader has the write lock. -/
theorem walks_gain (hat : g.At v .checking h s) (hv : v ∈ g.crowd) (hnone : s.lock.readers = 0) :
    g.Walks (pure () : HostM Error Unit) h s fun r h' s' =>
      match r with
      | .ok () => g.At v .writing h' s'
      | .error _ => g.At v .failing h' s' := by
  have hgain : Act (g.party v) s.lock (s.stage v) .nothing s.lock .writing := by
    rw [hat.stage_eq]
    exact .gain hnone
  exact .step hv hgain (.of_ok rfl ((hat.shows.stay hv hat.caller hgain).at hat.caller))

/-- A caller who finds readers waits for them, the mutex being handed back meanwhile: it has
the write lock in the end, or is to give the mutex back. -/
theorem walks_awaitReaders (hat : g.At v .checking h s) (hv : v ∈ g.crowd) (limit : Int)
    (holder : String) :
    g.Walks (Host.awaitReaders g.place (g.party v) limit holder) h s fun r h' s' =>
      match r with
      | .ok () => g.At v .writing h' s'
      | .error _ => g.At v .failing h' s' := by
  unfold Host.awaitReaders
  refine .get_bind ?_
  dsimp only
  have hlock := hat.shows.lock
  by_cases hnone : s.lock.readers = 0
  · rw [if_pos (by simp [Host.hasNoReaders, hlock, hnone])]
    exact walks_gain hat hv hnone
  · obtain ⟨hs, hcaller, hstage⟩ := hat
    have hhad : (s.stage v).hasMutex = true := by rw [hstage]; rfl
    have hpark : Act (g.party v) s.lock (s.stage v) .yields (s.lock.handedBack (g.party v))
        .parked := by
      rw [hstage]
      exact .park hnone (hs.release hhad)
    rw [if_neg (by simp [Host.hasNoReaders, hlock, hnone])]
    refine .bind (.step hv hpark (.of_ok (hs.tryRelease hhad) ?_))
    have hparked := hs.storeMutex hv hcaller hpark
    refine .get_bind (.bind ((walks_elapse hparked.shows _ _ _).mono ?_))
    intro r h' s' hend
    obtain ⟨rfl, hmeanwhile⟩ := hend
    have hs' := hmeanwhile.shows
    obtain ⟨hcaller', hstage'⟩ := hmeanwhile.callers v (hparked.callers v hcaller)
    rw [hparked.stage] at hstage'
    have hfree : s'.holder = none := hmeanwhile.holder.trans hparked.holder
    refine .get_bind ?_
    split
    · -- It has been told that the readers left, and finds none of them.
      rename_i hleft
      have hnone' : s'.lock.readers = 0 := by
        rw [← hs'.lock]
        simpa [Host.hasNoReaders] using hleft
      have hwake : Act (g.party v) s'.lock (s'.stage v) .nothing s'.lock (.returning false) := by
        rw [hstage']
        exact .wake
      refine .step hv hwake ?_
      exact walks_retakeMutex ((hs'.stay hv hcaller' hwake).at hcaller') hv hfree rfl limit _
        holder fun hreaders hat => walks_gain hat hv (hreaders.trans hnone')
    · -- It has waited in vain.
      have hwake : Act (g.party v) s'.lock (s'.stage v) .nothing s'.lock.deserted
          (.returning true) := by
        rw [hstage']
        exact .wakeInVain
      have hleave : (Host.leaveQueue g.place : HostM Error Unit) h' =
          .ok () (h'.setLock g.place s'.lock.deserted) := by
        rw [← hs'.lock]
        rfl
      refine .step hv hwake (.bind (.of_ok hleave ?_))
      exact walks_retakeMutex ((hs'.store hv hcaller' hwake).at hcaller') hv hfree rfl limit _
        holder fun _ hat => .of_error rfl hat

/-- **Taking the write lock is a run of the caller's steps.**  The caller has the lock in the
end, or was refused. -/
theorem walks_lockWrite (hat : g.At v st h s) (hv : v ∈ g.crowd) (hidle : st.isIdle = true)
    (timeout : Span) (holder : String) :
    g.Walks (Host.lockWrite g.place (g.party v) timeout holder) h s fun r h' s' =>
      match r with
      | .ok () => g.At v .writing h' s'
      | .error _ => g.At v .refused h' s' := by
  obtain ⟨hs, hcaller, rfl⟩ := hat
  have hcall : Act (g.party v) s.lock (s.stage v) .nothing s.lock (.asking .write) :=
    .call .write hidle
  unfold Host.lockWrite
  refine .step hv hcall (.get_bind (.bind ?_))
  refine (walks_takeMutex ((hs.stay hv hcaller hcall).at hcaller) hv rfl
    (fun _ => .timeOut .write) _ _ _).mono ?_
  intro r h' s' htaken
  cases r with
  | error e => exact htaken
  | ok _ =>
      refine .bind (.attempt ((walks_awaitReaders htaken hv _ holder).mono ?_))
      intro r h'' s'' hend
      cases r with
      | ok _ => exact .of_ok rfl hend
      | error e =>
          refine .bind ((walks_releaseMutex hend.shows hv hend.caller
            (by rw [hend.stage_eq]; rfl)).mono ?_)
          intro r h₃ s₃ hback
          obtain ⟨rfl, hmoved⟩ := hback
          exact .of_error rfl (hmoved.at hend.caller)

/-- **Giving a read lock back is a run of the caller's steps.**  The caller does not have it
in the end, whether it was counted out or gave up. -/
theorem walks_unlockRead (hat : g.At v .reading h s) (hv : v ∈ g.crowd) (readTimeout : Span)
    (holder : String) :
    g.Walks (Host.unlockRead g.place (g.party v) readTimeout holder : HostM ε Unit) h s
      fun r h' s' => r = .ok () ∧ g.At v .outside h' s' := by
  obtain ⟨hs, hcaller, hstage⟩ := hat
  have hleave : Act (g.party v) s.lock (s.stage v) .nothing s.lock .leaving := by
    rw [hstage]
    exact .leave
  unfold Host.unlockRead
  refine .step hv hleave (.get_bind (.bind (.attempt ?_)))
  refine (walks_takeMutex ((hs.stay hv hcaller hleave).at hcaller) hv rfl
    (fun _ => .forfeit) _ _ _).mono ?_
  intro r h' s' htaken
  cases r with
  | ok _ =>
      refine (walks_countOut htaken.shows hv htaken.caller htaken.stage_eq holder).mono ?_
      intro r h'' s'' hend
      exact ⟨hend.1, hend.2.at htaken.caller⟩
  | error e => exact .of_ok rfl ⟨rfl, htaken.note _ _⟩

/-- **Giving the write lock back is a run of the caller's steps.**  It never fails. -/
theorem walks_unlockWrite (hat : g.At v .writing h s) (hv : v ∈ g.crowd) (holder : String) :
    g.Walks (Host.unlockWrite g.place (g.party v) holder) h s fun r h' s' =>
      r = .ok () ∧ g.At v .outside h' s' := by
  obtain ⟨hs, hcaller, hstage⟩ := hat
  have hnone : s.lock.readers = 0 := hs.sound.vacant v (by rw [hstage]; rfl)
  have hfinish : Act (g.party v) s.lock (s.stage v) .nothing s.lock .releasing := by
    rw [hstage]
    exact .finish hnone
  have hmoved := hs.stay hv hcaller hfinish
  unfold Host.unlockWrite
  refine .step hv hfinish (.get_bind ?_)
  rw [hs.lock, if_pos hnone]
  refine (walks_releaseMutex hmoved.shows hv (hmoved.callers v hcaller)
    (by rw [hmoved.stage]; rfl)).mono ?_
  intro r h' s' hend
  exact ⟨hend.1, (hmoved.trans hend.2).at hcaller⟩

end Gate

end Subscription
