import Mathlib.Algebra.BigOperators.Group.Finset.Piecewise
import Mathlib.Data.Finset.Card
import Mathlib.Logic.Function.Basic
import Mathlib.Logic.Relation
import Subscription.Proofs.IdleLock

/-!
# Readers and a writer exclude each other

Any number of visitors come to one lock.  A visitor wants one lock at a time, for a
party; a party that has several locks at once is as many visitors.  Taking the lock and
giving it back is cut into the steps that others can see (`Act`): the mutex is asked for
and had or found busy, a reader is counted in or out, a writer looks at the count, hands
the mutex back and waits for the readers, wakes up for whatever reason or in vain and
asks for the mutex again, the mutex is given back.  A visitor knows the words of the lock
and how far it has got itself (`Stage`), and nothing of the others.  The visitors take
their steps in any order (`Traffic.Run`), and every wait may end at any time.

Of the mutex it is assumed that one party has it at a time (`Mutex.Exclusive`), which
holds of both kinds of mutexes that are made.  The rest follows from what one step does
to the mutex (`Act.mutex`) and to the count (`Act.readers`):

* the visitor who has the mutex is the one whose stage says so, hence all who write are
  one;
* the count is the number of visitors who read, and of the read locks that were given up
  because the mutex could not be had in time;
* a writer got the lock when nobody was counted, and while it has the mutex nobody can be
  counted in.

So every state of every run is orderly (`Traffic.orderly_of_run`).
-/

namespace Subscription

/-! ## Mutexes that one party has at a time -/

/-- Whether an attempt to take a mutex has succeeded. -/
def Grant.isHad : Grant → Bool
  | .granted | .recovered => true
  | .busy | .refused _ => false

/-- One party has a mutex at a time, given who has one in which state.  Whoever asks for a
mutex that nobody has is given it; one that somebody has is busy for everybody, its holder
included; and the holder can give it back. -/
structure Mutex.Exclusive (Has : Option Party → Mutex → Prop) : Prop where
  free : ∀ {m : Mutex}, Has none m → ∀ p waits,
    (m.acquire p waits).1.isHad = true ∧ Has (some p) (m.acquire p waits).2
  busy : ∀ {m : Mutex} {q : Party}, Has (some q) m → ∀ p waits,
    (m.acquire p waits).1 = .busy ∧ Has (some q) (m.acquire p waits).2
  release : ∀ {m : Mutex} {p : Party}, Has (some p) m →
    (m.release p).1 = none ∧ Has none (m.release p).2

namespace Mutex

variable {m : Mutex} {p q : Party}

/-- Who has a mutex inside a process, which does not know its holder. -/
structure HasPlain (holder : Option Party) (m : Mutex) : Prop where
  kind : m.kind = .plain
  word : m.word = .free ↔ holder = none

/-- Who has a mutex in a segment.  Nobody has it, too, when its holder died. -/
structure HasRobust (holder : Option Party) (m : Mutex) : Prop where
  kind : m.kind = .ofSegments
  free : holder = none → m.word.dead = true ∨ m.word = .free ∧ m.owner ≠ .unrecoverable
  held : ∀ p, holder = some p →
    m.word.dead = false ∧ m.word.bearer = .party p ∧ m.owner = .heldBy p
  fits : m.Fits

theorem hasPlain_fresh : HasPlain none (.fresh .plain) := ⟨rfl, by simp [fresh]⟩

/-- A mutex whose words name no holder is had by nobody. -/
theorem hasRobust_none (hkind : m.kind = .ofSegments)
    (hfree : m.word.dead = true ∨ m.word = .free ∧ m.owner ≠ .unrecoverable) (hfits : m.Fits) :
    HasRobust none m where
  kind := hkind
  free _ := hfree
  held p hp := by cases hp
  fits := hfits

/-- A mutex whose words name a living holder is had by that party. -/
theorem hasRobust_some (hkind : m.kind = .ofSegments)
    (hheld : m.word.dead = false ∧ m.word.bearer = .party p ∧ m.owner = .heldBy p)
    (hfits : m.Fits) : HasRobust (some p) m where
  kind := hkind
  free hnone := by cases hnone
  held q hq := by
    cases hq
    exact hheld
  fits := hfits

theorem hasRobust_fresh : HasRobust none (.fresh .ofSegments) :=
  hasRobust_none rfl (.inr ⟨rfl, HolderWord.free_ne_unrecoverable⟩)
    ⟨HolderWord.fits_free, HolderWord.fits_free, no_links_fit⟩

/-- **A mutex inside a process is had by one party at a time.** -/
theorem exclusive_plain : Exclusive HasPlain where
  free := by
    rintro m ⟨hkind, hword⟩ p waits
    have hfree : m.word = .free := hword.mpr rfl
    have hacquire : m.acquire p waits = (.granted, { m with word := .taken }.record p) := by
      simp [acquire, hkind, MutexKind.plain, MutexKind.isUsable, MutexKind.answers, acquirePlain,
        hfree]
    rw [hacquire]
    exact ⟨rfl, hkind, by simp [record, HolderWord.taken, HolderWord.free]⟩
  busy := by
    rintro m q ⟨hkind, hword⟩ p waits
    have htaken : m.word ≠ .free := fun hfree => by simpa using hword.mp hfree
    have hacquire : m.acquire p waits = (.busy, { m with word := .contested }) := by
      simp [acquire, hkind, MutexKind.plain, MutexKind.isUsable, MutexKind.answers, acquirePlain,
        htaken]
    rw [hacquire]
    exact ⟨rfl, hkind, by simp [HolderWord.contested, HolderWord.free]⟩
  release := by
    rintro m p ⟨hkind, -⟩
    have hrelease : m.release p = (none, m.givenBack p) := by
      simp [release, mayRelease, hkind, MutexKind.plain]
    rw [hrelease]
    exact ⟨rfl, hkind, by simp [givenBack, MutexKind.isInheriting, hkind, MutexKind.plain]⟩

/-- **A mutex in a segment is had by one party at a time.** -/
theorem exclusive_robust : Exclusive HasRobust where
  free := by
    rintro m ⟨hkind, hfree, -, hfits⟩ p waits
    by_cases hdead : m.word.dead = true
    · have hacquire : m.acquire p waits = (.recovered, m.recover p) := by
        simp [acquire, hkind, MutexKind.ofSegments, MutexKind.isUsable, acquireRobust, hdead]
      rw [hacquire]
      exact ⟨rfl, hasRobust_some hkind (by simp [recover, HolderWord.heldBy])
        ⟨HolderWord.fits_heldBy p, HolderWord.fits_heldBy p, no_links_fit⟩⟩
    · obtain ⟨hword, howner⟩ := (hfree rfl).resolve_left hdead
      have hacquire : m.acquire p waits =
          (.granted, { m with word := .heldBy p, depth := 1, links := 0 }.record p) := by
        simp [acquire, hkind, MutexKind.ofSegments, MutexKind.isUsable, acquireRobust,
          acquireFree, MutexKind.isRobust, hword, howner, HolderWord.free]
      rw [hacquire]
      exact ⟨rfl, hasRobust_some hkind (by simp [record, HolderWord.heldBy])
        ⟨HolderWord.fits_heldBy p, HolderWord.fits_heldBy p, no_links_fit⟩⟩
  busy := by
    rintro m q ⟨hkind, -, hheld, hfits⟩ p waits
    obtain ⟨hdead, hbearer, howner⟩ := hheld q rfl
    have hword : m.word ≠ .free := by
      intro hfree
      rw [hfree] at hbearer
      cases hbearer
    have hacquire : m.acquire p waits = (.busy, m.await waits) := by
      simp [acquire, hkind, MutexKind.ofSegments, MutexKind.isUsable, acquireRobust, hdead,
        hword, askAgain]
    rw [hacquire]
    exact ⟨rfl, hasRobust_some hkind ⟨hdead, hbearer, howner⟩
      ⟨hfits.word, hfits.owner, hfits.links⟩⟩
  release := by
    rintro m p ⟨hkind, -, hheld, -⟩
    obtain ⟨hdead, hbearer, howner⟩ := hheld p rfl
    have hrelease : m.release p = (none, m.returned) := by
      simp [release, mayRelease, hkind, MutexKind.ofSegments, isHeldBy, hbearer, givenBack,
        MutexKind.isInheriting, MutexKind.isRobust, howner, HolderWord.heldBy,
        HolderWord.inconsistent, returned]
    rw [hrelease]
    exact ⟨rfl, hasRobust_none hkind (.inr ⟨rfl, HolderWord.free_ne_unrecoverable⟩)
      ⟨HolderWord.fits_free, HolderWord.fits_free, no_links_fit⟩⟩

end Mutex

/-! ## The steps of a visitor -/

/-- How far a visitor has got. -/
inductive Stage where
  /-- It has nothing to do with the lock. -/
  | outside
  /-- It was not given the lock for which it came. -/
  | refused
  /-- It wants the mutex, for the lock. -/
  | asking (mode : LockMode)
  /-- It has the mutex and is to be counted in. -/
  | entering
  /-- It has been counted in and is to give the mutex back. -/
  | entered
  /-- It has a read lock. -/
  | reading
  /-- It has the mutex and is to see whether there are readers. -/
  | checking
  /-- It has handed the mutex back and waits for the readers to leave. -/
  | parked
  /-- It does not wait any more, in vain or not, and wants the mutex again. -/
  | returning (vain : Bool)
  /-- It does not get the write lock and is to give the mutex back. -/
  | failing
  /-- It has the write lock. -/
  | writing
  /-- It wants the mutex, to give its read lock back. -/
  | leaving
  /-- It has the mutex and is to be counted out. -/
  | discounting
  /-- It is not counted any more and is to give the mutex back. -/
  | left
  /-- It has found no reader and is to give the mutex back, which was its write lock. -/
  | releasing
  /-- It was stopped with the mutex: there are as many readers as can be counted. -/
  | overrun
  /-- It was stopped with the mutex: it had the write lock, and there were readers. -/
  | betrayed
  deriving DecidableEq, Repr

namespace Stage

/-- Whether no call is under way, and none has succeeded. -/
def isIdle : Stage → Bool
  | outside | refused => true
  | _ => false

/-- Whether a visitor at this stage has the mutex. -/
def hasMutex : Stage → Bool
  | entering | entered | checking | failing | writing | discounting | left | releasing
  | overrun | betrayed => true
  | _ => false

/-- Whether a visitor at this stage has a read lock: it has one from when it is counted in
to when it is counted out, or gives up being counted out. -/
def reads : Stage → Bool
  | entered | reading | leaving | discounting => true
  | _ => false

/-- Whether a visitor at this stage has the write lock. -/
def writes : Stage → Bool
  | writing | releasing => true
  | _ => false

/-- Whether a call for the lock is under way that may still fail, or has failed. -/
def mayFail : Stage → Bool
  | asking _ | entering | checking | parked | returning _ | failing | refused => true
  | _ => false

/-- The stage once a visitor has got the mutex, if it wants it. -/
def granted : Stage → Option Stage
  | asking .read => some entering
  | asking .write | returning false => some checking
  | returning true => some failing
  | leaving => some discounting
  | _ => none

/-- The stage once a visitor has given the mutex back, if it is to do that. -/
def handedBack : Stage → Option Stage
  | entered => some reading
  | failing => some refused
  | left | releasing => some outside
  | _ => none

end Stage

/-- What a step is to others, next to what it does to the words of the lock. -/
inductive Deed where
  | nothing
  /-- The visitor has got the mutex. -/
  | takes
  /-- The visitor has given the mutex back. -/
  | yields
  /-- The visitor gives its read lock up, which stays counted. -/
  | forfeits
  deriving DecidableEq, Repr

namespace RwLock

/-- The lock once somebody has asked for its mutex. -/
def asked (l : RwLock) (p : Party) (waits : Bool) : RwLock :=
  { l with mutex := (l.mutex.acquire p waits).2 }

/-- The lock once somebody has given its mutex back. -/
def handedBack (l : RwLock) (p : Party) : RwLock :=
  { l with mutex := (l.mutex.release p).2 }

/-- The lock once a writer has left its queue in vain. -/
def deserted (l : RwLock) : RwLock := { l with queue := l.queue.giveUp }

end RwLock

/-- The steps of a visitor who has come for a party: from which stage, what it does, what
it leaves of the lock, and to which stage. -/
inductive Act (p : Party) (l : RwLock) : Stage → Deed → RwLock → Stage → Prop
  /-- It comes for the lock. -/
  | call {st : Stage} (mode : LockMode) (hidle : st.isIdle = true) :
      Act p l st .nothing l (.asking mode)
  /-- It gets the mutex. -/
  | take {st next : Stage} (waits : Bool) (hnext : st.granted = some next)
      (hhad : (l.mutex.acquire p waits).1.isHad = true) :
      Act p l st .takes (l.asked p waits) next
  /-- It finds the mutex busy, and waits or asks again. -/
  | findBusy {st next : Stage} (waits : Bool) (hnext : st.granted = some next)
      (hbusy : (l.mutex.acquire p waits).1 = .busy) :
      Act p l st .nothing (l.asked p waits) st
  /-- It has waited for the mutex in vain. -/
  | timeOut (mode : LockMode) : Act p l (.asking mode) .nothing l .refused
  /-- The mutex is refused to it. -/
  | deny (mode : LockMode) (waits : Bool) (e : Errno)
      (hrefused : (l.mutex.acquire p waits).1 = .refused e) :
      Act p l (.asking mode) .nothing (l.asked p waits) .refused
  /-- It is counted in. -/
  | enter {l' : RwLock} (henter : l.enter? = some l') : Act p l .entering .nothing l' .entered
  /-- It cannot be counted in. -/
  | overrun (henter : l.enter? = none) : Act p l .entering .nothing l .overrun
  /-- It sees that there are no readers, and has the write lock. -/
  | gain (hnone : l.readers = 0) : Act p l .checking .nothing l .writing
  /-- It sees that there are readers, and hands the mutex back to wait for them. -/
  | park (hsome : l.readers ≠ 0) (hrelease : (l.mutex.release p).1 = none) :
      Act p l .checking .yields (l.handedBack p) .parked
  /-- It sees that there are readers, and cannot hand the mutex back. -/
  | parkFails (hsome : l.readers ≠ 0) (e : Errno) (hrelease : (l.mutex.release p).1 = some e) :
      Act p l .checking .nothing (l.handedBack p).deserted .failing
  /-- It wakes up: it may have been told that there are no readers, or not. -/
  | wake : Act p l .parked .nothing l (.returning false)
  /-- It has waited for the readers in vain. -/
  | wakeInVain : Act p l .parked .nothing l.deserted (.returning true)
  /-- The mutex is refused to it when it wants it again. -/
  | denyAgain (vain waits : Bool) (e : Errno)
      (hrefused : (l.mutex.acquire p waits).1 = .refused e) :
      Act p l (.returning vain) .nothing (l.asked p waits) .failing
  /-- It is to give its read lock back. -/
  | leave : Act p l .reading .nothing l .leaving
  /-- It has waited in vain for the mutex that it needs to give its read lock back. -/
  | forfeit : Act p l .leaving .forfeits l .outside
  /-- The mutex that it needs to give its read lock back is refused to it. -/
  | forfeitDenied (waits : Bool) (e : Errno)
      (hrefused : (l.mutex.acquire p waits).1 = .refused e) :
      Act p l .leaving .forfeits (l.asked p waits) .outside
  /-- It is counted out, if anybody is counted. -/
  | countOut : Act p l .discounting .nothing (l.leave?.getD l) .left
  /-- It is to give the write lock back, and sees that there are no readers. -/
  | finish (hnone : l.readers = 0) : Act p l .writing .nothing l .releasing
  /-- It is to give the write lock back, and sees readers. -/
  | betray (hsome : l.readers ≠ 0) : Act p l .writing .nothing l .betrayed
  /-- It gives the mutex back. -/
  | handBack {st next : Stage} (hnext : st.handedBack = some next)
      (hrelease : (l.mutex.release p).1 = none) : Act p l st .yields (l.handedBack p) next
  /-- It cannot give the mutex back, and goes its way. -/
  | handBackFails {st next : Stage} (hnext : st.handedBack = some next) (e : Errno)
      (hrelease : (l.mutex.release p).1 = some e) :
      Act p l st .nothing (l.handedBack p) next

/-! ## Traffic at a lock -/

/-- A lock and those who have come to it. -/
structure Traffic (V : Type) where
  lock : RwLock
  /-- Who was given the mutex and has not given it back. -/
  holder : Option V
  stage : V → Stage
  /-- How often a visitor has changed the count of readers since it came for the lock. -/
  changes : V → Nat
  /-- How many read locks were given up. -/
  lost : Nat

/-- Who has the mutex after a visitor has done something. -/
def Deed.holder {V : Type} (v : V) (before : Option V) : Deed → Option V
  | takes => some v
  | yields => none
  | nothing | forfeits => before

namespace Traffic

variable {V : Type}

/-- A lock to which nobody has come yet. -/
def opening (lock : RwLock) : Traffic V := ⟨lock, none, fun _ => .outside, fun _ => 0, 0⟩

variable [DecidableEq V]

/-- The traffic after a step of a visitor. -/
def after (s : Traffic V) (v : V) (deed : Deed) (lock : RwLock) (next : Stage) : Traffic V where
  lock := lock
  holder := deed.holder v s.holder
  stage := Function.update s.stage v next
  changes :=
    let before := if (s.stage v).isIdle then 0 else s.changes v
    Function.update s.changes v (if lock.readers = s.lock.readers then before else before + 1)
  lost := if deed = .forfeits then s.lost + 1 else s.lost

variable (party : V → Party) (crowd : Finset V)

/-- One of the crowd takes a step, for the party that it has come for. -/
def Step (s s' : Traffic V) : Prop :=
  ∃ v ∈ crowd, ∃ deed lock next,
    Act (party v) s.lock (s.stage v) deed lock next ∧ s' = s.after v deed lock next

/-- Any number of steps, in any order. -/
def Run : Traffic V → Traffic V → Prop := Relation.ReflTransGen (Step party crowd)

/-- How many of the crowd have a read lock. -/
def readers (s : Traffic V) : Nat := (crowd.filter fun v => (s.stage v).reads = true).card

/-- What holds at a lock at all times.  A read lock counts as held from when it is counted
in to when it is counted out or given up, and the write lock from when it is granted to
when its mutex has been given back. -/
structure Orderly (s : Traffic V) : Prop where
  /-- While a visitor has the write lock, no other one has any lock. -/
  exclusive : ∀ v, (s.stage v).writes = true → ∀ w, w ≠ v →
    (s.stage w).reads = false ∧ (s.stage w).writes = false
  /-- The count of readers is not lower than the number of those who have a read lock. -/
  counted : s.readers crowd ≤ s.lock.readers.toNat
  /-- It is that number if no read lock was given up. -/
  exact : s.lost = 0 → s.lock.readers.toNat = s.readers crowd
  /-- Whoever did not get the lock does not have the mutex, and its call has not changed
  the count. -/
  refused : ∀ v, s.stage v = .refused → s.holder ≠ some v ∧ s.changes v = 0
  /-- Nobody finds readers when giving the write lock back. -/
  loyal : ∀ v, s.stage v ≠ .betrayed
  /-- Nobody is stopped for lack of numbers as long as there is one left. -/
  room : s.readers crowd + s.lost < RwLock.maxReaders.toNat → ∀ v, s.stage v ≠ .overrun

end Traffic

/-! ## What one step does -/

section Step

variable {V : Type} {Has : Option Party → Mutex → Prop} {party : V → Party}
  {l l' : RwLock} {p : Party} {v : V} {holder : Option V} {st next : Stage} {deed : Deed}

/-- What getting the mutex and giving it back do not change of a visitor. -/
structure Stage.Leads (st next : Stage) : Prop where
  reads : next.reads = st.reads
  writes : next.writes = false
  mayFail : next.mayFail = true → st.mayFail = true
  goesOn : next ≠ .overrun ∧ next ≠ .betrayed

theorem Stage.granted_eq_some (h : st.granted = some next) :
    st.hasMutex = false ∧ next.hasMutex = true ∧ st.Leads next := by
  unfold granted at h
  split at h <;> cases h <;> exact ⟨rfl, rfl, rfl, rfl, by decide, nofun, nofun⟩

theorem Stage.handedBack_eq_some (h : st.handedBack = some next) :
    st.hasMutex = true ∧ next.hasMutex = false ∧ st.Leads next := by
  unfold handedBack at h
  split at h <;> cases h <;> exact ⟨rfl, rfl, rfl, rfl, by decide, nofun, nofun⟩

theorem Stage.hasMutex_of_writes (h : st.writes = true) : st.hasMutex = true := by
  unfold writes at h
  split at h
  · rfl
  · rfl
  · cases h

/-- Whoever asks for a mutex is given it if nobody has it, and finds it busy otherwise. -/
theorem Mutex.Exclusive.acquire (hexcl : Mutex.Exclusive Has) {m : Mutex}
    (hhas : Has (holder.map party) m) (p : Party) (waits : Bool) :
    (holder = none ∧ (m.acquire p waits).1.isHad = true ∧ Has (some p) (m.acquire p waits).2) ∨
    ((m.acquire p waits).1 = .busy ∧ Has (holder.map party) (m.acquire p waits).2) := by
  cases holder with
  | none => exact .inl ⟨rfl, hexcl.free hhas p waits⟩
  | some w => exact .inr (hexcl.busy hhas p waits)

theorem RwLock.enter?_eq_some (h : l.enter? = some l') :
    l'.mutex = l.mutex ∧ l'.readers.toNat = l.readers.toNat + 1 := by
  unfold enter? at h
  split at h
  · cases h
  · rename_i hroom
    cases h
    refine ⟨rfl, ?_⟩
    have hne : l.readers.toNat ≠ maxReaders.toNat := fun heq => hroom (UInt32.toNat_inj.mp heq)
    have hbound := l.readers.toNat_lt
    have hmax : maxReaders.toNat = 4294967295 := rfl
    have hone : (1 : UInt32).toNat = 1 := rfl
    rw [UInt32.toNat_add, hone]
    omega

theorem RwLock.enter?_eq_none (h : l.enter? = none) : l.readers = maxReaders := by
  unfold enter? at h
  split at h
  · assumption
  · cases h

/-- Counting somebody out leaves the mutex alone. -/
theorem RwLock.mutex_leave? (l : RwLock) : (l.leave?.getD l).mutex = l.mutex := by
  unfold leave?
  split <;> rfl

theorem RwLock.readers_leave? (hsome : l.readers ≠ 0) :
    (l.leave?.getD l).readers.toNat + 1 = l.readers.toNat := by
  rw [leave?, if_neg hsome]
  show (l.readers - 1).toNat + 1 = _
  have hne : l.readers.toNat ≠ 0 := fun heq => hsome (UInt32.toNat_inj.mp heq)
  have hone : (1 : UInt32).toNat = 1 := rfl
  have hle : (1 : UInt32) ≤ l.readers := UInt32.le_iff_toNat_le.mpr (by omega)
  rw [UInt32.toNat_sub_of_le _ _ hle]
  omega

/-- The mutex is where it should be after a step of a visitor: the one who had it still
has it, or the visitor has taken it from nobody, or has given it back. -/
structure Passed (Has : Option Party → Mutex → Prop) (party : V → Party) (v : V)
    (holder holder' : Option V) (l' : RwLock) (next : Stage) : Prop where
  has : Has (holder'.map party) l'.mutex
  own : next.hasMutex = true ↔ holder' = some v
  others : ∀ w, w ≠ v → (holder' = some w ↔ holder = some w)

theorem Passed.stay (hhas : Has (holder.map party) l.mutex)
    (hown : st.hasMutex = true ↔ holder = some v) (hmutex : l'.mutex = l.mutex)
    (hsame : next.hasMutex = st.hasMutex) : Passed Has party v holder holder l' next where
  has := by rwa [hmutex]
  own := by rw [hsame, hown]
  others _ _ := Iff.rfl

theorem Passed.take (hfree : holder = none) (hhas : Has (some (party v)) l'.mutex)
    (hhad : next.hasMutex = true) : Passed Has party v holder (some v) l' next where
  has := hhas
  own := by simp [hhad]
  others w hne := by simp [hfree, Ne.symm hne]

theorem Passed.yield (hheld : holder = some v) (hhas : Has none l'.mutex)
    (hgone : next.hasMutex = false) : Passed Has party v holder none l' next where
  has := hhas
  own := by simp [hgone]
  others w hne := by simp [hheld, Ne.symm hne]

/-- **One step passes the mutex on as it should.**  In particular nobody who wants the
mutex is refused, and nobody fails to give it back. -/
theorem Act.passed (hexcl : Mutex.Exclusive Has) (hhas : Has (holder.map party) l.mutex)
    (hown : st.hasMutex = true ↔ holder = some v)
    (hact : Act (party v) l st deed l' next) :
    Passed Has party v holder (deed.holder v holder) l' next := by
  have hasked := hexcl.acquire hhas (party v)
  have hnever : ∀ {waits e}, (l.mutex.acquire (party v) waits).1 ≠ .refused e := by
    intro waits e hrefused
    rcases hasked waits with ⟨-, hhad, -⟩ | ⟨hbusy, -⟩
    · rw [hrefused] at hhad
      cases hhad
    · rw [hrefused] at hbusy
      cases hbusy
  -- Whoever has the mutex can give it back.
  have hback : st.hasMutex = true → holder = some v ∧
      (l.mutex.release (party v)).1 = none ∧ Has none (l.mutex.release (party v)).2 := by
    intro hhad
    have hheld := hown.mp hhad
    rw [hheld] at hhas
    exact ⟨hheld, hexcl.release hhas⟩
  cases hact with
  | call mode hidle =>
    refine .stay hhas hown rfl ?_
    cases st <;> simp_all [Stage.isIdle, Stage.hasMutex]
  | take waits hnext hhad =>
    rcases hasked waits with ⟨hfree, -, htaken⟩ | ⟨hbusy, -⟩
    · exact .take hfree htaken (Stage.granted_eq_some hnext).2.1
    · rw [hbusy] at hhad
      cases hhad
  | findBusy waits hnext hbusy =>
    rcases hasked waits with ⟨-, hhad, -⟩ | ⟨-, hstays⟩
    · rw [hbusy] at hhad
      cases hhad
    · exact ⟨hstays, hown, fun _ _ => Iff.rfl⟩
  | deny mode waits e hrefused => exact absurd hrefused hnever
  | denyAgain vain waits e hrefused => exact absurd hrefused hnever
  | forfeitDenied waits e hrefused => exact absurd hrefused hnever
  | park hsome hrelease => exact .yield (hback rfl).1 (hback rfl).2.2 rfl
  | parkFails hsome e hrelease =>
    rw [(hback rfl).2.1] at hrelease
    cases hrelease
  | handBack hnext hrelease =>
    obtain ⟨hhad, hgone, -⟩ := Stage.handedBack_eq_some hnext
    exact .yield (hback hhad).1 (hback hhad).2.2 hgone
  | handBackFails hnext e hrelease =>
    rw [(hback (Stage.handedBack_eq_some hnext).1).2.1] at hrelease
    cases hrelease
  | enter henter => exact .stay hhas hown (RwLock.enter?_eq_some henter).1 rfl
  | countOut => exact .stay hhas hown l.mutex_leave? rfl
  | timeOut | overrun | gain | wake | wakeInVain | leave | forfeit | finish | betray =>
    exact .stay hhas hown rfl rfl

/-- **The count follows those who have a read lock.**  Only the holder of the mutex changes
it, and one is counted in when a visitor has got a read lock, and out when it has given it
back; a read lock that is given up stays counted. -/
theorem Act.readers (hcounted : st.reads = true → l.readers ≠ 0)
    (hact : Act p l st deed l' next) :
    l'.readers.toNat + st.reads.toNat =
      l.readers.toNat + next.reads.toNat + (decide (deed = .forfeits)).toNat := by
  cases hact with
  | enter henter =>
    have hcount := (RwLock.enter?_eq_some henter).2
    simp [Stage.reads, hcount]
  | countOut =>
    have hcount := RwLock.readers_leave? (hcounted rfl)
    simp [Stage.reads, hcount]
  | call mode hidle => cases st <;> simp_all [Stage.isIdle, Stage.reads]
  | take waits hnext _ =>
    simp [RwLock.asked, (Stage.granted_eq_some hnext).2.2.reads]
  | handBack hnext _ | handBackFails hnext e _ =>
    simp [RwLock.handedBack, (Stage.handedBack_eq_some hnext).2.2.reads]
  | _ => simp [Stage.reads, RwLock.asked, RwLock.handedBack, RwLock.deserted]

/-- The count is changed by visitors who have the mutex, and have no write lock. -/
theorem Act.readers_eq (hact : Act p l st deed l' next)
    (hrest : st.hasMutex = false ∨ next.mayFail = true) : l'.readers = l.readers := by
  cases hact with
  | enter henter | countOut => simp_all [Stage.hasMutex, Stage.mayFail]
  | _ => rfl

/-- A write lock is granted when nobody is counted. -/
theorem Act.readers_eq_zero (hact : Act p l st deed l' next)
    (hvacant : st.writes = true → l.readers = 0) (hwrites : next.writes = true) :
    l'.readers = 0 := by
  cases hact with
  | gain hnone | finish hnone => exact hnone
  | findBusy waits hnext hbusy => exact hvacant hwrites
  | take waits hnext _ =>
    rw [(Stage.granted_eq_some hnext).2.2.writes] at hwrites
    cases hwrites
  | handBack hnext _ | handBackFails hnext e _ =>
    rw [(Stage.handedBack_eq_some hnext).2.2.writes] at hwrites
    cases hwrites
  | _ => cases hwrites

/-- A call that may still fail has not changed the count. -/
theorem Act.mayFail (hact : Act p l st deed l' next) (hfails : next.mayFail = true) :
    st.isIdle = true ∨ st.mayFail = true := by
  cases hact with
  | call mode hidle => exact .inl hidle
  | take waits hnext _ => exact .inr ((Stage.granted_eq_some hnext).2.2.mayFail hfails)
  | handBack hnext _ | handBackFails hnext e _ =>
    exact .inr ((Stage.handedBack_eq_some hnext).2.2.mayFail hfails)
  | findBusy waits hnext hbusy => exact .inr hfails
  | forfeit | forfeitDenied | enter | overrun | gain | leave | countOut | finish | betray =>
    cases hfails
  | timeOut | deny | park | parkFails | wake | wakeInVain | denyAgain => exact .inr rfl

/-- Whoever has the write lock finds no readers when giving it back. -/
theorem Act.ne_betrayed (hact : Act p l st deed l' next)
    (hvacant : st.writes = true → l.readers = 0) (hloyal : st ≠ .betrayed) :
    next ≠ .betrayed := by
  cases hact with
  | betray hsome => exact absurd (hvacant rfl) hsome
  | findBusy waits hnext hbusy => exact hloyal
  | take waits hnext _ => exact (Stage.granted_eq_some hnext).2.2.goesOn.2
  | handBack hnext _ | handBackFails hnext e _ =>
    exact (Stage.handedBack_eq_some hnext).2.2.goesOn.2
  | _ => exact nofun

/-- Nobody is stopped at the count but those who find it full. -/
theorem Act.eq_maxReaders (hact : Act p l st deed l' .overrun) (hgoes : st ≠ .overrun) :
    l'.readers = RwLock.maxReaders := by
  cases hact with
  | overrun henter => exact RwLock.enter?_eq_none henter
  | findBusy waits hnext hbusy => exact absurd rfl hgoes
  | take waits hnext _ => exact absurd rfl (Stage.granted_eq_some hnext).2.2.goesOn.1
  | handBack hnext _ | handBackFails hnext e _ =>
    exact absurd rfl (Stage.handedBack_eq_some hnext).2.2.goesOn.1

/-- Nobody goes on who was stopped at the count. -/
theorem Act.ne_overrun (hact : Act p l st deed l' next) : st ≠ .overrun := by
  rintro rfl
  cases hact with
  | call mode hidle => cases hidle
  | take waits hnext _ | findBusy waits hnext _ | handBack hnext _ | handBackFails hnext e _ =>
    cases hnext

end Step

/-! ## What all steps keep -/

namespace Traffic

variable {V : Type} {Has : Option Party → Mutex → Prop} {party : V → Party}
  {crowd : Finset V} {s s' : Traffic V} {v w : V} {lock : RwLock} {next : Stage} {deed : Deed}

/-- What is known of a lock and those who have come to it. -/
structure Sound (Has : Option Party → Mutex → Prop) (party : V → Party) (crowd : Finset V)
    (s : Traffic V) : Prop where
  mutex : Has (s.holder.map party) s.lock.mutex
  own : ∀ v, (s.stage v).hasMutex = true ↔ s.holder = some v
  count : s.lock.readers.toNat = s.readers crowd + s.lost
  vacant : ∀ v, (s.stage v).writes = true → s.lock.readers = 0
  unchanged : ∀ v, (s.stage v).mayFail = true → s.changes v = 0
  loyal : ∀ v, s.stage v ≠ .betrayed
  full : ∀ v, s.stage v = .overrun → s.lock.readers = RwLock.maxReaders
  away : ∀ v, v ∉ crowd → s.stage v = .outside

theorem sound_opening (hfree : Has none lock.mutex) (hnone : lock.readers = 0) :
    Sound Has party crowd (opening lock) where
  mutex := hfree
  own _ := by simp [opening, Stage.hasMutex]
  count := by simp [opening, readers, Stage.reads, hnone]
  vacant _ hwrites := by cases hwrites
  unchanged _ _ := rfl
  loyal _ := nofun
  full _ hfull := by cases hfull
  away _ _ := rfl

/-- Somebody who is known to be in the crowd and has a read lock is counted. -/
theorem Sound.counted (hs : Sound Has party crowd s) (hv : v ∈ crowd)
    (hreads : (s.stage v).reads = true) : s.lock.readers ≠ 0 := by
  intro hzero
  have hcount := hs.count
  have hpos : 0 < s.readers crowd :=
    Finset.card_pos.mpr ⟨v, Finset.mem_filter.mpr ⟨hv, hreads⟩⟩
  rw [hzero] at hcount
  have hno : (0 : UInt32).toNat = 0 := rfl
  omega

variable [DecidableEq V]

/-- A run goes on with a step of one of the crowd. -/
theorem Run.step {s₀ : Traffic V} {st : Stage} (hrun : Run party crowd s₀ s)
    (hv : v ∈ crowd) (hstage : s.stage v = st)
    (hact : Act (party v) s.lock st deed lock next) :
    Run party crowd s₀ (s.after v deed lock next) :=
  Relation.ReflTransGen.tail hrun ⟨v, hv, deed, lock, next, hstage ▸ hact, rfl⟩

@[simp] theorem lock_after : (s.after v deed lock next).lock = lock := rfl

@[simp] theorem holder_after : (s.after v deed lock next).holder = deed.holder v s.holder := rfl

@[simp] theorem stage_after_self : (s.after v deed lock next).stage v = next :=
  Function.update_self ..

theorem stage_after_of_ne (hne : w ≠ v) : (s.after v deed lock next).stage w = s.stage w :=
  Function.update_of_ne hne ..

theorem changes_after_of_ne (hne : w ≠ v) :
    (s.after v deed lock next).changes w = s.changes w :=
  Function.update_of_ne hne ..

theorem changes_after_eq_zero (hsame : lock.readers = s.lock.readers)
    (hbefore : (s.stage v).isIdle = false → s.changes v = 0) :
    (s.after v deed lock next).changes v = 0 := by
  have hchanges : (s.after v deed lock next).changes v =
      if (s.stage v).isIdle then 0 else s.changes v := by
    simp [after, hsame]
  rw [hchanges]
  split
  · rfl
  · rename_i hbusy
    exact hbefore (Bool.eq_false_iff.mpr hbusy)

/-- A step changes the number of those who have a read lock by the one who takes it. -/
theorem readers_after (hv : v ∈ crowd) :
    (s.after v deed lock next).readers crowd + (s.stage v).reads.toNat =
      s.readers crowd + next.reads.toNat := by
  have hsum : ∀ t : Traffic V, t.readers crowd =
      (t.stage v).reads.toNat + ∑ w ∈ crowd.erase v, (t.stage w).reads.toNat := by
    intro t
    rw [Finset.add_sum_erase crowd (fun w => (t.stage w).reads.toNat) hv, readers,
      Finset.card_filter]
    exact Finset.sum_congr rfl fun w _ => by cases (t.stage w).reads <;> rfl
  have hrest : ∑ w ∈ crowd.erase v, ((s.after v deed lock next).stage w).reads.toNat =
      ∑ w ∈ crowd.erase v, (s.stage w).reads.toNat :=
    Finset.sum_congr rfl fun w hw => by rw [stage_after_of_ne (Finset.ne_of_mem_erase hw)]
  rw [hsum (s.after v deed lock next), hsum s, hrest, stage_after_self]
  omega

/-- **A step keeps what is known.** -/
theorem Sound.step (hexcl : Mutex.Exclusive Has) (hs : Sound Has party crowd s)
    (hstep : Step party crowd s s') : Sound Has party crowd s' := by
  obtain ⟨v, hv, deed, lock, next, hact, rfl⟩ := hstep
  have hpassed := hact.passed hexcl hs.mutex (hs.own v)
  -- While another visitor needs the mutex, the count stays as it is.
  have hquiet : ∀ w, w ≠ v → (s.stage w).hasMutex = true → lock.readers = s.lock.readers := by
    intro w hne hhad
    refine hact.readers_eq (.inl ?_)
    rw [Bool.eq_false_iff]
    intro hmine
    have hsame := (hs.own w).mp hhad
    rw [(hs.own v).mp hmine] at hsame
    exact hne (Option.some.inj hsame).symm
  refine ⟨hpassed.has, ?_, ?_, ?_, ?_, ?_, ?_, ?_⟩
  · intro w
    by_cases hne : w = v
    · rw [hne, stage_after_self]
      exact hpassed.own
    · rw [stage_after_of_ne hne, holder_after, hpassed.others w hne]
      exact hs.own w
  · have hcount := hs.count
    have hact := hact.readers (hs.counted hv)
    have hreaders : (s.after v deed lock next).readers crowd + _ = _ := readers_after hv
    have hlost : (s.after v deed lock next).lost =
        s.lost + (decide (deed = .forfeits)).toNat := by
      by_cases hforfeits : deed = .forfeits <;> simp [after, hforfeits]
    rw [hlost, lock_after]
    omega
  · intro w hwrites
    by_cases hne : w = v
    · rw [hne, stage_after_self] at hwrites
      exact hact.readers_eq_zero (hs.vacant v) hwrites
    · rw [stage_after_of_ne hne] at hwrites
      rw [lock_after, hquiet w hne (Stage.hasMutex_of_writes hwrites)]
      exact hs.vacant w hwrites
  · intro w hfails
    by_cases hne : w = v
    · rw [hne, stage_after_self] at hfails
      rw [hne]
      exact changes_after_eq_zero (hact.readers_eq (.inr hfails)) fun hbusy =>
        hs.unchanged v ((hact.mayFail hfails).resolve_left (by simp [hbusy]))
    · rw [stage_after_of_ne hne] at hfails
      rw [changes_after_of_ne hne]
      exact hs.unchanged w hfails
  · intro w
    by_cases hne : w = v
    · rw [hne, stage_after_self]
      exact hact.ne_betrayed (hs.vacant v) (hs.loyal v)
    · rw [stage_after_of_ne hne]
      exact hs.loyal w
  · intro w hfull
    by_cases hne : w = v
    · rw [hne, stage_after_self] at hfull
      subst hfull
      exact hact.eq_maxReaders hact.ne_overrun
    · rw [stage_after_of_ne hne] at hfull
      rw [lock_after, hquiet w hne (by rw [hfull]; rfl)]
      exact hs.full w hfull
  · intro w hw
    have hne : w ≠ v := fun heq => hw (heq ▸ hv)
    rw [stage_after_of_ne hne]
    exact hs.away w hw

/-- What is known of a lock is enough for order. -/
theorem Sound.orderly (hs : Sound Has party crowd s) : Orderly crowd s where
  exclusive v hwrites w hne := by
    have hheld := (hs.own v).mp (Stage.hasMutex_of_writes hwrites)
    -- Nobody else has the mutex, and nobody is counted.
    have hwritesNot : (s.stage w).writes = false := by
      rw [Bool.eq_false_iff]
      intro hboth
      have hother := (hs.own w).mp (Stage.hasMutex_of_writes hboth)
      rw [hheld] at hother
      exact hne (Option.some.inj hother).symm
    have hreadsNot : (s.stage w).reads = false := by
      rw [Bool.eq_false_iff]
      intro hreads
      by_cases hw : w ∈ crowd
      · exact hs.counted hw hreads (hs.vacant v hwrites)
      · rw [hs.away w hw] at hreads
        cases hreads
    exact ⟨hreadsNot, hwritesNot⟩
  counted := hs.count ▸ Nat.le_add_right _ _
  exact hlost := by rw [hs.count, hlost, Nat.add_zero]
  refused v hrefused := by
    refine ⟨fun hheld => ?_, hs.unchanged v (by rw [hrefused]; rfl)⟩
    have hhad := (hs.own v).mpr hheld
    rw [hrefused] at hhad
    cases hhad
  loyal := hs.loyal
  room hroom v hfull := by
    have hcount := hs.count
    rw [hs.full v hfull] at hcount
    omega

/-- A run keeps what is known. -/
theorem Sound.run (hexcl : Mutex.Exclusive Has) (hs : Sound Has party crowd s)
    (hrun : Run party crowd s s') : Sound Has party crowd s' := by
  induction hrun with
  | refl => exact hs
  | tail _ hstep ih => exact ih.step hexcl hstep

/-- **Readers and a writer exclude each other.**  Any number of visitors come to a lock
that nobody has, of whose mutex no more is assumed than that one party has it at a time.
Whatever they do, in whatever order and with whatever waits ending in vain, the lock is
orderly at any time. -/
theorem orderly_of_run (hexcl : Mutex.Exclusive Has) (hfree : Has none lock.mutex)
    (hnone : lock.readers = 0) (hrun : Run party crowd (opening lock) s) : Orderly crowd s :=
  ((sound_opening hfree hnone).run hexcl hrun).orderly

/-- A reader has the lock, and a writer has waited for it to leave in vain. -/
theorem orderly_of_run_refused :
    ∃ s : Traffic Party, Run id {1, 2} (opening (.fresh .ofSegments)) s ∧
      s.stage 1 = .reading ∧ s.stage 2 = .refused ∧ s.lock.readers = 1 ∧
      Orderly {1, 2} s := by
  have hfirst : (1 : Party) ∈ ({1, 2} : Finset Party) := by decide
  have hsecond : (2 : Party) ∈ ({1, 2} : Finset Party) := by decide
  have hstart : Run id {1, 2} (opening (.fresh .ofSegments)) _ := .refl
  have hread := (((hstart.step hfirst rfl (.call .read rfl)).step hfirst rfl
    (.take true rfl rfl)).step hfirst rfl (.enter rfl)).step hfirst rfl (.handBack rfl rfl)
  have hwait := (((hread.step hsecond rfl (.call .write rfl)).step hsecond rfl
    (.take true rfl rfl)).step hsecond rfl (.park (by decide) rfl)).step hsecond rfl .wakeInVain
  have hfail := (hwait.step hsecond rfl (.take true rfl rfl)).step hsecond rfl (.handBack rfl rfl)
  exact ⟨_, hfail, rfl, rfl, rfl, orderly_of_run Mutex.exclusive_robust
    Mutex.hasRobust_fresh rfl hfail⟩

end Traffic

end Subscription
