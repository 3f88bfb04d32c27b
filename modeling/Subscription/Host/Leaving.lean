import Subscription.Host.Basic

/-!
# Leaving a lock later

A leaver is a party that returns a read lock once its time has come.  It takes
the mutex for a moment; when it finds the mutex busy it waits, and when it has
waited in vain the reader stays counted, and the log says so.

Leavers act only while the running party waits, for whatever it may be: then
they take their turns (`Host.elapse`), and what they say is logged meanwhile.
`Host.nextTurn?` says whose turn it is.  A mutex that has become free goes to
those who wait for it, in the order in which they came, before anybody else
comes up.
-/

namespace Subscription

namespace Host

variable {ε : Type}

/-- Tries to take the mutex of a lock.  Nobody waits for a time before the
epoch. -/
def tryMutex (place : LockPlace) (p : Party) (limit : Int) : HostM ε Grant :=
  modifyGet fun h =>
    let (grant, mutex) := (h.lockAt place).mutex.acquire p (0 ≤ limit)
    (grant, h.setMutex place mutex)

/-- Tries to give the mutex of a lock back. -/
def tryRelease (place : LockPlace) (p : Party) : HostM ε (Option Errno) :=
  modifyGet fun h =>
    let (failed, mutex) := (h.lockAt place).mutex.release p
    (failed, h.setMutex place mutex)

/-- Gives the mutex of a lock back, or says why that is not possible. -/
def releaseMutex (place : LockPlace) (p : Party) : HostM ε Unit := do
  match ← tryRelease place p with
  | none => pure ()
  | some e => say .warn s!"Unlocking a mutex failed ({e.message})."

/-- Says that a lock was recovered from a dead holder. -/
def sayRecovered (holder : String) : HostM ε Unit :=
  say .warn s!"Recovered a lock whose owner died, in {holder}; guarded data may be inconsistent."

/-- Counts a reader out of a lock whose mutex is held, and gives the mutex
back. -/
def countOut (place : LockPlace) (p : Party) (holder : String) : HostM ε Unit := do
  match ((← get).lockAt place).leave? with
  | some lock => modify fun h => h.setLock place lock
  | none => say .error s!"Internal error: read unlock without any reader in {holder}."
  releaseMutex place p

/-- Says that a read lock could not be given back. -/
def sayNotReturned (holder : String) (e : Error) : HostM ε Unit :=
  say .error
    s!"Failed to return a read lock in {holder}, reader count left as is ({e.message})."

/-- A leaver tries to take the mutex and to return its read lock; tells
whether it has come to an end with it. -/
def tryReturn (l : Leaver) : HostM ε Bool := do
  match ← tryMutex l.lock l.party l.due with
  | .granted =>
      countOut l.lock l.party l.holder
      return true
  | .recovered =>
      sayRecovered l.holder
      countOut l.lock l.party l.holder
      return true
  | .refused e =>
      sayNotReturned l.holder (.lockFailed LockMode.read.name l.holder e)
      return true
  | .busy => return false

/-- What a leaver does next. -/
inductive Turn where
  /-- Its time has come, and it tries to return its read lock. -/
  | comesUp (l : Leaver)
  /-- It gets the mutex for which it has been waiting. -/
  | isServed (l : Leaver)
  /-- It has been waiting for the mutex in vain. -/
  | givesUp (l : Leaver)

/-- A leaver that finds the mutex busy waits for it. -/
def Turn.run : Turn → HostM ε Unit
  | comesUp l => do
      modify fun h =>
        { h.waitUntil l.due with leavers := h.leavers.filter (fun o => o.party ≠ l.party) }
      if ← tryReturn l then pure ()
      else
        modify fun h =>
          let due := (deadline h.now l.readTimeout).toNanos.toNat
          { h with waiters := h.waiters ++ [{ l with due }] }
  | isServed l => do
      modify fun h => { h with waiters := h.waiters.filter (fun o => o.party ≠ l.party) }
      let _ ← tryReturn l
  | givesUp l => do
      modify fun h =>
        { h.waitUntil l.due with waiters := h.waiters.filter (fun o => o.party ≠ l.party) }
      sayNotReturned l.holder (.lockTimeout LockMode.read.name l.holder)

/-- The one that is due first. -/
def earliest? : List Leaver → Option Leaver
  | [] => none
  | l :: rest =>
      match earliest? rest with
      | some o => if o.due < l.due then some o else some l
      | none => some l

/-- Whether a leaver could take its mutex. -/
def canTake (h : Host) (l : Leaver) : Bool :=
  ((h.lockAt l.lock).mutex.acquire l.party true).1 ≠ .busy

/-- Whose turn it is before the limit.  As soon as time passes at all, a mutex
that is free goes to the first of those who wait for it. -/
def nextTurn? (h : Host) (limit : Int) : Option Turn :=
  match if h.clock < limit then h.waiters.find? h.canTake else none with
  | some l => some (.isServed l)
  | none =>
      let before (l : Leaver) (turn : Turn) : Option Turn :=
        if l.due ≤ limit then some turn else none
      match earliest? h.leavers, earliest? h.waiters with
      | some l, some w =>
          if l.due ≤ w.due then before l (.comesUp l) else before w (.givesUp w)
      | some l, none => before l (.comesUp l)
      | none, some w => before w (.givesUp w)
      | none, none => none

/-- Lets time pass until the limit, or until there is enough of it, while the
leavers take their turns; `steps` bounds how many. -/
def elapse (limit : Int) (enough : Host → Bool) : Nat → HostM ε Unit
  | 0 => modify fun h => h.waitUntil limit
  | steps + 1 => do
      if enough (← get) then pure ()
      else
        match (← get).nextTurn? limit with
        | some turn =>
            turn.run
            elapse limit enough steps
        | none => modify fun h => h.waitUntil limit

/-- A bound on how many turns the leavers take: each one comes up once and
waits at most once. -/
def stepBound (h : Host) : Nat := 2 * h.leavers.length + h.waiters.length + 1

/-- Lets time pass until the limit. -/
def pass (limit : Int) : HostM ε Unit := do
  elapse limit (fun _ => false) (← get).stepBound

/-- Lets a span of time pass. -/
def sleep (span : Span) : HostM ε Unit := do
  pass (deadline (← get).now span).toNanos

/-- Waits until all leavers have come to an end. -/
def joinLeavers : HostM ε Unit := do
  let h ← get
  let ends := h.leavers.map fun l => (deadline (.ofNanos l.due) l.readTimeout).toNanos
  let dues := (h.leavers ++ h.waiters).map fun l => (l.due : Int)
  let last := (ends ++ dues).foldl max (h.clock : Int)
  elapse last (fun h => h.leavers.isEmpty && h.waiters.isEmpty) h.stepBound

/-- A party that was not there before will return a read lock after a
delay. -/
def unlockLater (place : LockPlace) (delay readTimeout : Span) (holder : String) :
    HostM ε Unit := do
  let party ← newParty
  modify fun h =>
    let due := (deadline h.now delay).toNanos.toNat
    { h with leavers := h.leavers ++ [⟨due, place, party, readTimeout, holder⟩] }

end Host

end Subscription
