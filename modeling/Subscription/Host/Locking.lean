import Subscription.Host.Leaving

/-!
# Taking and giving back locks

Locks are taken with a timeout.

* A write lock waits for the mutex and then, with the mutex handed back
  meanwhile, for the readers to leave; both within the timeout.
* A read lock needs the mutex for a moment only and never waits longer than
  the read timeout.  When the count of readers can go no higher, that is a
  broken promise (`Abort.tooManyReaders`), and the mutex stays taken.
* A read lock is given back under the mutex as well.  When that cannot be
  had in time the reader stays counted, and the log says so.
* A write lock is given back while no reader is counted; anything else is a
  broken promise (`Abort.releasedWithReaders`), and the mutex stays taken.

There is no fairness between readers and writers.  A mutex that is busy when
the running party asks for it stays busy while that party waits: either it
holds the mutex itself, or the holder is dead.  So waiting for a mutex ends at
the deadline (`Host.takeMutex`), and the wait that can end earlier is that for
readers (`Host.awaitReaders`).
-/

namespace Subscription

namespace Host

variable {ε : Type}

/-- Takes the mutex of a lock, waiting for it until the limit. -/
def takeMutex (place : LockPlace) (p : Party) (limit : Int) (mode : LockMode)
    (holder : String) : HostM Error Unit := do
  match ← tryMutex place p limit with
  | .granted => pure ()
  | .recovered => sayRecovered holder
  | .busy =>
      pass limit
      throw (.lockTimeout mode.name holder)
  | .refused e => throw (.lockFailed mode.name holder e)

/-- Whether no reader is counted. -/
def hasNoReaders (place : LockPlace) (h : Host) : Bool :=
  (h.lockAt place).readers = 0

/-- Leaves the queue of a lock, having waited in vain. -/
def leaveQueue (place : LockPlace) : HostM ε Unit :=
  modify fun h =>
    let lock := h.lockAt place
    h.setLock place { lock with queue := lock.queue.giveUp }

/-- Waits until the limit for the readers to leave, the mutex being handed
back meanwhile.  Whoever is told that they left leaves no trace in the queue
that others can see. -/
def awaitReaders (place : LockPlace) (p : Party) (limit : Int) (holder : String) :
    HostM Error Unit := do
  let failure (e : Errno) : Error := .lockFailed LockMode.write.name holder e
  if hasNoReaders place (← get) then pure ()
  else
    if let some e ← tryRelease place p then
      leaveQueue place
      throw (failure e)
    elapse limit (hasNoReaders place) (← get).stepBound
    let left := hasNoReaders place (← get)
    unless left do leaveQueue place
    match ← tryMutex place p limit with
    | .refused e => throw (failure e)
    | .recovered => sayRecovered holder
    | _ => pure ()
    unless left do throw (.lockTimeout LockMode.write.name holder)

/-- Takes the write lock; the mutex is never kept on a failure to get it. -/
def lockWrite (place : LockPlace) (p : Party) (timeout : Span) (holder : String) :
    HostM Error Unit := do
  let limit := (deadline (← get).now timeout).toNanos
  takeMutex place p limit .write holder
  match ← attempt (awaitReaders place p limit holder) with
  | .ok () => pure ()
  | .error e =>
      releaseMutex place p
      throw e

/-- Counts a reader into a lock whose mutex is held, and gives the mutex
back. -/
def countIn (place : LockPlace) (p : Party) (holder : String) : HostM Abort Unit := do
  match ((← get).lockAt place).enter? with
  | some lock =>
      modify fun h => h.setLock place lock
      releaseMutex place p
  | none => throw (.tooManyReaders holder)

/-- Takes a read lock. -/
def lockRead (place : LockPlace) (p : Party) (timeout readTimeout : Span) (holder : String) :
    HostM Failure Unit := do
  let limit := (deadline (← get).now (timeout.shorter readTimeout)).toNanos
  takeMutex place p limit .read holder
  countIn place p holder

/-- Takes a lock. -/
def lock (place : LockPlace) (p : Party) (timeout readTimeout : Span) (mode : LockMode)
    (holder : String) : HostM Failure Unit :=
  match mode with
  | .read => lockRead place p timeout readTimeout holder
  | .write => lockWrite place p timeout holder

/-- Gives a read lock back. -/
def unlockRead (place : LockPlace) (p : Party) (readTimeout : Span) (holder : String) :
    HostM ε Unit := do
  let limit := (deadline (← get).now readTimeout).toNanos
  match ← attempt (takeMutex place p limit .read holder) with
  | .error e => sayNotReturned holder e
  | .ok () => countOut place p holder

/-- Gives the write lock back. -/
def unlockWrite (place : LockPlace) (p : Party) (holder : String) : HostM Abort Unit := do
  let readers := ((← get).lockAt place).readers
  if readers = 0 then releaseMutex place p
  else throw (.releasedWithReaders readers.toNat holder)

/-- Gives a lock back. -/
def unlock (place : LockPlace) (p : Party) (readTimeout : Span) (mode : LockMode)
    (holder : String) : HostM Abort Unit :=
  match mode with
  | .read => unlockRead place p readTimeout holder
  | .write => unlockWrite place p holder

/-- A party that was not there before takes a lock and dies with what it has
got of it. -/
def dieHolding (place : LockPlace) (timeout readTimeout : Span) (mode : LockMode)
    (holder : String) : HostM Failure Unit := do
  let p ← newParty
  let result ← attempt (lock place p timeout readTimeout mode holder)
  modify fun h => h.setMutex place ((h.lockAt place).mutex.abandon p)
  ofExcept result

end Host

end Subscription
