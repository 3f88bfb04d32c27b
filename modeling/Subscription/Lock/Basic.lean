import Subscription.Lock.Holding

/-!
# Locks for readers and a writer

A lock is a mutex and a count of readers.  To hold the mutex *is* to hold
the write lock; a read lock is one unit of the count, taken and given back
while the mutex is held for a moment.

This file has the single steps on the count, each of them done at once:
`RwLock.enter?` and `RwLock.leave?` count a reader in and out.  A writer waits
for the readers in a queue; `Queue.giveUp` is what it leaves behind when it
has waited in vain.
-/

namespace Subscription

/-- What a lock is taken for. -/
inductive LockMode where
  | read
  | write
  deriving DecidableEq, Repr, Inhabited

/-- The name of a mode. -/
def LockMode.name : LockMode → String
  | read => "read"
  | write => "write"

/-- The queue of those who wait for the readers to leave.  Whoever comes
takes a number and joins one of two groups. -/
structure Queue where
  /-- Twice the next number; the lowest bit says which group is joined. -/
  comers : UInt64
  /-- What the size of either group differs from the numbers taken. -/
  even : UInt32
  odd : UInt32
  deriving DecidableEq, Repr, Inhabited

namespace Queue

/-- A queue that nobody has joined yet. -/
def fresh : Queue := ⟨0, 0, 0⟩

/-- The queue once somebody has joined it and left it in vain. -/
def giveUp (q : Queue) : Queue :=
  if q.comers % 2 = 0 then { q with comers := q.comers + 2, even := q.even - 1 }
  else { q with comers := q.comers + 2, odd := q.odd - 1 }

end Queue

/-- A lock for readers and a writer. -/
structure RwLock where
  mutex : Mutex
  queue : Queue
  readers : UInt32
  deriving DecidableEq, Repr, Inhabited

namespace RwLock

/-- A lock that nobody holds. -/
def fresh (kind : MutexKind) : RwLock := ⟨.fresh kind, .fresh, 0⟩

/-- The highest count of readers. -/
def maxReaders : UInt32 := 0xFFFFFFFF

/-- Counts one more reader, if there may be one. -/
def enter? (l : RwLock) : Option RwLock :=
  if l.readers = maxReaders then none else some { l with readers := l.readers + 1 }

/-- Counts one reader less, if there is one. -/
def leave? (l : RwLock) : Option RwLock :=
  if l.readers = 0 then none else some { l with readers := l.readers - 1 }

end RwLock

end Subscription
