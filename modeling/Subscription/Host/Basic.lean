import Subscription.Disk.Calls
import Subscription.Lock.Layout
import Subscription.Log
import Subscription.Outcome
import Subscription.Time

/-!
# The host

What all parties on one machine share: the disk, the clock, the log and
the locks that lie outside segments.  Commands are run by one party
(`mainParty`); others only come up to return a read lock at some later time
(`Leaver`) or to die holding one.

Nothing but waiting takes time.
-/

namespace Subscription

/-- Where a lock lies. -/
inductive LockPlace where
  /-- Outside segments. -/
  | loose (id : Nat)
  /-- In a file, at an offset. -/
  | inFile (file : FileId) (offset : Nat)
  deriving DecidableEq, Repr, Inhabited

/-- A party that returns a read lock. -/
structure Leaver where
  /-- When it comes up by itself, in nanoseconds: to try it, or to give it up
  once it has been waiting for the mutex. -/
  due : Nat
  lock : LockPlace
  party : Party
  readTimeout : Span
  holder : String
  deriving Inhabited

/-- What the parties on one machine share. -/
structure Host where
  disk : Disk
  /-- Nanoseconds since the epoch. -/
  clock : Nat
  log : List LogLine
  /-- The locks outside segments. -/
  locks : List RwLock
  /-- Those who will return a read lock, the first one first. -/
  leavers : List Leaver
  /-- Those of them who wait for the mutex, as they came. -/
  waiters : List Leaver
  /-- How many parties there have been. -/
  parties : Nat
  deriving Inhabited

/-- An action on the host that may fail. -/
abbrev HostM (ε : Type) : Type → Type := EStateM ε Host

namespace Host

variable {ε α : Type}

/-- Where the clock starts, in seconds since the epoch: any time will do that
leaves room for waits whose end lies in the past. -/
def firstSecond : Nat := 1750000000

/-- A host with an empty working directory. -/
def fresh : Host := ⟨.empty, firstSecond * nanosPerSecond, [], [], [], [], mainParty + 1⟩

/-- A host whose working directory holds the given empty directories. -/
def withDirectories (names : List String) : Host :=
  { fresh with
    disk := names.foldl (fun disk name => (disk.makeDirectory name).toOption.getD disk) .empty }

/-- The point in time. -/
def now (h : Host) : Instant := .ofNanos h.clock

/-- Adds a line to the log. -/
def note (h : Host) (level : LogLevel) (text : String) : Host :=
  { h with log := h.log ++ [⟨level, text⟩] }

/-- Adds a line to the log. -/
def say (level : LogLevel) (text : String) : HostM ε Unit :=
  modify fun h => h.note level text

/-- A party that was not there before. -/
def newParty : HostM ε Party :=
  modifyGet fun h => (h.parties, { h with parties := h.parties + 1 })

/-- Replaces the disk. -/
def setDisk (disk : Disk) : HostM ε Unit :=
  modify fun h => { h with disk }

/-- Calls on the disk, and why they failed, if so. -/
def onDisk (act : EStateM Errno Disk α) : HostM ε (Except Errno α) :=
  attempt (onPart (·.disk) (fun disk h => { h with disk }) act)

/-- Lets the clock show a time that is not earlier than the present one. -/
def waitUntil (h : Host) (nanos : Int) : Host :=
  { h with clock := max h.clock nanos.toNat }

/-- The lock at a place. -/
def lockAt (h : Host) : LockPlace → RwLock
  | .loose id => h.locks.getD id default
  | .inFile file offset => (h.disk.content file).lockAt offset

/-- Changes the lock at a place. -/
def setLock (h : Host) (place : LockPlace) (lock : RwLock) : Host :=
  match place with
  | .loose id => { h with locks := h.locks.set id lock }
  | .inFile file offset =>
      { h with disk := h.disk.modifyContent file fun c => c.setLock offset lock }

/-- Changes the mutex of the lock at a place; one that stays as it is is left
alone. -/
def setMutex (h : Host) (place : LockPlace) (mutex : Mutex) : Host :=
  let lock := h.lockAt place
  if mutex = lock.mutex then h else h.setLock place { lock with mutex }

/-- Makes a lock outside segments. -/
def newLock : HostM ε LockPlace :=
  modifyGet fun h =>
    (.loose h.locks.length, { h with locks := h.locks ++ [.fresh .plain] })

end Host

end Subscription
