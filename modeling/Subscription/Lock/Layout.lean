import Subscription.Header
import Subscription.Lock.Basic

/-!
# Locks in segments

A lock in a segment lies in its bytes: the words of its mutex, the numbers
of its queue, and the count of readers behind them.  Whatever the bytes are,
they make a lock (`Content.lockAt`), and bytes that are all zero are a plain
lock which nobody holds.

A word that says who has the mutex is a number in the lowest thirty bits and
two flags in the others.  Where a party has signed, the number is the name of
that party, which has its two lowest bytes; otherwise it stands for nobody.

Whoever uses a lock writes all of it back but the kind of its mutex
(`Content.setLock`), which is chosen when the lock is made
(`Content.initLock`).
-/

namespace Subscription

namespace LockLayout

/-- Where a mutex keeps the word for its holder. -/
def wordOffset : Nat := 0

/-- Where a mutex keeps how often its owner has taken it. -/
def depthOffset : Nat := 4

/-- Where a mutex keeps the word for its owner. -/
def ownerOffset : Nat := 8

/-- Where a mutex keeps how many have it. -/
def usersOffset : Nat := 12

/-- Where a mutex keeps the word for its kind. -/
def kindOffset : Nat := 16

/-- Where a mutex keeps how long to look. -/
def spinsOffset : Nat := 20

/-- Where a mutex keeps its links. -/
def linksOffset : Nat := 24

/-- Where a lock keeps how many have joined its queue. -/
def comersOffset : Nat := 40

/-- Where a lock keeps the sizes of the groups in its queue. -/
def groupsOffset : Nat := 64

/-- Where a lock keeps whether others than its process may join its queue. -/
def sharedOffset : Nat := 76

/-- Where a lock keeps the count of its readers. -/
def readersOffset : Nat := 88

/-- The flag for a holder who died. -/
def deadBit : Nat := 0x40000000

/-- The flag for those who wait. -/
def awaitedBit : Nat := 0x80000000

/-- The lowest number that does not fit into a signature. -/
def signatureBound : Nat := 0x10000

/-- The flags of a word for a holder. -/
def flags (word : HolderWord) : Nat :=
  (if word.dead then deadBit else 0) + (if word.awaited then awaitedBit else 0)

/-- The word for a robust mutex that is shared between processes. -/
def sharedRobust : Nat := 144

/-- The manner of a mutex, by the lowest bits of the word for its kind. -/
def mannerOfWord (word : Nat) : Manner :=
  match word % 4 with
  | 0 => .patient
  | 1 => .counting
  | 2 => .checking
  | _ => .spinning

/-- The family of a mutex, by seven bits of the word for its kind. -/
def familyOfWord (word : Nat) : Family :=
  match word % 128 / 4 with
  | 0 => .plain
  | 4 => .robust
  | 8 => .inheriting
  | 12 => .robustInheriting
  | 16 => .unusable .notPermitted
  | _ => .unusable .invalid

/-- The kind of mutex that a word stands for. -/
def kindOfWord (word : Nat) : MutexKind :=
  ⟨familyOfWord word, mannerOfWord word, word.testBit 8⟩

end LockLayout

open LockLayout

namespace Content

/-- The word for a holder at an offset. -/
def holderWord (c : Content) (offset : Nat) : HolderWord :=
  let word := c.number offset 4
  let number := word % deadBit
  let bearer :=
    match c.signer? offset with
    | some p => if number < signatureBound then .party p else .number number
    | none => .number number
  ⟨bearer, word.testBit 30, word.testBit 31⟩

/-- Stores a word for a holder at an offset. -/
def setHolderWord (c : Content) (offset : Nat) (word : HolderWord) : Content :=
  match word.bearer with
  | .number n => c.setNumber offset 4 (n + flags word)
  | .party p => (c.setNumber offset 4 (flags word)).sign offset p

/-- The mutex at an offset. -/
def mutexAt (c : Content) (offset : Nat) : Mutex where
  kind := kindOfWord (c.number (offset + kindOffset) 4)
  word := c.holderWord (offset + wordOffset)
  depth := UInt32.ofNat (c.number (offset + depthOffset) 4)
  owner := c.holderWord (offset + ownerOffset)
  users := UInt32.ofNat (c.number (offset + usersOffset) 4)
  spins := Int16.ofNat (c.number (offset + spinsOffset) 2)
  links := c.number (offset + linksOffset) 16

/-- Stores the mutex at an offset, all but its kind. -/
def setMutex (c : Content) (offset : Nat) (m : Mutex) : Content :=
  let c := c.setHolderWord (offset + wordOffset) m.word
  let c := c.setNumber (offset + depthOffset) 4 m.depth.toNat
  let c := c.setHolderWord (offset + ownerOffset) m.owner
  let c := c.setNumber (offset + usersOffset) 4 m.users.toNat
  let c := c.setNumber (offset + spinsOffset) 2 m.spins.toUInt16.toNat
  c.setNumber (offset + linksOffset) 16 m.links

/-- The queue of the lock at an offset. -/
def queueAt (c : Content) (offset : Nat) : Queue where
  comers := UInt64.ofNat (c.number (offset + comersOffset) 8)
  even := UInt32.ofNat (c.number (offset + groupsOffset) 4)
  odd := UInt32.ofNat (c.number (offset + groupsOffset + 4) 4)

/-- Stores the queue of the lock at an offset. -/
def setQueue (c : Content) (offset : Nat) (q : Queue) : Content :=
  let c := c.setNumber (offset + comersOffset) 8 q.comers.toNat
  let c := c.setNumber (offset + groupsOffset) 4 q.even.toNat
  c.setNumber (offset + groupsOffset + 4) 4 q.odd.toNat

/-- The lock at an offset. -/
def lockAt (c : Content) (offset : Nat) : RwLock where
  mutex := c.mutexAt offset
  queue := c.queueAt offset
  readers := UInt32.ofNat (c.number (offset + readersOffset) 4)

/-- Stores the lock at an offset, all but the kind of its mutex. -/
def setLock (c : Content) (offset : Nat) (l : RwLock) : Content :=
  ((c.setMutex offset l.mutex).setQueue offset l.queue).setNumber
    (offset + readersOffset) 4 l.readers.toNat

/-- Makes a new lock at an offset, whatever was there. -/
def initLock (c : Content) (offset : Nat) : Content :=
  let c := c.write offset (List.replicate (readersOffset + 4) 0)
  let c := c.setNumber (offset + kindOffset) 4 sharedRobust
  c.setNumber (offset + sharedOffset) 4 1

end Content

end Subscription
