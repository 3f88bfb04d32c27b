import Subscription.Error.Errno
import Subscription.Party

/-!
# Mutexes

A mutex is held by one party at a time.  It consists of a few words that all
parties can see, and nothing else: the word for its holder, which everybody
looks at who wants to have it, a record of its owner, and how often the owner
has taken it.  The words may lie in a file and say anything at all.

There are several kinds of mutexes.  A plain mutex does not know its holder
and stays taken for ever when the holder dies.  A robust one names its holder,
and when that party dies the next one who takes the mutex is told so.  There
are kinds that let their owner take them several times, and kinds that refuse
it; with all others, an owner who asks again waits in vain.
-/

namespace Subscription

/-- Whom a word of a mutex names. -/
inductive Bearer where
  | party (p : Party)
  /-- A number that no party has; zero stands for nobody. -/
  | number (n : Nat)
  deriving DecidableEq, Repr, Inhabited

/-- A word of a mutex that says who has it. -/
structure HolderWord where
  bearer : Bearer
  /-- Whether the one who is named died. -/
  dead : Bool
  /-- Whether somebody may be waiting. -/
  awaited : Bool
  deriving DecidableEq, Repr, Inhabited

namespace HolderWord

/-- Nobody has the mutex. -/
def free : HolderWord := ⟨.number 0, false, false⟩

/-- A party has it. -/
def heldBy (p : Party) : HolderWord := ⟨.party p, false, false⟩

/-- Somebody has a plain mutex. -/
def taken : HolderWord := ⟨.number 1, false, false⟩

/-- Somebody has a plain mutex, and others have waited for it. -/
def contested : HolderWord := ⟨.number 2, false, false⟩

/-- The owner died, and what the mutex guards has not been put in order. -/
def inconsistent : HolderWord := ⟨.number 0x3FFFFFFF, true, false⟩

/-- What the mutex guards never has been put in order, and never will be. -/
def unrecoverable : HolderWord := ⟨.number 0x3FFFFFFE, true, false⟩

end HolderWord

/-- How a mutex deals with an owner who asks for it again. -/
inductive Manner where
  /-- The owner waits, in vain. -/
  | patient
  /-- It is granted, and the owner has to give it back once more. -/
  | counting
  /-- It is refused. -/
  | checking
  /-- The owner waits, in vain; whoever waits looks for a while first. -/
  | spinning
  deriving DecidableEq, Repr, Inhabited

/-- How a mutex deals with its holder. -/
inductive Family where
  /-- It does not know its holder. -/
  | plain
  /-- It notices that its holder died. -/
  | robust
  /-- It lends its holder the priority of those who wait. -/
  | inheriting
  /-- It does both. -/
  | robustInheriting
  /-- It cannot be taken, and to give it back is an error. -/
  | unusable (release : Errno)
  deriving DecidableEq, Repr, Inhabited

/-- A kind of mutex. -/
structure MutexKind where
  family : Family
  manner : Manner
  /-- Whether it may be left out; only some kinds go with that. -/
  elided : Bool
  deriving DecidableEq, Repr, Inhabited

namespace MutexKind

/-- The kind of mutex that is made for use inside a process. -/
def plain : MutexKind := ⟨.plain, .patient, false⟩

/-- Whether a mutex of this kind notices that its holder died. -/
def isRobust (kind : MutexKind) : Bool :=
  kind.family = .robust ∨ kind.family = .robustInheriting

/-- Whether a mutex of this kind lends priority. -/
def isInheriting (kind : MutexKind) : Bool :=
  kind.family = .inheriting ∨ kind.family = .robustInheriting

/-- Whether a mutex of this kind can be taken. -/
def isUsable (kind : MutexKind) : Bool :=
  match kind.family with
  | .unusable _ => false
  | .plain => !kind.elided || kind.manner = .patient || kind.manner = .counting
  | _ => !kind.elided

/-- Whether an owner who asks for a mutex of this kind again is told something
at once. -/
def answers (kind : MutexKind) : Bool :=
  kind.manner = .counting ∨ kind.manner = .checking

end MutexKind

/-- A mutex. -/
structure Mutex where
  kind : MutexKind
  /-- Who has it. -/
  word : HolderWord
  /-- How often the owner has taken it. -/
  depth : UInt32
  /-- Who has taken it. -/
  owner : HolderWord
  /-- How many have it. -/
  users : UInt32
  /-- How long to look before waiting. -/
  spins : Int16
  /-- The place of a robust mutex among those of its holder, which is kept
  for nobody to see. -/
  links : Nat
  deriving DecidableEq, Repr, Inhabited

namespace Mutex

/-- A mutex that nobody holds. -/
def fresh (kind : MutexKind) : Mutex := ⟨kind, .free, 0, .free, 0, 0, 0⟩

end Mutex

end Subscription
