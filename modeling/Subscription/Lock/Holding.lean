import Subscription.Lock.Mutex

/-!
# Taking mutexes and giving them back

The steps are done at once and without waiting, and each of them is defined
for whatever the words of the mutex say:

* `Mutex.acquire` — takes the mutex, or tells why not;
* `Mutex.release` — gives it back, or tells why not;
* `Mutex.abandon` — what is left of it when its holder dies.

What a party is told when it has found the mutex busy, and what it does then,
is not decided here.  But it leaves a mark in the mutex.
-/

namespace Subscription

/-- What comes of an attempt to take a mutex. -/
inductive Grant where
  | granted
  /-- Granted, and the one who held it before died. -/
  | recovered
  | busy
  | refused (e : Errno)
  deriving DecidableEq, Repr, Inhabited

namespace Mutex

/-- Whether a party has the mutex, as far as its word says. -/
def isHeldBy (m : Mutex) (p : Party) : Bool := m.word.bearer = .party p

/-- Whether a party is on record as the owner. -/
def isOwnedBy (m : Mutex) (p : Party) : Bool := m.owner = .heldBy p

/-- The mutex with its new owner on record. -/
def record (m : Mutex) (p : Party) : Mutex :=
  { m with owner := .heldBy p, users := m.users + 1 }

/-- What comes of it when the owner asks again. -/
def askAgain (m : Mutex) : Grant × Mutex :=
  match m.kind.manner with
  | .patient | .spinning => (.busy, m)
  | .counting =>
      if m.depth + 1 = 0 then (.refused .tryAgain, m)
      else (.granted, { m with depth := m.depth + 1 })
  | .checking => (.refused .deadlock, m)

/-- How often one who finds a mutex taken looks before waiting. -/
def looks (m : Mutex) : Int :=
  max 0 (min 100 (2 * m.spins.toInt + 10)) + 1

/-- A mutex that could be left out is taken in earnest, once less until the
next try to leave it out. -/
def countDown (m : Mutex) : Mutex :=
  if 0 < m.spins then { m with spins := m.spins - 1 } else m

/-- Takes a plain mutex that its owner does not ask for again. -/
def acquirePlain (m : Mutex) (p : Party) : Grant × Mutex :=
  if m.word = .free then
    let m := { m with word := .taken }
    match m.kind.manner with
    | .counting => (.granted, { m.record p with depth := 1 })
    | .patient => (.granted, if m.kind.elided then m.countDown else m.record p)
    | _ => (.granted, m.record p)
  else
    let m := { m with word := .contested }
    match m.kind.manner with
    | .spinning =>
        let spins := m.spins.toInt
        (.busy, { m with spins := Int16.ofInt (spins + (m.looks - spins).tdiv 8) })
    | .patient => (.busy, if m.kind.elided then m.countDown else m)
    | _ => (.busy, m)

/-- The mutex in the hands of a party who took it from a dead one and puts
in order what it guards. -/
def recover (m : Mutex) (p : Party) : Mutex :=
  { m with word := { HolderWord.heldBy p with awaited := m.word.awaited },
           depth := 1, owner := .heldBy p, links := 0 }

/-- Takes a mutex that is there to be taken, unless it cannot be used any
more. -/
def acquireFree (m : Mutex) (p : Party) : Grant × Mutex :=
  if m.kind.isRobust ∧ m.owner = .unrecoverable then
    (.refused .notRecoverable, { m with word := .free, depth := 0 })
  else
    let m := { m with word := .heldBy p, depth := 1 }
    (.granted, (if m.kind.isRobust then { m with links := 0 } else m).record p)

/-- The mutex that has been found busy; whoever waits for it leaves a mark. -/
def await (m : Mutex) (waits : Bool) : Mutex :=
  { m with word := { m.word with awaited := m.word.awaited || waits } }

/-- Takes a robust mutex. -/
def acquireRobust (m : Mutex) (p : Party) (waits : Bool) : Grant × Mutex :=
  if m.word.dead then (.recovered, m.recover p)
  else if m.word = .free then m.acquireFree p
  else if m.isHeldBy p then
    match m.askAgain with
    | (.busy, m) => (.busy, m.await waits)
    | other => other
  else (.busy, m.await waits)

/-- Takes a mutex that lends priority from the system, which keeps those who
wait in order. -/
def acquireOrdered (m : Mutex) (p : Party) : Grant × Mutex :=
  if m.isHeldBy p then (.busy, m)
  else if m.word.bearer = .number 0 then
    if m.word.dead then (.recovered, { m with word := .free }.recover p) else m.acquireFree p
  else (.busy, m.await true)

/-- Takes a mutex that lends priority.  The system refuses one who does not
wait. -/
def acquireInheriting (m : Mutex) (p : Party) (waits : Bool) : Grant × Mutex :=
  if m.isHeldBy p ∧ m.kind.answers then m.askAgain
  else if m.word = .free then m.acquireFree p
  else if waits then m.acquireOrdered p
  else (.refused .invalid, m)

/-- Tries to take the mutex, which the party waits for when it is busy, or
does not wait for. -/
def acquire (m : Mutex) (p : Party) (waits : Bool) : Grant × Mutex :=
  if m.kind.isUsable then
    match m.kind.family with
    | .robust => m.acquireRobust p waits
    | .inheriting | .robustInheriting => m.acquireInheriting p waits
    | _ =>
        if m.isOwnedBy p ∧ m.kind.answers then m.askAgain
        else m.acquirePlain p
  else (.refused .invalid, m)

/-- The mutex once its owner has given it back; where priority is lent, it
stays with whom its word names. -/
def givenBack (m : Mutex) (p : Party) : Mutex :=
  let keeps : Bool := m.kind.isInheriting ∧ ¬ m.isHeldBy p
  { m with
    word := if keeps then m.word else .free
    owner :=
      if m.kind.isRobust ∧ m.isHeldBy p ∧ m.owner = .inconsistent then .unrecoverable else .free
    users := m.users - 1
    links := if m.kind.isRobust then 0 else m.links }

/-- The owner of a mutex gives it back once; as long as that was not the last
time, the outcome is the given one. -/
def giveBackOnce (m : Mutex) (p : Party) (otherwise : Option Errno) : Option Errno × Mutex :=
  let m := { m with depth := m.depth - 1 }
  if m.depth = 0 then (none, m.givenBack p) else (otherwise, m)

/-- Whether a mutex that does not count takes it that the party gives it
back; the plainest one does not care who does. -/
def mayRelease (m : Mutex) (p : Party) : Bool :=
  match m.kind.family, m.kind.manner with
  | .plain, .checking => m.isOwnedBy p && m.word ≠ .free
  | .plain, _ => true
  | _, _ => m.isHeldBy p

/-- Gives the mutex back, or tells why that is not possible. -/
def release (m : Mutex) (p : Party) : Option Errno × Mutex :=
  match m.kind.family, m.kind.manner with
  | .unusable e, _ => (some e, m)
  | _, .counting =>
      if m.kind.isRobust ∧ m.isHeldBy p ∧ m.owner = .inconsistent then
        m.giveBackOnce p (some .notRecoverable)
      else if m.isOwnedBy p then m.giveBackOnce p none
      else (some .notPermitted, m)
  | family, manner =>
      if m.mayRelease p then
        let leftOut : Bool := family = .plain ∧ manner = .patient ∧ m.kind.elided
        (none, if leftOut then { m with word := .free } else m.givenBack p)
      else (some .notPermitted, m)

/-- The mutex after the party died. -/
def abandon (m : Mutex) (p : Party) : Mutex :=
  if m.kind.isRobust ∧ m.isHeldBy p then
    { m with word := ⟨.number 0, true, m.word.awaited⟩ }
  else m

end Mutex

end Subscription
