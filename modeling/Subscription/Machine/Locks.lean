import Subscription.Segment.Open
import Subscription.Machine.Segments

/-!
# Commands about locks

A handle whose lock is taken as a guard is moved to the guard, and comes
back under its name when the guard is given back.  A lock can also be taken
and given back without a guard, wherever it lies.
-/

namespace Subscription

namespace Machine

/-- Uses the handle of a guard. -/
def withGuard {α : Type} (name : String) (act : Guard → SegmentM Failure α) : MachineM α := do
  let g ← find (·.guards) name
  useSegment g.segment
    (fun segment machine => { machine with guards := machine.guards.put name { g with segment } })
    (act g.guard)

/-- Gives a guard back, and the handle with it. -/
def returnGuard (g : Guarded) : MachineM Unit := do
  let result ← attempt (runHost (Segment.runOn g.segment (Segment.dropGuard g.guard)))
  match result with
  | .ok ((), segment) => keepSegment g.name segment
  | .error halt =>
      keepSegment g.name g.segment
      throw halt

/-- Takes a lock as a guard. -/
def takeGuard (name segment : String) (offset : Nat) (request : LockRequest) :
    MachineM Answer := do
  let readTimeout := request.readTimeout.getD (← get).config.readSpan
  let guard ← withSegment segment
    (Segment.takeGuard offset request.timeout readTimeout request.mode request.holder)
  let handle ← find (·.segments) segment
  let before := (← get).guards.lookup name
  modify fun machine =>
    { machine with
      segments := machine.segments.drop segment
      guards := machine.guards.put name ⟨segment, handle, guard⟩ }
  match before with
  | some old => returnGuard old
  | none => pure ()
  return .mode request.mode

/-- Where a lock lies. -/
def placeOf (ref : LockRef) : MachineM LockPlace :=
  match ref with
  | .named lock => find (·.locks) lock
  | .inSegment segment offset =>
      withSegment segment (Segment.lockPlace offset : SegmentM Error _)

/-- The count of readers of a lock. -/
def readersAt (place : LockPlace) : MachineM Answer := do
  return .readers ((← get).host.lockAt place).readers

/-- A party that was not there before opens a file, takes the lock in it and
dies with it.  Nobody is left to close the file, so it stays open. -/
def dieHoldingFile (path : String) (offset : Nat) (request : LockRequest) (readTimeout : Span) :
    HostM Failure Unit := do
  match ← (Segment.openExisting path : HostM Error _) with
  | none => throw (.error (.missing .segmentFile))
  | some s =>
      let die : SegmentM Failure Unit := do
        let place ← (Segment.lockPlace offset : SegmentM Error _)
        Segment.onHost
          (Host.dieHolding place request.timeout readTimeout request.mode request.holder)
      let _ ← Segment.runOn s die

/-- Runs a command about locks. -/
def runLock (c : LockCommand) : MachineM Answer := do
  let spanOf (request : LockRequest) : MachineM Span :=
    return request.readTimeout.getD (← get).config.readSpan
  match c with
  | .takeGuard guard segment offset request => takeGuard guard segment offset request
  | .dropGuard name =>
      match (← get).guards.lookup name with
      | none => return .nothing
      | some g =>
          modify fun machine => { machine with guards := machine.guards.drop name }
          returnGuard g
          return .nothing
  | .readGuarded name offset =>
      return .number (← withGuard name fun _ => (Segment.number offset 4 : SegmentM Error _))
  | .writeGuarded name offset value =>
      withGuard name fun g => do
        (Segment.requireWrite g : SegmentM Error _)
        (Segment.setNumber offset 4 value : SegmentM Error _)
      return .nothing
  | .remapGuarded name length =>
      withGuard name fun g => do
        (Segment.requireWrite g : SegmentM Error _)
        (Segment.remap (some length) : SegmentM Error _)
        return stateOf (← get).segment none
  | .create name =>
      let place ← runHost Host.newLock
      modify fun machine => { machine with locks := machine.locks.put name place }
      return .nothing
  | .destroy name =>
      modify fun machine => { machine with locks := machine.locks.drop name }
      return .nothing
  | .init segment offset =>
      withSegment segment do
        (Segment.require offset lockSize lockAlignment : SegmentM Error _)
        Segment.change fun c => c.initLock offset
      let place ← placeOf (.inSegment segment offset)
      return .number ((← get).host.lockAt place).readers.toNat
  | .lock ref request =>
      let place ← placeOf ref
      let readTimeout ← spanOf request
      runHost (Host.lock place mainParty request.timeout readTimeout request.mode request.holder)
      readersAt place
  | .unlock ref request =>
      let place ← placeOf ref
      let readTimeout ← spanOf request
      runHost (Host.unlock place mainParty readTimeout request.mode request.holder : HostM Abort _)
      readersAt place
  | .readers ref => readersAt (← placeOf ref)
  | .unlockLater name delay request =>
      let place ← find (·.locks) name
      let readTimeout ← spanOf request
      runHost (Host.unlockLater place delay readTimeout request.holder)
      return .nothing
  | .join =>
      runHost Host.joinLeavers
      return .nothing
  | .dieHolding name request =>
      let place ← find (·.locks) name
      let readTimeout ← spanOf request
      runHost (Host.dieHolding place request.timeout readTimeout request.mode request.holder)
      return .nothing
  | .dieHoldingFile path offset request =>
      let readTimeout ← spanOf request
      runHost (dieHoldingFile path offset request readTimeout)
      return .nothing

end Machine

end Subscription
