import Subscription.Machine.Run
import Subscription.Proofs.Action

/-!
# Commands about other things

Segments, locks, pipes and files have nothing to do with subscriptions.  Whatever a
command about them does to the host and to what the machine holds of it, contexts,
registries, callbacks, private data and the calls that were made stay what they are
(`Machine.runSegment_aside`, `Machine.runFile_aside`, `Machine.runLock_aside`).
-/

namespace Subscription

namespace Machine

/-- Nothing is done to contexts, registries, callbacks, calls and private data. -/
def aside : Frame Machine where
  keeps machine machine' := machine'.contexts = machine.contexts ∧
    machine'.registries = machine.registries ∧ machine'.callbacks = machine.callbacks ∧
    machine'.calls = machine.calls ∧ machine'.privateData = machine.privateData
  refl _ := ⟨rfl, rfl, rfl, rfl, rfl⟩
  trans hfirst hnext :=
    ⟨hnext.1.trans hfirst.1, hnext.2.1.trans hfirst.2.1, hnext.2.2.1.trans hfirst.2.2.1,
      hnext.2.2.2.1.trans hfirst.2.2.2.1, hnext.2.2.2.2.trans hfirst.2.2.2.2⟩

variable {α β : Type}

theorem runHost_aside (act : HostM Failure α) : Within aside (runHost act) := by
  intro machine
  unfold runHost onHost onPart
  simp only
  cases (liftM act : EStateM Halt Host α) machine.host with
  | ok a host => exact ⟨rfl, rfl, rfl, rfl, rfl⟩
  | error e host => exact ⟨rfl, rfl, rfl, rfl, rfl⟩

theorem safely_aside (act : HostM Empty α) : Within aside (safely act) := by
  intro machine
  unfold safely
  cases act machine.host with
  | ok a host => exact ⟨rfl, rfl, rfl, rfl, rfl⟩
  | error e host => exact e.elim

theorem find_of_some {part : Machine → Names β} {name : String} {value : β} {machine : Machine}
    (hvalue : (part machine).lookup name = some value) :
    find part name machine = .ok value machine := by
  refine (get_bind_eq (f := fun machine => _)).trans ?_
  rw [hvalue]
  rfl

theorem find_of_none {part : Machine → Names β} {name : String} {machine : Machine}
    (hvalue : (part machine).lookup name = none) :
    find part name machine = .error (.unknown name) machine := by
  refine (get_bind_eq (f := fun machine => _)).trans ?_
  rw [hvalue]
  rfl

theorem find_aside (part : Machine → Names β) (name : String) : Within aside (find part name) := by
  refine Within.bind Within.get fun machine => ?_
  cases (part machine).lookup name with
  | none => exact .throw _
  | some value => exact .pure value

theorem useSegment_aside (s : Segment) {keep : Segment → Machine → Machine}
    (act : SegmentM Failure α) (hkeep : ∀ s machine, aside.keeps machine (keep s machine)) :
    Within aside (useSegment s keep act) := by
  intro machine
  unfold useSegment
  cases act ⟨s, machine.host⟩ with
  | ok a t => exact hkeep t.segment { machine with host := t.host }
  | error e t => exact hkeep t.segment { machine with host := t.host }

theorem withSegment_aside (name : String) (act : SegmentM Failure α) :
    Within aside (withSegment name act) :=
  (find_aside _ _).bind fun s => useSegment_aside s act fun _ _ => ⟨rfl, rfl, rfl, rfl, rfl⟩

theorem keepSegment_aside (name : String) (s : Segment) : Within aside (keepSegment name s) := by
  refine Within.bind Within.get fun machine =>
    .bind (.modify fun _ => ⟨rfl, rfl, rfl, rfl, rfl⟩) fun _ => ?_
  cases machine.segments.lookup name with
  | none => exact .pure ()
  | some old => exact runHost_aside _

theorem keepOpened_aside (name : String) (opened : HostM Failure (Segment × Bool)) :
    Within aside (keepOpened name opened) :=
  (runHost_aside opened).bind fun _ => (keepSegment_aside name _).bind fun _ => .pure _

theorem runSegment_aside (c : SegmentCommand) : Within aside (runSegment c) := by
  refine Within.bind Within.get fun machine => ?_
  cases c with
  | create name => exact (keepSegment_aside name _).bind fun _ => .pure _
  | openOrCreate name path minimum mode => exact keepOpened_aside name _
  | openSubscription name path kind mode => exact keepOpened_aside name _
  | openExisting name path =>
      refine (runHost_aside _).bind fun opened => ?_
      cases opened with
      | none => exact .pure _
      | some s => exact (keepSegment_aside name s).bind fun _ => .pure _
  | drop name =>
      refine Within.bind Within.get fun machine => ?_
      cases machine.segments.lookup name with
      | none => exact .pure _
      | some s =>
          exact .bind (.modify fun _ => ⟨rfl, rfl, rfl, rfl, rfl⟩) fun _ =>
            (runHost_aside _).bind fun _ => .pure _
  | remove path => exact (runHost_aside _).bind fun _ => .pure _
  | state name => exact withSegment_aside name _
  | clear name => exact withSegment_aside name _
  | remap name length => exact withSegment_aside name _
  | readBytes name offset count => exact (withSegment_aside name _).bind fun _ => .pure _
  | writeBytes name offset bytes => exact (withSegment_aside name _).bind fun _ => .pure _
  | readNumber name offset count => exact (withSegment_aside name _).bind fun _ => .pure _
  | writeNumber name offset count value => exact (withSegment_aside name _).bind fun _ => .pure _
  | writeEvent name kind record payload timeout => exact withSegment_aside name _
  | clearEvent name timeout => exact (withSegment_aside name _).bind fun _ => .pure _
  | readEvent name kind timeout last => exact (withSegment_aside name _).bind fun _ => .pure _

theorem changeDisk_aside (change : Disk → Except Errno Disk) :
    Within aside (changeDisk change) := by
  refine Within.get_bind fun machine => ?_
  cases change machine.host.disk with
  | ok disk => exact ⟨rfl, rfl, rfl, rfl, rfl⟩
  | error e => exact ⟨rfl, rfl, rfl, rfl, rfl⟩

theorem keepPipe_aside (name : String) (p : Pipe) : Within aside (keepPipe name p) := by
  refine Within.bind Within.get fun machine =>
    .bind (.modify fun _ => ⟨rfl, rfl, rfl, rfl, rfl⟩) fun _ => ?_
  cases machine.pipes.lookup name with
  | none => exact .pure ()
  | some old => exact runHost_aside _

theorem takePipe_aside (name : String) (act : Pipe → HostM Error Unit) :
    Within aside (takePipe name act) := by
  refine Within.bind Within.get fun machine => ?_
  cases machine.pipes.lookup name with
  | none => exact .pure _
  | some p =>
      exact .bind (.modify fun _ => ⟨rfl, rfl, rfl, rfl, rfl⟩) fun _ =>
        (runHost_aside _).bind fun _ => .pure _

theorem runFile_aside (c : FileCommand) : Within aside (runFile c) := by
  refine Within.bind Within.get fun machine => ?_
  cases c with
  | createPipe name number =>
      exact (runHost_aside _).bind fun p => (keepPipe_aside name p).bind fun _ => .pure _
  | waitPipe name timeout =>
      exact (find_aside _ _).bind fun _ => (runHost_aside _).bind fun _ => .pure _
  | dropPipe name => exact takePipe_aside name _
  | removePipe name => exact takePipe_aside name _
  | notify number times => exact (runHost_aside _).bind fun _ => .pure _
  | loadConfig path => exact (runHost_aside _).bind fun _ => .pure _
  | list => exact (runHost_aside _).bind fun _ => .pure _
  | row name kind => exact (runHost_aside _).bind fun _ => .pure _
  | entries directory => exact Within.bind Within.get fun _ => .pure _
  | write path bytes => exact changeDisk_aside _
  | read path => exact Within.bind Within.get fun _ => .pure _
  | makeDirectory path => exact (runHost_aside _).bind fun _ => .pure _
  | remove path => exact changeDisk_aside _
  | truncate path length => exact changeDisk_aside _

theorem withGuard_aside (name : String) (act : Guard → SegmentM Failure α) :
    Within aside (withGuard name act) :=
  (find_aside _ _).bind fun g => useSegment_aside g.segment _ fun _ _ => ⟨rfl, rfl, rfl, rfl, rfl⟩

theorem returnGuard_aside (g : Guarded) : Within aside (returnGuard g) := by
  refine (runHost_aside _).attempt.bind fun result => ?_
  cases result with
  | ok returned => exact keepSegment_aside g.name _
  | error halt => exact (keepSegment_aside g.name _).bind fun _ => .throw _

theorem takeGuard_aside (name segment : String) (offset : Nat) (request : LockRequest) :
    Within aside (takeGuard name segment offset request) := by
  refine Within.bind Within.get fun _ => (withSegment_aside segment _).bind fun guard =>
    (find_aside _ _).bind fun handle => Within.bind Within.get fun machine =>
      .bind (.modify fun _ => ⟨rfl, rfl, rfl, rfl, rfl⟩) fun _ => ?_
  cases machine.guards.lookup name with
  | none => exact .pure _
  | some old => exact (returnGuard_aside old).bind fun _ => .pure _

theorem placeOf_aside (ref : LockRef) : Within aside (placeOf ref) := by
  cases ref with
  | named lock => exact find_aside _ _
  | inSegment segment offset => exact withSegment_aside segment _

theorem readersAt_aside (place : LockPlace) : Within aside (readersAt place) :=
  Within.bind Within.get fun _ => .pure _

theorem runLock_aside (c : LockCommand) : Within aside (runLock c) := by
  unfold runLock
  cases c with
  | takeGuard guard segment offset request => exact takeGuard_aside guard segment offset request
  | dropGuard name =>
      refine Within.bind Within.get fun machine => ?_
      cases machine.guards.lookup name with
      | none => exact .pure _
      | some g =>
          exact .bind (.modify fun _ => ⟨rfl, rfl, rfl, rfl, rfl⟩) fun _ =>
            (returnGuard_aside g).bind fun _ => .pure _
  | readGuarded name offset => exact (withGuard_aside name _).bind fun _ => .pure _
  | writeGuarded name offset value => exact (withGuard_aside name _).bind fun _ => .pure _
  | remapGuarded name length => exact withGuard_aside name _
  | create name =>
      exact (runHost_aside _).bind fun _ => .bind (.modify fun _ => ⟨rfl, rfl, rfl, rfl, rfl⟩) fun _ =>
        .pure _
  | destroy name => exact .bind (.modify fun _ => ⟨rfl, rfl, rfl, rfl, rfl⟩) fun _ => .pure _
  | init segment offset =>
      exact (withSegment_aside segment _).bind fun _ => (placeOf_aside _).bind fun _ =>
        Within.bind Within.get fun _ => .pure _
  | lock ref request =>
      exact (placeOf_aside ref).bind fun _ => Within.bind (Within.bind Within.get fun _ => .pure _)
        fun _ => (runHost_aside _).bind fun _ => readersAt_aside _
  | unlock ref request =>
      exact (placeOf_aside ref).bind fun _ => Within.bind (Within.bind Within.get fun _ => .pure _)
        fun _ => (runHost_aside _).bind fun _ => readersAt_aside _
  | readers ref => exact (placeOf_aside ref).bind fun _ => readersAt_aside _
  | unlockLater name delay request =>
      exact (find_aside _ _).bind fun _ => Within.bind (Within.bind Within.get fun _ => .pure _)
        fun _ => (runHost_aside _).bind fun _ => .pure _
  | join => exact (runHost_aside _).bind fun _ => .pure _
  | dieHolding name request =>
      exact (find_aside _ _).bind fun _ => Within.bind (Within.bind Within.get fun _ => .pure _)
        fun _ => (runHost_aside _).bind fun _ => .pure _
  | dieHoldingFile path offset request =>
      exact Within.bind (Within.bind Within.get fun _ => .pure _) fun _ =>
        (runHost_aside _).bind fun _ => .pure _

theorem contextAt_aside (id : ContextId) : Within aside (contextAt id) :=
  Within.bind Within.get fun _ => .pure _

theorem subscriberOf_aside (s : Subscriber) : Within aside (subscriberOf s) :=
  (find_aside _ _).bind fun _ => Within.bind Within.get fun _ => .pure _

theorem checked_aside (result : Except Error α) : Within aside (checked result) := by
  cases result with
  | ok a => exact .pure a
  | error e => exact .throw _

end Machine

end Subscription
