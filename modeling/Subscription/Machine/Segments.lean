import Subscription.Segment.Open
import Subscription.Segment.Publish
import Subscription.Segment.Read
import Subscription.Machine.Basic

/-!
# Commands about segments

A handle that is opened under a name replaces the one of that name, which is
then given up; when opening fails, the old handle stays.
-/

namespace Subscription

namespace Machine

/-- What a handle is like. -/
def stateOf (s : Segment) (created : Option Bool) : Answer :=
  .segment s.size s.isMapped s.isOpen created

/-- Keeps a handle under a name and gives up the one that was there. -/
def keepSegment (name : String) (s : Segment) : MachineM Unit := do
  let before := (← get).segments.lookup name
  modify fun machine => { machine with segments := machine.segments.put name s }
  match before with
  | some old => runHost (Segment.close old)
  | none => pure ()

/-- Uses a handle and says what it is like afterwards. -/
def stateAfter (name : String) (act : SegmentM Failure Unit) : MachineM Answer :=
  withSegment name do
    act
    return stateOf (← get).segment none

/-- Keeps a handle that was opened. -/
def keepOpened (name : String) (opened : HostM Failure (Segment × Bool)) : MachineM Answer := do
  let (s, created) ← runHost opened
  keepSegment name s
  return stateOf s (some created)

/-- Runs a command about segments. -/
def runSegment (c : SegmentCommand) : MachineM Answer := do
  let readSpan := (← get).config.readSpan
  match c with
  | .create name =>
      keepSegment name .unowned
      return stateOf .unowned none
  | .openOrCreate name path minimum mode =>
      keepOpened name (Segment.openOrCreate path minimum mode : HostM Error _)
  | .openSubscription name path kind mode =>
      keepOpened name (Segment.openSubscription path kind mode : HostM Error _)
  | .openExisting name path =>
      match ← runHost (Segment.openExisting path : HostM Error _) with
      | none => return .nothing
      | some s =>
          keepSegment name s
          return stateOf s none
  | .drop name =>
      match (← get).segments.lookup name with
      | none => return .truth false
      | some s =>
          modify fun machine => { machine with segments := machine.segments.drop name }
          runHost (Segment.close s)
          return .truth true
  | .remove path =>
      runHost (Segment.remove path : HostM Error _)
      return .nothing
  | .state name => stateAfter name (pure ())
  | .clear name => stateAfter name Segment.clear
  | .remap name length => stateAfter name (Segment.remap length : SegmentM Error _)
  | .readBytes name offset count =>
      return .bytes (← withSegment name (Segment.bytes offset count : SegmentM Error _))
  | .writeBytes name offset bytes =>
      withSegment name (Segment.setBytes offset bytes : SegmentM Error _)
      return .nothing
  | .readNumber name offset count =>
      return .number (← withSegment name (Segment.number offset count : SegmentM Error _))
  | .writeNumber name offset count value =>
      withSegment name (Segment.setNumber offset count value : SegmentM Error _)
      return .nothing
  | .writeEvent name kind record payload timeout =>
      withSegment name do
        let id ← Segment.writeEvent kind readSpan record payload timeout
        return .written id (← get).segment.size
  | .clearEvent name timeout =>
      withSegment name (Segment.clearEvent readSpan timeout)
      return .nothing
  | .readEvent name kind timeout last =>
      let s ← withSegment name (Segment.readEvent kind readSpan timeout)
      return .snapshot s (last.map fun l => s.isNew l.1 l.2)

end Machine

end Subscription
