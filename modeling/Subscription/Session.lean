import Subscription.Data.Node
import Subscription.Event
import Subscription.Name.Basic

/-!
# Sessions

A callback runs in a session made for one event.  The session knows the
datastore, the event and who caused it, may take an error for the
originator, and keeps an edit and a diff for each of the two datastores
that have one.
-/

namespace Subscription

/-- Who caused an event: the datastore session and, where the change came
over the network, that session, with the user. -/
structure SessionId where
  sr : UInt32 := 0
  nc : UInt32 := 0
  user : Option String := none
  deriving DecidableEq, Repr, Inhabited

/-- What a session keeps for one datastore. -/
structure Edit where
  edit : Option Node := none
  diff : Option Node := none
  deriving Repr, Inhabited

/-- The session of one event. -/
structure Session where
  datastore : Datastore
  event : Event
  sid : SessionId
  error : Option Error := none
  running : Edit := {}
  startup : Edit := {}
  deriving Repr, Inhabited

namespace Session

/-- The edit kept for a datastore; there is none for operational data. -/
def edit? (s : Session) : Datastore → Option Edit
  | .running => some s.running
  | .startup => some s.startup
  | .operational => none

/-- Changes the edit kept for a datastore; nothing when it keeps none. -/
def changeEdit? (s : Session) (ds : Datastore) (change : Edit → Edit) : Option Session :=
  match ds with
  | .running => some { s with running := change s.running }
  | .startup => some { s with startup := change s.startup }
  | .operational => none

/-- Takes an error for the originator of the event. -/
def setError (s : Session) (e : Error) : Session :=
  { s with error := some e }

/-- Forgets the error, the edits and the diffs. -/
def clear (s : Session) : Session :=
  { s with error := none, running := {}, startup := {} }

/-- Clearing a second time changes nothing. -/
theorem clear_clear (s : Session) : s.clear.clear = s.clear := rfl

end Session

end Subscription
