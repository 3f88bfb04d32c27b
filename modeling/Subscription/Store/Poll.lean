import Subscription.Segment.Read
import Subscription.Store.Basic

/-!
# Polling for changes

The change groups are read one after the other.  An event is for the
subscribers of its priority that have not taken it yet
(`ChangeSub.isDue`); they take it, which is noted with each of them
(`ChangeSub.take`), and the event is reported with their xpaths.

A group that cannot be read ends the poll with its error.  The groups
before it keep what was noted with them, and those behind it are not read.
-/

namespace Subscription

/-- An event that subscribers have not taken before, with the xpaths of those
who take it. -/
structure ChangeNews where
  module : String
  datastore : Datastore
  snapshot : Snapshot
  xpaths : List (Option String)
  deriving DecidableEq, Repr, Inhabited

namespace ChangeSub

/-- Whether the event in a segment is for the subscriber and was not taken
yet. -/
def isDue (sub : ChangeSub) (snapshot : Snapshot) : Bool :=
  sub.priority = snapshot.priority.getD 0 && snapshot.isNew sub.lastRequest sub.lastEvent

/-- The subscriber after it was shown the event in a segment. -/
def take (sub : ChangeSub) (snapshot : Snapshot) : ChangeSub :=
  if sub.isDue snapshot then
    { sub with lastRequest := snapshot.requestId, lastEvent := snapshot.event }
  else sub

end ChangeSub

namespace Store

/-- The group after its subscribers were shown the event in its segment. -/
def showEvent (g : Group ChangeChannel ChangeSub) (snapshot : Snapshot) :
    Group ChangeChannel ChangeSub :=
  { g with subs := g.subs.map fun sub => sub.take snapshot }

/-- What a group has to report about the event in its segment. -/
def newsOf (g : Group ChangeChannel ChangeSub) (snapshot : Snapshot) : List ChangeNews :=
  match (g.subs.toList.filter fun sub => sub.isDue snapshot).map ChangeSub.xpath with
  | [] => []
  | xpaths => [⟨g.shared.module, g.shared.datastore, snapshot, xpaths⟩]

/-- The group with another handle on its segment. -/
def withSegment (g : Group ChangeChannel ChangeSub) (segment : Segment) :
    Group ChangeChannel ChangeSub :=
  { g with shared := { g.shared with segment } }

/-- Reads the groups one after the other; gives the news, the groups and the
host afterwards. -/
def pollGroups (readTimeout timeout : Span) : List (Group ChangeChannel ChangeSub) → Host →
    Except Failure (List ChangeNews) × List (Group ChangeChannel ChangeSub) × Host
  | [], host => (.ok [], [], host)
  | g :: rest, host =>
      match Segment.readEvent .multi readTimeout timeout ⟨g.shared.segment, host⟩ with
      | .error e a => (.error e, withSegment g a.segment :: rest, a.host)
      | .ok snapshot a =>
          let shown := showEvent (withSegment g a.segment) snapshot
          match pollGroups readTimeout timeout rest a.host with
          | (.ok news, groups, host) => (.ok (newsOf g snapshot ++ news), shown :: groups, host)
          | (.error e, groups, host) => (.error e, shown :: groups, host)

/-- Polls all change groups of a context. -/
def poll (s : Store) (cfg : Config) (timeout : Span) (host : Host) :
    Except Failure (List ChangeNews) × Store × Host :=
  match pollGroups cfg.readSpan timeout s.changes.toList host with
  | (result, groups, host) => (result, { s with changes := ⟨groups⟩ }, host)

end Store

end Subscription
