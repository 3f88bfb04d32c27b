import Subscription.Proofs.Community
import Subscription.Proofs.GroupViews
import Subscription.Proofs.Listening

/-!
# Communities that are listened to

A community of contexts, watched by someone who remembers what was published in every
segment of subscribers to changes, and what each of these subscribers was told
(`Broadcast`).  The watcher does not interfere: the community goes its own way
(`Broadcast.community_run`), and the watcher notes

* a new listener, who has not heard of anything, when a subscription was added, and the
  segment that it listens to (`Broadcast.subscribed`);
* that a listener is gone, when its subscription was removed
  (`Broadcast.unsubscribed`);
* what was published or marked as consumed (`Broadcast.used`);
* who was told about the event that its segment shows, when a context has polled
  (`Broadcast.polled`).
-/

namespace Subscription

/-- What the listeners of a group listen to. -/
structure Station where
  module : String
  datastore : Datastore
  file : Option FileId
  deriving DecidableEq, Repr, Inhabited

/-- Whether a station is about a module in a datastore. -/
def Station.isAbout (module : String) (datastore : Datastore) (s : Station) : Bool :=
  s.datastore = datastore && s.module = module

/-- The station of a group of subscribers. -/
def ChangeChannel.station (c : ChangeChannel) : Station :=
  ⟨c.module, c.datastore, c.segment.file⟩

/-- The listeners of a context, by their stations. -/
abbrev Audience := Groups Station Listener

namespace Audience

/-- One more listener. -/
def join (a : Audience) (station : Station) (l : Listener) : Audience :=
  match a.position? (Station.isAbout station.module station.datastore) with
  | some place => a.insert place l
  | none => a.insertNew station l

/-- One listener less. -/
def leave (a : Audience) (module : String) (datastore : Datastore) (sub : ChangeSub) : Audience :=
  match a.locate? (Station.isAbout module datastore)
      fun l => Store.sameChange l.sub sub with
  | some (place, entry) => a.erase place entry
  | none => a

end Audience

/-- A community, with the past of the segments, and with the listeners of each member. -/
structure Broadcast where
  community : Community
  chronicles : FileId → Option Chronicle
  audiences : List Audience

namespace Broadcast

/-- Nothing has been published and nobody listens. -/
def start (c : Community) : Broadcast := ⟨c, fun _ => none, []⟩

/-- The past of what a station has to show. -/
def chronicle (b : Broadcast) (s : Station) : Chronicle :=
  (s.file.bind b.chronicles).getD .blank

/-- A group of listeners that has been shown its segment. -/
def shown (b : Broadcast) (g : Group Station Listener) : Group Station Listener :=
  { g with subs := g.subs.map fun l => l.told (b.chronicle g.shared) }

/-- What is reported when a group of listeners is shown its segment. -/
def report (b : Broadcast) (g : Group Station Listener) : List ChangeNews :=
  match (g.subs.toList.filter fun l => l.isTold (b.chronicle g.shared)).map fun l => l.sub.xpath with
  | [] => []
  | xpaths => [⟨g.shared.module, g.shared.datastore, (b.chronicle g.shared).cell, xpaths⟩]

/-- A member has added a subscription: it listens on the segment that is there now. -/
def subscribed (b : Broadcast) (member : Nat) (module : String) (datastore : Datastore)
    (sub : ChangeSub) (c : Community) : Broadcast :=
  let file := c.host.disk.fileAt (c.config.segmentPath ⟨module, datastore.suffix, none⟩)
  { community := c
    chronicles :=
      match file with
      | some f => Function.update b.chronicles f (some ((b.chronicles f).getD .blank))
      | none => b.chronicles
    audiences := b.audiences.modify member fun a => a.join ⟨module, datastore, file⟩ ⟨sub, []⟩ }

/-- A member has removed a subscription. -/
def unsubscribed (b : Broadcast) (member : Nat) (module : String) (datastore : Datastore)
    (sub : ChangeSub) (c : Community) : Broadcast :=
  { b with
    community := c
    audiences := b.audiences.modify member fun a => a.leave module datastore sub }

/-- A member has polled. -/
def polled (b : Broadcast) (member : Nat) (c : Community) : Broadcast :=
  { b with
    community := c
    audiences := b.audiences.modify member fun a => SwapSet.map a b.shown }

/-- A segment has been used. -/
def used (b : Broadcast) (handle : Segment) (what : Use) (c : Community) : Broadcast :=
  { b with
    community := c
    chronicles :=
      match handle.file with
      | some f => Function.update b.chronicles f ((b.chronicles f).map fun t => t.after what)
      | none => b.chronicles }

/-- What the watcher notes when an operation succeeds; what fails leaves nothing to
note. -/
def noted {α : Type} (b : Broadcast) (result : Except Failure α × Community)
    (note : Community → Broadcast) : Broadcast :=
  match result with
  | (.ok _, c) => note c
  | (.error _, c) => { b with community := c }

/-- The community and what the watcher knows after an operation. -/
def step (b : Broadcast) : Operation → Broadcast
  | .join pipe =>
      { b with
        community := b.community.step (.join pipe)
        audiences := b.audiences ++ [.empty] }
  | .carryOut member (.addChange module datastore xpath priority options callback data) refusal =>
      b.noted
        (b.community.carryOut member
          (.addChange module datastore xpath priority options callback data) refusal)
        (b.subscribed member module datastore { xpath, priority, options, callback, data })
  | .carryOut member (.removeChange module datastore xpath priority options callback data)
      refusal =>
      b.noted
        (b.community.carryOut member
          (.removeChange module datastore xpath priority options callback data) refusal)
        (b.unsubscribed member module datastore { xpath, priority, options, callback, data })
  | .poll member timeout => b.noted (b.community.poll member timeout) (b.polled member)
  | .use handle kind what readTimeout timeout =>
      b.noted (b.community.use handle kind what readTimeout timeout) (b.used handle what)
  | other => { b with community := b.community.step other }

/-- The same for operations, one after the other. -/
def run (b : Broadcast) (operations : List Operation) : Broadcast := operations.foldl step b

/-- The operations that have to do with changes: contexts join, add and remove
subscriptions to changes, and poll; and the segments that were made for this are used,
through any handle. -/
def Allows (b : Broadcast) : Operation → Prop
  | .join _ => True
  | .carryOut _ (.addChange ..) _ => True
  | .carryOut _ (.removeChange ..) _ => True
  | .poll _ _ => True
  | .use handle kind _ _ _ =>
      kind = .multi ∧ ∃ file t, handle.file = some file ∧ b.chronicles file = some t
  | _ => False

/-- All operations of a run have to do with changes. -/
def AllowsAll : Broadcast → List Operation → Prop
  | _, [] => True
  | b, operation :: rest => b.Allows operation ∧ (b.step operation).AllowsAll rest

variable {b : Broadcast}

theorem community_noted {α : Type} {result : Except Failure α × Community}
    {note : Community → Broadcast} (hnote : ∀ c, (note c).community = c) :
    (b.noted result note).community = result.2 := by
  obtain ⟨result, c⟩ := result
  cases result with
  | ok a => exact hnote c
  | error f => rfl

/-- Watching changes nothing. -/
theorem community_step (b : Broadcast) (operation : Operation) :
    (b.step operation).community = b.community.step operation := by
  cases operation with
  | join pipe => rfl
  | carryOut member order refusal =>
      cases order with
      | addChange => exact community_noted fun _ => rfl
      | removeChange => exact community_noted fun _ => rfl
      | addData => rfl
      | removeData => rfl
      | addRpc => rfl
      | removeRpc => rfl
      | addNotification => rfl
      | removeNotification => rfl
  | removeAll member => rfl
  | leave member => rfl
  | poll member timeout => exact community_noted fun _ => rfl
  | use handle kind what readTimeout timeout => exact community_noted fun _ => rfl

/-- **The community goes its own way.** -/
theorem community_run (b : Broadcast) (operations : List Operation) :
    (b.run operations).community = b.community.run operations := by
  induction operations generalizing b with
  | nil => rfl
  | cons operation rest ih =>
      have hrest := ih (b.step operation)
      rw [community_step] at hrest
      exact hrest

end Broadcast

end Subscription
