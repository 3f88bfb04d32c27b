import Subscription.Proofs.EventJournal
import Subscription.Proofs.RegistryTable
import Subscription.Proofs.SegmentDirectory
import Subscription.Store.Handler
import Subscription.Store.Order
import Subscription.Store.Poll

/-!
# Contexts that share a registry

Any number of contexts work on one host and share one registry; each of them has an
event pipe of its own and keeps its own subscriptions (`Community`).  They join and
leave, carry out orders, remove all they have and poll, while others use the segments
through handles of their own (`Operation`).  The registry answers by its table, but
it may refuse what an order asks of it, and is then as it was (`Handler.refusing`).

An operation that a member is told to do runs its plan to the end before anybody else
comes to act (`Community.step`).
-/

namespace Subscription

/-- A host and a registry, as plans reach them. -/
abbrev Shared := Host × Registry

/-- A context: the number of its event pipe, and its subscriptions. -/
structure Member where
  pipe : UInt32
  store : Store
  deriving Inhabited

/-- Contexts that share a host and a registry. -/
structure Community where
  config : Config
  host : Host
  registry : Registry
  members : List Member
  deriving Inhabited

/-- What goes on in a community. -/
inductive Operation where
  /-- A context is made. -/
  | join (pipe : UInt32)
  /-- A member carries out an order; the registry may refuse what it is asked for. -/
  | carryOut (member : Nat) (order : Order) (refusal : Option Error)
  | removeAll (member : Nat)
  /-- A context is given up. -/
  | leave (member : Nat)
  | poll (member : Nat) (timeout : Span)
  /-- Someone uses a segment through a handle, whatever file that is on. -/
  | use (handle : Segment) (kind : HeaderKind) (what : Use) (readTimeout timeout : Span)
  deriving Inhabited

/-- A registry that may refuse to publish and to retract, and is then as it was. -/
def Handler.refusing (refusal : Option Error) : Handler (StateM Shared) :=
  match refusal with
  | none => shared
  | some e =>
      { shared with
        publish := fun _ => pure (.error e)
        retract := fun _ => pure (.error e) }

namespace Community

/-- A member does some work; the others wait. -/
def perform (c : Community) (member : Nat) (refusal : Option Error) (work : Order.Work) :
    Except Failure Unit × Community :=
  match c.members[member]? with
  | none => (.ok (), c)
  | some m =>
      let ((result, store), host, registry) :=
        (work ⟨c.config, m.pipe⟩ m.store).run ((Handler.refusing refusal).answer c.config)
          (c.host, c.registry)
      (result, { c with host, registry, members := c.members.set member { m with store } })

/-- A member carries out an order, unless its arguments forbid it. -/
def carryOut (c : Community) (member : Nat) (order : Order) (refusal : Option Error) :
    Except Failure Unit × Community :=
  match order.plan with
  | .error f => (.error f, c)
  | .ok work => c.perform member refusal work

/-- A member removes all its subscriptions. -/
def removeAll (c : Community) (member : Nat) : Except Failure Unit × Community :=
  c.perform member none fun site s => s.removeAll site

/-- A member is given up, with its subscriptions; that they could not all be removed
only goes to the log. -/
def leave (c : Community) (member : Nat) : Community :=
  match c.members[member]? with
  | none => c
  | some m =>
      if m.store.isEmpty then { c with members := c.members.eraseIdx member }
      else
        let (result, c) := c.removeAll member
        let host :=
          match result with
          | .error (.error e) => c.host.note .error (Store.abandonLine m.pipe e)
          | _ => c.host
        { c with host, members := c.members.eraseIdx member }

/-- A member polls. -/
def poll (c : Community) (member : Nat) (timeout : Span) :
    Except Failure (List ChangeNews) × Community :=
  match c.members[member]? with
  | none => (.ok [], c)
  | some m =>
      let (result, store, host) := m.store.poll c.config timeout c.host
      (result, { c with host, members := c.members.set member { m with store } })

/-- Someone uses a segment. -/
def use (c : Community) (handle : Segment) (kind : HeaderKind) (what : Use)
    (readTimeout timeout : Span) : Except Failure Response × Community :=
  match Visit.act kind ⟨0, what, readTimeout, timeout⟩ ⟨handle, c.host⟩ with
  | .ok response a => (.ok response, { c with host := a.host })
  | .error f a => (.error f, { c with host := a.host })

/-- The community after an operation. -/
def step (c : Community) : Operation → Community
  | .join pipe => { c with members := c.members ++ [⟨pipe, .empty⟩] }
  | .carryOut member order refusal => (c.carryOut member order refusal).2
  | .removeAll member => (c.removeAll member).2
  | .leave member => c.leave member
  | .poll member timeout => (c.poll member timeout).2
  | .use handle kind what readTimeout timeout => (c.use handle kind what readTimeout timeout).2

/-- The community after operations, one after the other. -/
def run (c : Community) (operations : List Operation) : Community := operations.foldl step c

/-- Nobody has joined and nothing has been published, and the path of the segment
directory leads to a directory that is empty. -/
structure IsNew (c : Community) : Prop where
  members : c.members = []
  registry : c.registry = .empty
  directory : ∃ location, c.host.disk.enter [] (Path.steps c.config.segmentDir) = .ok location ∧
    ∀ name, c.host.disk.entryAt (location ++ [name]) = none

end Community

end Subscription
