import Subscription.Config.Basic
import Subscription.Segment.Open
import Subscription.Store.Plan

/-!
# Answering plans

Requests about segments and the log are answered by the host, those about
descriptors by a registry, which may be any one, and subscriptions are settled
where a context keeps them.  A handler says how to reach all three;
`Handler.answer` answers the requests of a plan through it.
-/

namespace Subscription

/-- How to reach a host, a registry and the subscriptions of a context. -/
structure Handler (m : Type → Type) where
  host : {α : Type} → HostM Empty α → m α
  publish : Descriptor → m (Except Error Unit)
  retract : Descriptor → m (Except Error Bool)
  settle : Store → m Unit

namespace Handler

variable {m : Type → Type}

/-- Answers a request. -/
def answer (handler : Handler m) (cfg : Config) : (r : Request) → m r.Answer
  | .openSegment key kind =>
      handler.host (attempt (Segment.openSubscription (cfg.segmentPath key) kind cfg.mode.toNat))
  | .removeSegment key => handler.host (Segment.removeQuietly (cfg.segmentPath key))
  | .publish d => handler.publish d
  | .retract d => handler.retract d
  | .note line => handler.host (Host.say line.level line.text)
  | .settle s => handler.settle s

/-- The host and a registry that answers by its table.  No promise is broken
there, so that nothing has to be settled before the end. -/
def shared : Handler (StateM (Host × Registry)) where
  host act := fun s =>
    match act s.1 with
    | .ok a host => (a, (host, s.2))
  publish d := fun s => (.ok (), (s.1, s.2.publish d))
  retract d := fun s =>
    match s.2.retract d with
    | .ok (last, registry) => (.ok last, (s.1, registry))
    | .error e => (.error e, s)
  settle _ := pure ()

end Handler

end Subscription
