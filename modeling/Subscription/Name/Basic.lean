import Subscription.Name.Hash
import Subscription.Text.Padding

/-!
# Names of segments and pipes

Every party derives the name of the segment that carries some traffic of a
module, so the form of the names is part of what they agree on:

* `SegmentKey.name` writes `sr_<module>.<suffix>` and, where the traffic is
  told apart by an xpath, a dot and eight hexadecimal digits of its hash;
* `pipeName` writes `sr_evpipe<number>`;
* `HeaderKind.ofName` reads off a segment's name which header it starts
  with.
-/

namespace Subscription

/-- The datastores whose changes can be subscribed to. -/
inductive Datastore where
  | running
  | startup
  | operational
  deriving DecidableEq, Repr, Inhabited

/-- What kind of traffic a segment carries. -/
inductive Suffix where
  | running
  | startup
  | operational
  | state
  | rpc
  | notif
  deriving DecidableEq, Repr, Inhabited

namespace Datastore

/-- Every datastore. -/
def all : List Datastore := [running, startup, operational]

/-- The name of a datastore. -/
def name : Datastore → String
  | running => "running"
  | startup => "startup"
  | operational => "operational"

/-- The suffix of a datastore's change segments. -/
def suffix : Datastore → Suffix
  | running => .running
  | startup => .startup
  | operational => .operational

end Datastore

namespace Suffix

/-- Every suffix. -/
def all : List Suffix := [running, startup, operational, state, rpc, notif]

/-- The suffix as it stands in a segment's name. -/
def name : Suffix → String
  | running => "running"
  | startup => "startup"
  | operational => "operational"
  | state => "state"
  | rpc => "rpc"
  | notif => "notif"

end Suffix

/-- Which header a segment starts with: a configuration segment is shared
by subscribers of several priorities, any other has one kind of
subscriber. -/
inductive HeaderKind where
  | single
  | multi
  deriving DecidableEq, Repr, Inhabited

/-- What tells the segments apart: the module, the traffic, and the hash of
the xpath where there is one. -/
structure SegmentKey where
  module : String
  suffix : Suffix
  hash : Option UInt32
  deriving DecidableEq, Repr, Inhabited

/-- The name of a segment within the segment directory. -/
def SegmentKey.name (key : SegmentKey) : String :=
  let stem := "sr_" ++ key.module ++ "." ++ key.suffix.name
  match key.hash with
  | some hash => stem ++ "." ++ hexDigits 8 hash.toNat
  | none => stem

/-- The name of an event pipe within the repository directory. -/
def pipeName (number : UInt32) : String :=
  "sr_evpipe" ++ toString number.toNat

/-- Whether a character is a hexadecimal digit of either case. -/
def isHexDigit (c : Char) : Bool :=
  c.isDigit || (c ∈ "abcdefABCDEF".toList)

/-- The dot-separated parts of a text, the last one first. -/
def partsFromEnd (text : List Char) : List (List Char) :=
  (text.splitOn '.').reverse

namespace HeaderKind

/-- The header of segments with the given suffix. -/
def ofSuffixName (suffix : List Char) : Option HeaderKind :=
  match String.ofList suffix with
  | "running" | "startup" | "operational" => some multi
  | "state" | "rpc" | "notif" => some single
  | _ => none

/-- The header of the segment with the given name, nothing for the name of
another file.  The suffix is the last part, or the one before it when the
last part is eight hexadecimal digits. -/
def ofName (name : String) : Option HeaderKind :=
  match name.toList with
  | 's' :: 'r' :: '_' :: rest =>
      match partsFromEnd rest with
      | last :: before =>
          if last.length = 8 ∧ last.all isHexDigit then before.head?.bind ofSuffixName
          else ofSuffixName last
      | [] => none
  | _ => none

end HeaderKind

end Subscription
