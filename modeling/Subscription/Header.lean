import Subscription.Disk.Content
import Subscription.Name.Basic

/-!
# Segment headers

A segment starts with a header and goes on with the payload of the stored
event.  The header starts with the lock, which takes `lockSize` bytes and
has to lie at a multiple of `lockAlignment`; behind it stand the numbers
that describe the event, four bytes each.  A configuration segment has two
more of them.

Every party reads the same bytes, so sizes and places are part of what
they agree on.
-/

namespace Subscription

/-- The bytes a lock takes. -/
def lockSize : Nat := 96

/-- A lock lies at a multiple of this. -/
def lockAlignment : Nat := 8

/-- Where a header keeps its lock. -/
def lockOffset : Nat := 0

/-- A header lies at a multiple of this, as its lock does. -/
def headerAlignment : Nat := lockAlignment

/-- The bytes a header takes. -/
def HeaderKind.size : HeaderKind → Nat
  | single => 120
  | multi => 128

/-- The numbers in a header; the last two stand in configuration segments
only. -/
inductive Field where
  | event
  | requestId
  | sid
  | ncSid
  | payloadLength
  | priority
  | subscriberCount
  deriving DecidableEq, Repr, Inhabited

/-- Where a header keeps a number. -/
def Field.offset : Field → Nat
  | event => 96
  | requestId => 100
  | sid => 104
  | ncSid => 108
  | payloadLength => 112
  | priority => 120
  | subscriberCount => 124

namespace Content

/-- A number of the header at the start of the content. -/
def field (c : Content) (f : Field) : UInt32 :=
  UInt32.ofNat (c.number f.offset 4)

/-- Changes a number of the header at the start of the content. -/
def setField (c : Content) (f : Field) (v : UInt32) : Content :=
  c.setNumber f.offset 4 v.toNat

end Content

end Subscription
