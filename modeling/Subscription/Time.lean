/-!
# Time

A span of time is whole seconds and nanoseconds below one second.  A wait
ends at a deadline: the point in time that lies a span after now.  Seconds
are kept as signed 64-bit numbers, into which the seconds of a span are
cast, and additions stop at the ends of that range (`deadline`).
-/

namespace Subscription

/-- Nanoseconds in a second. -/
def nanosPerSecond : Nat := 1000000000

/-- A span of time. -/
structure Span where
  seconds : UInt64
  nanos : Nat
  nanos_lt : nanos < nanosPerSecond := by decide

instance : Inhabited Span := ⟨⟨0, 0, by decide⟩⟩

namespace Span

/-- A span of milliseconds. -/
def ofMillis (ms : UInt64) : Span :=
  ⟨ms / 1000, ms.toNat % 1000 * 1000000, by unfold nanosPerSecond; omega⟩

/-- A span of whole seconds. -/
def ofSeconds (seconds : UInt64) : Span :=
  ⟨seconds, 0, by decide⟩

/-- The span in nanoseconds. -/
def toNanos (s : Span) : Nat :=
  s.seconds.toNat * nanosPerSecond + s.nanos

/-- The shorter of two spans. -/
def shorter (a b : Span) : Span :=
  if a.toNanos ≤ b.toNanos then a else b

end Span

/-- A point in time: seconds since the epoch and nanoseconds into the
second. -/
structure Instant where
  seconds : Int
  nanos : Nat
  deriving DecidableEq, Repr, Inhabited

namespace Instant

/-- The point in time that lies some nanoseconds after the epoch. -/
def ofNanos (n : Nat) : Instant :=
  ⟨n / nanosPerSecond, n % nanosPerSecond⟩

/-- Nanoseconds since the epoch, negative before it. -/
def toNanos (t : Instant) : Int :=
  t.seconds * nanosPerSecond + t.nanos

end Instant

/-- The least signed 64-bit number. -/
def leastSeconds : Int := -0x8000000000000000

/-- The greatest signed 64-bit number. -/
def greatestSeconds : Int := 0x7FFFFFFFFFFFFFFF

/-- The nearest signed 64-bit number. -/
def saturate (n : Int) : Int :=
  max leastSeconds (min n greatestSeconds)

/-- The signed 64-bit number with the same bits. -/
def signedSeconds (seconds : UInt64) : Int :=
  Int.bmod seconds.toNat UInt64.size

/-- The end of a wait of the given span that starts now. -/
def deadline (now : Instant) (timeout : Span) : Instant :=
  let nanos := now.nanos + timeout.nanos
  ⟨saturate (saturate (now.seconds + signedSeconds timeout.seconds) +
      (nanos / nanosPerSecond : Nat)),
    nanos % nanosPerSecond⟩

/-- A deadline's nanoseconds stay below a second. -/
theorem deadline_nanos_lt (now : Instant) (timeout : Span) :
    (deadline now timeout).nanos < nanosPerSecond :=
  Nat.mod_lt _ (by decide)

end Subscription
