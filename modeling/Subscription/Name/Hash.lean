import Subscription.Text.Utf8

/-!
# The hash of an xpath

Segment names carry a 32-bit hash of the subscribed xpath, and every party
computes it on its own, so the hash is part of what they agree on.  It is
Bob Jenkins' one-at-a-time hash of the UTF-8 bytes: each byte is added and
stirred in (`Hash.stir`), and three more steps spread the last bytes over
all bits (`Hash.finish`).
-/

namespace Subscription

namespace Hash

/-- Adds one byte to the state and stirs it in. -/
def stir (state : UInt32) (byte : UInt8) : UInt32 :=
  let added := state + byte.toUInt32
  let spread := added + (added <<< 10)
  spread ^^^ (spread >>> 6)

/-- Spreads the last bytes over the whole word. -/
def finish (state : UInt32) : UInt32 :=
  let spread := state + (state <<< 3)
  let folded := spread ^^^ (spread >>> 11)
  folded + (folded <<< 15)

/-- The hash of a sequence of bytes. -/
def ofBytes (bytes : List UInt8) : UInt32 :=
  finish (bytes.foldl stir 0)

end Hash

/-- The hash of a text. -/
def hashText (text : String) : UInt32 :=
  Hash.ofBytes (Utf8.bytes text)

/-- The state after two runs of bytes is the state after both in a row. -/
theorem Hash.foldl_stir_append (front back : List UInt8) (state : UInt32) :
    (front ++ back).foldl stir state = back.foldl stir (front.foldl stir state) := by
  simp

end Subscription
