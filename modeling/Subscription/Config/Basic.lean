import Subscription.Name.Basic
import Subscription.Path
import Subscription.Time

/-!
# Configuration

The directories and timeouts that every component shares.  They are set
once and handed around.
-/

namespace Subscription

/-- Directories, timeouts and permissions. -/
structure Config where
  /-- The directory of the segments. -/
  segmentDir : String
  /-- The directory of the event pipes. -/
  pipeDir : String
  /-- How long to wait for the subscriptions of a context, in
  milliseconds. -/
  loopTimeout : UInt32
  /-- How long a read lock waits at most, in milliseconds. -/
  readTimeout : UInt32
  /-- The permissions of new segments and pipes. -/
  mode : UInt32
  deriving DecidableEq, Repr, Inhabited

namespace Config

/-- What holds where nothing else is set. -/
def standard : Config := ⟨"/dev/shm", "/etc/sysrepo", 2000, 500, 0o600⟩

/-- Segments and pipes side by side in one directory. -/
def withRoot (root : String) : Config :=
  { standard with segmentDir := root, pipeDir := root }

/-- How long to wait for the subscriptions of a context. -/
def loopSpan (c : Config) : Span := .ofMillis c.loopTimeout.toUInt64

/-- How long a read lock waits at most. -/
def readSpan (c : Config) : Span := .ofMillis c.readTimeout.toUInt64

/-- Where the segment with a given key lies. -/
def segmentPath (c : Config) (key : SegmentKey) : String :=
  Path.join c.segmentDir key.name

/-- Where the event pipe with a given number lies. -/
def pipePath (c : Config) (number : UInt32) : String :=
  Path.join c.pipeDir (pipeName number)

end Config

end Subscription
