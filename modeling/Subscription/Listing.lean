import Subscription.Config.Basic
import Subscription.Segment.Open
import Subscription.Segment.Read
import Subscription.Text.Lines
import Subscription.Text.Padding

/-!
# Listing segments

The segments in a directory are listed with their present events, in the
order of their names.  A segment is recognised by its name
(`HeaderKind.ofName`); one that cannot be read is only mentioned in the log,
and one that has gone meanwhile is left out.  Listing never makes or removes
segments.
-/

namespace Subscription

/-- One listed segment. -/
structure Row where
  name : String
  size : Nat
  snapshot : Snapshot
  deriving DecidableEq, Repr, Inhabited

/-- The heading and the rows of a listing, and why it could not be made, if
so. -/
structure Listing where
  rows : List String
  failure : Option SystemCause
  deriving DecidableEq, Repr, Inhabited

namespace Listing

/-- The lines of a listing.  A name may hold line feeds, so that its row takes
more than one line. -/
def lines (l : Listing) : List String := l.rows.flatMap Text.lines

/-- A row of the listing. -/
def formatRow (name size event request payload : String) : String :=
  padRight 48 name ++ " " ++ padLeft 8 size ++ " " ++ padLeft 12 event ++ " " ++
    padLeft 10 request ++ " " ++ padLeft 8 payload

/-- What stands above the rows. -/
def heading : String := formatRow "SEGMENT" "SIZE" "EVENT" "REQUEST" "PAYLOAD"

/-- A row as text. -/
def Row.text (r : Row) : String :=
  formatRow r.name (toString r.size) r.snapshot.event.name
    (toString r.snapshot.requestId.toNat) (toString r.snapshot.payload.length)

/-- Reads the segment with a given name, if it is there. -/
def readRow (cfg : Config) (name : String) (kind : HeaderKind) : HostM Failure (Option Row) := do
  match ← (Segment.openExisting (Path.join cfg.segmentDir name) : HostM Error _) with
  | none => return none
  | some s =>
      let read : SegmentM Failure Snapshot := do
        let result ← attempt (Segment.readEvent kind cfg.readSpan cfg.readSpan)
        Segment.clear
        ofExcept result
      let (snapshot, _) ← Segment.runOn s read
      return some ⟨name, s.size, snapshot⟩

/-- The row of a segment; nothing when it is gone or cannot be read. -/
def readText (cfg : Config) (name : String) (kind : HeaderKind) : HostM Abort (List String) := do
  match ← attempt (readRow cfg name kind) with
  | .ok (some row) => return [Row.text row]
  | .ok none => return []
  | .error (.error e) =>
      Host.say .warn s!"Failed to read \"{name}\" ({e.message})."
      return []
  | .error (.abort a) => throw a

/-- The names that are those of segments, each with the header to expect, in
the order of the names. -/
def segments (names : List String) : List (String × HeaderKind) :=
  (names.mergeSort fun a b => !decide (b < a)).filterMap fun name =>
    (HeaderKind.ofName name).map fun kind => (name, kind)

/-- The rows of some segments. -/
def readTexts (cfg : Config) : List (String × HeaderKind) → HostM Abort (List String)
  | [] => return []
  | (name, kind) :: rest => do
      let first ← readText cfg name kind
      return first ++ (← readTexts cfg rest)

/-- The names in the directory of the segments. -/
def names (cfg : Config) (disk : Disk) : Except SystemCause (List String) :=
  if Path.hasNul cfg.segmentDir then .error .nulInName
  else
    match disk.listDirectory cfg.segmentDir with
    | .ok entries => .ok (entries.map Prod.fst)
    | .error e => .error (.errno e)

/-- Lists the segments. -/
def make (cfg : Config) : HostM Abort Listing := do
  match names cfg (← get).disk with
  | .error cause => return ⟨[], some cause⟩
  | .ok found => return ⟨heading :: (← readTexts cfg (segments found)), none⟩

end Listing

end Subscription
