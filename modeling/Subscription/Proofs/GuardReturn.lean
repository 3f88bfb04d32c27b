import Mathlib.Logic.Basic
import Subscription.Proofs.Opening

/-!
# Whether a write lock is given back

The guard of a write lock hands out the handle that the lock was taken through, so the
mapping may be replaced while the lock is held (`Segment.MappingCall`).  The lock is
looked up again when the guard is given back, through whatever mapping there is then.

A remap which fails has given up the old mapping and made no new one.  So what matters
is how the last call ended: when it succeeded, the lock is as free as it was before,
and when it failed, the lock stays taken for good (`Segment.write_guard_returned_iff`).
The only calls that can fail ask for a file of a length that no file can have; making
room for a payload is not one of them.

The calls are followed by what they have in common (`Segment.Guarding`): the lock in the
file stays as it is, and the handle covers it or has no mapping at all.
-/

namespace Subscription

open Host

/-! ## A lock that stays taken -/

namespace Host

variable {h : Host} {place : LockPlace} {p : Party}

/-- Whoever has the mutex of a lock does not get it once more. -/
theorem takeMutex_taken (htaken : (h.lockAt place).mutex.IsTakenBy p) (limit : Int)
    (mode : LockMode) (holder : String) (u : Unit) (h' : Host) :
    takeMutex place p limit mode holder h ≠ .ok u h' := by
  have htry : ∃ h₁, (tryMutex place p limit : HostM Error Grant) h = .ok .busy h₁ := by
    cases hacquire : (h.lockAt place).mutex.acquire p (0 ≤ limit) with
    | mk grant m =>
        have hgrant : grant = .busy := by
          have hbusy := htaken.acquire (0 ≤ limit)
          rwa [hacquire] at hbusy
        subst hgrant
        exact ⟨h.setMutex place m, modifyGet_of_eq (by rw [hacquire])⟩
  obtain ⟨h₁, hbusy⟩ := htry
  unfold takeMutex
  refine (bind_of_ok hbusy).trans_ne ?_
  refine bind_ne_ok_of_rest (fun _ _ _ _ => ?_) u h'
  show EStateM.Result.error _ _ ≠ _
  exact nofun

/-- A lock that the party has is not had once more, in neither mode. -/
theorem lock_taken (htaken : (h.lockAt place).mutex.IsTakenBy p) (timeout readTimeout : Span)
    (mode : LockMode) (holder : String) (u : Unit) (h' : Host) :
    lock place p timeout readTimeout mode holder h ≠ .ok u h' := by
  cases mode with
  | read =>
      show lockRead place p timeout readTimeout holder h ≠ _
      unfold lockRead
      rw [get_bind_eq]
      exact bind_ne_ok (mapFailure_ne_ok (takeMutex_taken htaken _ _ _)) u h'
  | write =>
      show (mapFailure .error (lockWrite place p timeout holder) : HostM Failure Unit) h ≠ _
      refine mapFailure_ne_ok ?_ u h'
      unfold lockWrite
      rw [get_bind_eq]
      exact bind_ne_ok (takeMutex_taken htaken _ _ _)

end Host

namespace Segment

variable {h : Host} {file : FileId} {offset : Nat} {t : Segment} {a : Attached}

/-! ## Reaching a lock -/

/-- A longer mapping covers what a shorter one does. -/
theorem Reaches.of_le {size : Nat} (ht : t.Reaches file offset) (hle : offset + lockSize ≤ size) :
    (⟨some file, some size⟩ : Segment).Reaches file offset := by
  obtain ⟨_, -, hbound, -, halign⟩ := check_eq_ok_iff.1 ht.covers
  exact ⟨rfl, check_eq_ok_iff.2 ⟨size, rfl, hbound, hle, halign⟩⟩

/-- Without a mapping no lock is found. -/
theorem lockPlace_unmapped (hnone : t.mapping = none) (h : Host) :
    lockPlace offset ⟨t, h⟩ = .error (.fault .notMapped) ⟨t, h⟩ := by
  have hrequire : require offset lockSize lockAlignment ⟨t, h⟩ =
      .error (.fault .notMapped) ⟨t, h⟩ := by
    unfold require
    rw [get_bind_eq]
    show ofExcept (t.check offset lockSize lockAlignment) _ = _
    rw [check, hnone]
    rfl
  unfold lockPlace
  exact bind_of_error hrequire

/-- A guard is only had through a mapping that covers the lock. -/
theorem reaches_of_takeGuard (hfile : t.file = some file) {timeout readTimeout : Span}
    {mode : LockMode} {holder : String} {g : Guard}
    (htake : takeGuard offset timeout readTimeout mode holder ⟨t, h⟩ = .ok g a) :
    t.Reaches file offset := by
  refine ⟨hfile, ?_⟩
  cases hcheck : t.check offset lockSize lockAlignment with
  | ok u => rfl
  | error e =>
      exfalso
      refine bind_ne_ok (mapFailure_ne_ok (bind_ne_ok ?_)) g a htake
      intro u a'
      unfold require
      rw [get_bind_eq]
      show ofExcept (t.check offset lockSize lockAlignment) _ ≠ _
      rw [hcheck]
      exact nofun

/-! ## Attempts -/

/-- The write lock is had through any handle that reaches it. -/
theorem takeWriteGuard_idle (hhas : h.HasLockAt file offset)
    (hidle : (h.lockAt (.inFile file offset)).IsIdle) (ht : t.Reaches file offset)
    (timeout readTimeout : Span) (holder : String) :
    ∃ h', takeGuard offset timeout readTimeout .write holder ⟨t, h⟩ =
        .ok ⟨offset, readTimeout, .write, holder⟩ ⟨t, h'⟩ ∧
      OnlyLockAt file offset h h' ∧
      (h'.lockAt (.inFile file offset)).mutex.IsTakenBy mainParty ∧
      (h'.lockAt (.inFile file offset)).readers = 0 := by
  obtain ⟨h', hlock, honly, hheld⟩ := lockWrite_idle_at hhas hidle mainParty timeout holder
  refine ⟨h', ?_, honly, hheld⟩
  have htake : (onHost (mapFailure .error
      (lockWrite (.inFile file offset) mainParty timeout holder)) : SegmentM Failure Unit)
        ⟨t, h⟩ = .ok () ⟨t, h'⟩ :=
    onPart_of_ok (mapFailure_of_ok hlock)
  unfold takeGuard
  refine (bind_of_ok (mapFailure_of_ok (lockPlace_of_reaches ht h))).trans ?_
  exact (bind_of_ok htake).trans rfl

/-- A lock that nobody has is had in either mode. -/
theorem takeGuard_idle (hhas : h.HasLockAt file offset)
    (hidle : (h.lockAt (.inFile file offset)).IsIdle) (ht : t.Reaches file offset)
    (timeout readTimeout : Span) (mode : LockMode) (holder : String) :
    ∃ g h', takeGuard offset timeout readTimeout mode holder ⟨t, h⟩ = .ok g ⟨t, h'⟩ := by
  cases mode with
  | write =>
      obtain ⟨h', htake, -⟩ := takeWriteGuard_idle hhas hidle ht timeout readTimeout holder
      exact ⟨_, h', htake⟩
  | read =>
      obtain ⟨h', hlock, -⟩ :=
        lockRead_idle_at hhas hidle mainParty timeout readTimeout holder
      have htake : (onHost (lockRead (.inFile file offset) mainParty timeout readTimeout
          holder) : SegmentM Failure Unit) ⟨t, h⟩ = .ok () ⟨t, h'⟩ := onPart_of_ok hlock
      refine ⟨⟨offset, readTimeout, .read, holder⟩, h', ?_⟩
      unfold takeGuard
      refine (bind_of_ok (mapFailure_of_ok (lockPlace_of_reaches ht h))).trans ?_
      exact (bind_of_ok htake).trans rfl

/-- A lock that is taken is not had, whoever asks in whatever way. -/
theorem takeGuard_taken (htaken : (h.lockAt (.inFile file offset)).mutex.IsTakenBy mainParty)
    (ht : t.Reaches file offset) (timeout readTimeout : Span) (mode : LockMode)
    (holder : String) (g : Guard) (a : Attached) :
    takeGuard offset timeout readTimeout mode holder ⟨t, h⟩ ≠ .ok g a := by
  unfold takeGuard
  refine (bind_of_ok (mapFailure_of_ok (lockPlace_of_reaches ht h))).trans_ne ?_
  exact bind_ne_ok (onPart_ne_ok (lock_taken htaken timeout readTimeout mode holder)) g a

/-! ## Calls under a guard -/

/-- What the holder of a guard may do about the mapping: replace it, or make room for a
payload, as a publisher does. -/
inductive MappingCall where
  | remap (length : Option Nat)
  | makeRoom (kind : HeaderKind) (payload : List UInt8)
  deriving DecidableEq, Repr

namespace MappingCall

def run (g : Guard) : MappingCall → SegmentM Error Unit
  | remap length => do
      requireWrite g
      Segment.remap length
  | makeRoom kind payload => do
      requireWrite g
      Segment.makeRoom kind payload

/-- Calls that do not cut the file off before an offset.  A payload is one that a
publisher accepts. -/
def Spares (stop : Nat) : MappingCall → Prop
  | remap none => True
  | remap (some length) => stop ≤ length
  | makeRoom _ payload => payload.length < UInt32.size

/-- Calls that ask for a length which no file can have. -/
def IsExcessive : MappingCall → Prop
  | remap (some length) => maxFileLength < length
  | _ => False

end MappingCall

/-- Makes the calls one after the other, whether they fail or not, and tells how the last
one ended. -/
def runCalls {ε : Type} (g : Guard) (calls : List MappingCall) : SegmentM ε (Except Error Unit) :=
  calls.foldlM (fun _ call => attempt (call.run g)) (.ok ())

/-- A handle on a file with a given lock, after a call that ended in the given way. -/
structure Guarding (file : FileId) (offset : Nat) (l : RwLock) (last : Except Error Unit)
    (a : Attached) : Prop where
  opened : a.segment.file = some file
  regular : a.host.disk.IsRegular file
  covers : offset + lockSize ≤ (a.host.disk.content file).length
  lock : a.host.lockAt (.inFile file offset) = l
  reach : (⟨some file, some (offset + lockSize)⟩ : Segment).Reaches file offset
  mapping :
    match last with
    | .ok () => a.segment.Reaches file offset
    | .error _ => a.segment.mapping = none

variable {l : RwLock} {last : Except Error Unit} {n : Nat}

/-- The lock in a file that keeps all of it is the same. -/
theorem lockAt_resize {c : Content} (hold : offset + lockSize ≤ c.length)
    (hnew : offset + lockSize ≤ n) : (c.resize n).lockAt offset = c.lockAt offset := by
  have hsize : lockSize = 96 := rfl
  obtain ⟨hsign, hextent⟩ := Content.lengths_of_words
  apply Content.lockAt_congr
  · intro k hk
    exact c.byte_resize_of_lt (by omega) (by omega)
  · have hword : LockLayout.wordOffset = 0 := rfl
    exact c.signer?_resize (by omega) (by omega)
  · have howner : LockLayout.ownerOffset = 8 := rfl
    exact c.signer?_resize (by omega) (by omega)

/-- A handle that is mapped in full length covers the lock. -/
theorem Guarding.of_fitted (hreg : h.disk.IsRegular file)
    (hcovers : offset + lockSize ≤ (h.disk.content file).length)
    (hlock : h.lockAt (.inFile file offset) = l)
    (hreach : (⟨some file, some (offset + lockSize)⟩ : Segment).Reaches file offset) :
    Guarding file offset l (.ok ()) (h.fitted file) where
  opened := rfl
  regular := hreg
  covers := hcovers
  lock := hlock
  reach := hreach
  mapping := hreach.of_le hcovers

/-- A remap to the length of the file succeeds. -/
theorem Guarding.remap_none (hguarding : Guarding file offset l last a) :
    remap none a = .ok () (a.host.fitted file) ∧
      Guarding file offset l (.ok ()) (a.host.fitted file) := by
  have hsize : lockSize = 96 := rfl
  have hcovers := hguarding.covers
  exact ⟨Segment.remap_none hguarding.opened (by omega),
    .of_fitted hguarding.regular hcovers hguarding.lock hguarding.reach⟩

/-- **A remap to a given length** succeeds with a mapping that covers the lock, or fails
without a mapping; and it fails only when the length is excessive. -/
theorem Guarding.remap_some (hguarding : Guarding file offset l last a)
    (hstop : offset + lockSize ≤ n) :
    (∃ a', remap (some n) a = .ok () a' ∧ Guarding file offset l (.ok ()) a') ∨
      ∃ e a', remap (some n) a = .error e a' ∧ Guarding file offset l (.error e) a' ∧
        maxFileLength < n := by
  have hsize : lockSize = 96 := rfl
  obtain ⟨⟨tfile, mapping⟩, h⟩ := a
  obtain ⟨hfile, hreg, hcovers, hlock, hreach, hmapping⟩ := hguarding
  obtain rfl : tfile = some file := hfile
  obtain ⟨hsame, hremap⟩ | ⟨-, disk, hresize, hremap⟩ | ⟨-, e, hrefused, hremap⟩ :=
    remap_some_cases (t := ⟨some file, mapping⟩) (h := h) rfl n
  · refine .inl ⟨_, hremap, rfl, hreg, hcovers, hlock, hreach, ?_⟩
    cases mapping with
    | none =>
        have hzero : n = 0 := hsame
        omega
    | some size =>
        have hn : n = size := hsame
        exact hreach.of_le (by omega)
  · have haltered := Host.alters_resizeFile hresize
    have hlength : (disk.content file).length = n := by
      rw [haltered.content, Content.length_resize]
    have hfitted : (⟨⟨some file, some n⟩, { h with disk }⟩ : Attached) =
        ({ h with disk } : Host).fitted file := by
      rw [Host.fitted, hlength]
    rw [fittedTo_of_pos rfl (show 0 < n by omega), hfitted] at hremap
    refine .inl ⟨_, hremap, .of_fitted (haltered.only.regular hreg) ?_ ?_ hreach⟩
    · rw [hlength]
      exact hstop
    · show (disk.content file).lockAt offset = l
      rw [haltered.content, lockAt_resize hcovers hstop]
      exact hlock
  · refine .inr ⟨e, _, hremap, ⟨rfl, hreg, hcovers, hlock, hreach, rfl⟩, ?_⟩
    rw [← Nat.not_le]
    exact fun hshort => hrefused _ (Disk.resizeFile_eq_ok_iff.2 ⟨hreg, hshort, rfl⟩)

/-- Making room for a payload that a publisher accepts succeeds. -/
theorem Guarding.makeRoom (hguarding : Guarding file offset l last a) (kind : HeaderKind)
    {payload : List UInt8} (hsmall : payload.length < UInt32.size) :
    ∃ a', makeRoom kind payload a = .ok () a' ∧ Guarding file offset l (.ok ()) a' := by
  obtain ⟨hremap, hfitted⟩ := hguarding.remap_none
  have hcovers := hguarding.covers
  by_cases hfull : (a.host.disk.content file).length < kind.size + payload.length
  · have hneeded : ¬ maxFileLength < kind.size + payload.length := by
      have hsize := kind.size_bounds
      have hmax : maxFileLength = 17592186040320 := rfl
      have hword : UInt32.size = 4294967296 := rfl
      omega
    rcases hfitted.remap_some (show offset + lockSize ≤ kind.size + payload.length by omega) with
      ⟨a', hgrow, hgrown⟩ | ⟨-, -, -, -, hlong⟩
    · refine ⟨a', ?_, hgrown⟩
      unfold Segment.makeRoom
      refine (bind_of_ok hremap).trans ?_
      refine get_bind_eq.trans ?_
      rw [if_pos (show (a.host.fitted file).segment.size < _ from hfull)]
      exact hgrow
    · exact absurd hlong hneeded
  · refine ⟨a.host.fitted file, ?_, hfitted⟩
    unfold Segment.makeRoom
    refine (bind_of_ok hremap).trans ?_
    refine get_bind_eq.trans ?_
    rw [if_neg (show ¬ (a.host.fitted file).segment.size < _ from hfull)]
    rfl

/-- **One call** keeps the lock in the file, and ends with a mapping that covers it
unless it is excessive and fails. -/
theorem Guarding.call {g : Guard} (hmode : g.mode = .write) {call : MappingCall}
    (hguarding : Guarding file offset l last a) (hspares : call.Spares (offset + lockSize)) :
    ∃ last' a', (∀ ε : Type, (attempt (call.run g) : SegmentM ε (Except Error Unit)) a =
        .ok last' a') ∧
      Guarding file offset l last' a' ∧ (∀ e, last' = .error e → call.IsExcessive) := by
  have hallowed : requireWrite g a = .ok () a := by
    rw [requireWrite, hmode]
    rfl
  cases call with
  | remap length =>
      cases length with
      | none =>
          obtain ⟨hremap, hfitted⟩ := hguarding.remap_none
          exact ⟨_, _, fun ε => attempt_of_ok ((bind_of_ok hallowed).trans hremap), hfitted,
            nofun⟩
      | some n =>
          rcases hguarding.remap_some hspares with
            ⟨a', hremap, hnext⟩ | ⟨e, a', hremap, hnext, hlong⟩
          · exact ⟨_, _, fun ε => attempt_of_ok ((bind_of_ok hallowed).trans hremap), hnext,
              nofun⟩
          · exact ⟨_, _, fun ε => attempt_of_error ((bind_of_ok hallowed).trans hremap), hnext,
              fun _ _ => hlong⟩
  | makeRoom kind payload =>
      obtain ⟨a', hroom, hnext⟩ := hguarding.makeRoom kind hspares
      exact ⟨_, _, fun ε => attempt_of_ok ((bind_of_ok hallowed).trans hroom), hnext, nofun⟩

/-- **All calls** keep the lock in the file.  How the last one ended says whether there
is a mapping that covers it, and it fails only when it is excessive. -/
theorem Guarding.runCalls {ε : Type} {g : Guard} (hmode : g.mode = .write)
    {calls : List MappingCall} (hspares : ∀ call ∈ calls, call.Spares (offset + lockSize))
    (hguarding : Guarding file offset l (.ok ()) a) :
    ∃ last a', (runCalls g calls : SegmentM ε (Except Error Unit)) a = .ok last a' ∧
      Guarding file offset l last a' ∧
      ∀ e, last = .error e → ∃ call ∈ calls.getLast?, call.IsExcessive := by
  -- The outcome of the calls so far only counts when no more of them are left.
  have hrun : ∀ (calls : List MappingCall) (last : Except Error Unit) (a : Attached),
      (∀ call ∈ calls, call.Spares (offset + lockSize)) → Guarding file offset l last a →
      ∃ last' a', (calls.foldlM (fun _ call => attempt (call.run g)) last :
          SegmentM ε (Except Error Unit)) a = .ok last' a' ∧
        Guarding file offset l last' a' ∧
        ∀ e, last' = .error e →
          (calls = [] ∧ last = .error e) ∨ ∃ call ∈ calls.getLast?, call.IsExcessive := by
    intro calls
    induction calls with
    | nil => exact fun last a _ hguarding => ⟨last, a, rfl, hguarding, fun e he => .inl ⟨rfl, he⟩⟩
    | cons call calls ih =>
        intro last a hspares hguarding
        obtain ⟨hfirst, hrest⟩ := List.forall_mem_cons.1 hspares
        obtain ⟨mid, b, hcall, hmid, hfailed⟩ := hguarding.call hmode hfirst
        obtain ⟨last', a', hrun, hlast, hexcessive⟩ := ih mid b hrest hmid
        refine ⟨last', a', (bind_of_ok (hcall ε)).trans hrun, hlast, fun e he => .inr ?_⟩
        rcases hexcessive e he with ⟨rfl, hsame⟩ | ⟨other, hother, hlong⟩
        · exact ⟨call, rfl, hfailed e hsame⟩
        · refine ⟨other, ?_, hlong⟩
          rw [List.getLast?_cons, Option.mem_def.1 hother]
          rfl
  obtain ⟨last, a', hcalls, hlast, hexcessive⟩ := hrun calls (.ok ()) a hspares hguarding
  refine ⟨last, a', hcalls, hlast, fun e he => ?_⟩
  rcases hexcessive e he with ⟨-, hok⟩ | hlong
  · cases hok
  · exact hlong

/-! ## The guard is given back -/

/-- The lock is found again through a mapping that covers it. -/
theorem Guarding.drop_ok (hguarding : Guarding file offset l (.ok ()) a)
    (htaken : l.mutex.IsTakenBy mainParty) (hzero : l.readers = 0) (readTimeout : Span)
    (holder : String) :
    ∃ c, dropGuard ⟨offset, readTimeout, .write, holder⟩ a = .ok () c ∧
      c.host.HasLockAt file offset ∧ (c.host.lockAt (.inFile file offset)).IsIdle := by
  have hsize : lockSize = 96 := rfl
  have hextent := Content.lengths_of_words.2
  obtain ⟨t, h⟩ := a
  have hcovers : offset + lockSize ≤ (h.disk.content file).length := hguarding.covers
  have hhas : h.HasLockAt file offset := ⟨hguarding.regular, by omega⟩
  have hlock : h.lockAt (.inFile file offset) = l := hguarding.lock
  obtain ⟨h', hunlock, honly, hidle⟩ := unlockWrite_held_at hhas (by rw [hlock]; exact htaken)
    (by rw [hlock]; exact hzero) holder
  refine ⟨⟨t, h'⟩, ?_, honly.hasLockAt hhas, hidle⟩
  show dropWriteGuard _ _ = _
  unfold dropWriteGuard
  refine (bind_of_ok (attempt_of_ok (lockPlace_of_reaches hguarding.mapping h))).trans ?_
  exact onPart_of_ok hunlock

/-- Without a mapping the lock is not found, and stays as it is. -/
theorem Guarding.drop_error {e : Error} (hguarding : Guarding file offset l (.error e) a)
    (readTimeout : Span) (holder : String) :
    ∃ c, dropGuard ⟨offset, readTimeout, .write, holder⟩ a = .ok () c ∧
      c.host.lockAt (.inFile file offset) = l := by
  obtain ⟨t, h⟩ := a
  let lost : Error := .fault .notMapped
  refine ⟨⟨t, h.note .error
    s!"Lock of a segment lost before unlocking in {holder} ({lost.message})."⟩, ?_,
    hguarding.lock⟩
  show dropWriteGuard _ _ = _
  unfold dropWriteGuard
  exact (bind_of_ok (attempt_of_error (lockPlace_unmapped hguarding.mapping h))).trans rfl

/-- Every attempt to take a lock succeeds, through whatever handle that reaches it. -/
def Granted (file : FileId) (offset : Nat) (h : Host) : Prop :=
  ∀ (t : Segment), t.Reaches file offset → ∀ timeout readTimeout mode holder,
    ∃ g a, takeGuard offset timeout readTimeout mode holder ⟨t, h⟩ = .ok g a

/-- No attempt to take a lock succeeds. -/
def Refused (file : FileId) (offset : Nat) (h : Host) : Prop :=
  ∀ (t : Segment), t.Reaches file offset → ∀ timeout readTimeout mode holder g a,
    takeGuard offset timeout readTimeout mode holder ⟨t, h⟩ ≠ .ok g a

/-- **When a write lock is given back.**  A lock that was free is taken through some
handle, and the mapping of that handle is replaced any number of times, successfully or
not, without the file being cut off before the end of the lock.  Giving the guard back
succeeds in any case.  The lock is free afterwards exactly when the last call did not
fail, and then everybody gets it who asks; otherwise nobody does any more. -/
theorem write_guard_returned_iff {g : Guard} {timeout readTimeout : Span} {holder : String}
    {calls : List MappingCall} (hreg : h.disk.IsRegular file) (hfile : t.file = some file)
    (hcovers : offset + lockSize ≤ (h.disk.content file).length)
    (hidle : (h.lockAt (.inFile file offset)).IsIdle)
    (htake : takeGuard offset timeout readTimeout .write holder ⟨t, h⟩ = .ok g a)
    (hspares : ∀ call ∈ calls, call.Spares (offset + lockSize)) :
    ∃ last b c, (runCalls g calls : SegmentM Abort _) a = .ok last b ∧ dropGuard g b = .ok () c ∧
      ((c.host.lockAt (.inFile file offset)).IsIdle ↔ last = .ok ()) ∧
      (last = .ok () → Granted file offset c.host) ∧
      ∀ e, last = .error e →
        Refused file offset c.host ∧ ∃ call ∈ calls.getLast?, call.IsExcessive := by
  have hsize : lockSize = 96 := rfl
  have hextent := Content.lengths_of_words.2
  have hreaches := reaches_of_takeGuard hfile htake
  obtain ⟨h₁, hgranted, honly, htaken, hzero⟩ := takeWriteGuard_idle ⟨hreg, by omega⟩ hidle
    hreaches timeout readTimeout holder
  rw [hgranted] at htake
  cases htake
  have hstart : Guarding file offset (h₁.lockAt (.inFile file offset)) (.ok ()) ⟨t, h₁⟩ := by
    refine ⟨hfile, honly.regular hreg, ?_, rfl, hreaches.of_le (Nat.le_refl _), hreaches⟩
    rw [honly.length]
    exact hcovers
  obtain ⟨last, b, hcalls, hlast, hexcessive⟩ := hstart.runCalls (ε := Abort)
    (g := ⟨offset, readTimeout, .write, holder⟩) rfl hspares
  cases last with
  | ok u =>
      obtain ⟨c, hdrop, hhas, hreturned⟩ := hlast.drop_ok htaken hzero readTimeout holder
      refine ⟨_, b, c, hcalls, hdrop, ⟨fun _ => rfl, fun _ => hreturned⟩, ?_, nofun⟩
      exact fun _ u hu timeout readTimeout mode holder => by
        obtain ⟨g, h', htake⟩ := takeGuard_idle hhas hreturned hu timeout readTimeout mode holder
        exact ⟨g, _, htake⟩
  | error e =>
      obtain ⟨c, hdrop, hlock⟩ := hlast.drop_error readTimeout holder
      rw [← hlock] at htaken
      refine ⟨_, b, c, hcalls, hdrop, ⟨fun hfree => ?_, nofun⟩, nofun, fun e' he => ?_⟩
      · have hword := htaken.word
        rw [hfree.mutex.word] at hword
        cases hword
      · exact ⟨fun u hu timeout readTimeout mode holder =>
          takeGuard_taken htaken hu timeout readTimeout mode holder, hexcessive e' he⟩

/-- A host with one file, which is a segment that nobody has used. -/
def oneSegment : Host :=
  { Host.fresh with disk := ⟨[(["m"], .file 0)], [.regular 0o600 (Content.fresh .single)]⟩ }

theorem oneSegment_idle : (oneSegment.lockAt (.inFile 0 lockOffset)).IsIdle := by
  have hlock : oneSegment.lockAt (.inFile 0 lockOffset) = RwLock.fresh .ofSegments :=
    Content.lockAt_fresh .single
  rw [hlock]
  exact ⟨⟨rfl, rfl, rfl⟩, rfl⟩

theorem oneSegment_hasLock : oneSegment.HasLockAt 0 lockOffset :=
  ⟨⟨0o600, Content.fresh .single, rfl⟩, by decide⟩

/-- A handle that maps all of a new segment. -/
def fullHandle : Segment := ⟨some 0, some 120⟩

theorem fullHandle_reaches : fullHandle.Reaches 0 lockOffset := ⟨rfl, rfl⟩

/-- A length that no file can have. -/
def hugeLength : Nat := 0x8000000000000000

/-- A publisher makes room, and two remaps follow, of which the first one fails. -/
theorem write_guard_returned_iff_growth :
    ∃ g a last b c, takeGuard lockOffset default default .write "test"
        ⟨fullHandle, oneSegment⟩ = .ok g a ∧
      (runCalls g [.makeRoom .single [1, 2, 3], .remap (some hugeLength), .remap none] :
        SegmentM Abort _) a = .ok last b ∧
      dropGuard g b = .ok () c ∧ (c.host.lockAt (.inFile 0 lockOffset)).IsIdle := by
  obtain ⟨h', htake, -⟩ := takeWriteGuard_idle oneSegment_hasLock oneSegment_idle
    fullHandle_reaches default default "test"
  have hspares : ∀ call ∈ [MappingCall.makeRoom .single [1, 2, 3], .remap (some hugeLength),
      .remap none], call.Spares (lockOffset + lockSize) := by
    simp [MappingCall.Spares, UInt32.size, lockOffset, lockSize, hugeLength]
  obtain ⟨last, b, c, hcalls, hdrop, hiff, -, hfailed⟩ := write_guard_returned_iff
    oneSegment_hasLock.regular rfl (by decide) oneSegment_idle htake hspares
  refine ⟨_, _, last, b, c, htake, hcalls, hdrop, hiff.2 ?_⟩
  cases last with
  | ok u => rfl
  | error e =>
      obtain ⟨-, call, hlast, hlong⟩ := hfailed e rfl
      cases hlast
      exact absurd hlong id

/-- **A failed remap loses the lock.**  The guard is given back without a mapping, and
nobody can take the lock any more, not even to read. -/
theorem failed_remap_loses_the_lock :
    ∃ g a e b c, takeGuard lockOffset default default .write "test"
        ⟨fullHandle, oneSegment⟩ = .ok g a ∧
      (runCalls g [.remap (some hugeLength)] : SegmentM Abort _) a = .ok (.error e) b ∧
      dropGuard g b = .ok () c ∧
      ∀ g' d, takeGuard lockOffset default default .read "test" ⟨fullHandle, c.host⟩ ≠
        .ok g' d := by
  obtain ⟨h', htake, -, htaken, -⟩ := takeWriteGuard_idle oneSegment_hasLock oneSegment_idle
    fullHandle_reaches default default "test"
  refine ⟨_, _, _, _, _, htake, rfl, rfl, ?_⟩
  refine takeGuard_taken ?_ fullHandle_reaches default default .read "test"
  exact htaken

end Segment

end Subscription
