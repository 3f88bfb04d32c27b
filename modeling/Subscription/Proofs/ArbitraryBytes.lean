import Subscription.Proofs.Mappings
import Subscription.Proofs.RestingLock
import Subscription.Proofs.StoredEvent
import Subscription.Segment.Open
import Subscription.Segment.Read

/-!
# Reading whatever a file holds

A file that is mapped may hold anything, of any length.  As long as the lock at its start
rests, should there be room for one, whoever reads the event is told something
(`Segment.exists_readEvent`), and what that is depends on the bytes of the file alone
(`Content.report`): not on what lies in memory behind its end, and not on the mapping that
the handle came with.  There is a snapshot when the header and the payload fit into the file
and the number of the event is known (`Content.exists_report_eq_ok_iff`); it is what the file
holds (`Content.report_eq_ok_iff_holds`).  Otherwise there is a fault.

However it ends, the file is unharmed (`Content.Unharmed`): it differs at most in the words of
the mutex at its start that say nothing of who has it.  In these it does differ, since whoever
reads takes that mutex (`Segment.reading_leaves_a_mark`).  The loop that tries again after a
mapping that was too short never comes to its end (`Segment.attempts_two`).
-/

namespace Subscription

open LockLayout

namespace Event

theorem eq_raw_of_ofRaw {n : UInt32} {e : Event} (h : ofRaw n = .ok e) : n = e.raw := by
  unfold ofRaw at h
  split at h <;> cases h <;> exact UInt32.toNat_inj.1 ‹_›

/-- The numbers up to seven stand for events. -/
theorem exists_ofRaw_eq_ok_iff {n : UInt32} : (∃ e, ofRaw n = .ok e) ↔ n.toNat ≤ 7 := by
  constructor
  · intro h
    obtain ⟨e, he⟩ := h
    rw [eq_raw_of_ofRaw he]
    cases e <;> decide
  · intro h
    have hall : ∀ k < 8, ∃ e ∈ all, e.raw.toNat = k := by decide
    obtain ⟨e, -, he⟩ := hall n.toNat (by omega)
    exact ⟨e, (UInt32.toNat_inj.1 he) ▸ ofRaw_raw e⟩

/-- Any other number is a fault. -/
theorem exists_fault_of_ofRaw {n : UInt32} {e : Error} (h : ofRaw n = .error e) :
    ∃ f, e = .fault f := by
  unfold ofRaw at h
  split at h <;> cases h
  exact ⟨_, rfl⟩

end Event

/-! ## What a content says -/

namespace Content

variable {c c' : Content} {kind : HeaderKind} {s : Segment} {told : Snapshot}

/-- What the fields and the bytes behind the header say of an event. -/
def snapshot (c : Content) (kind : HeaderKind) (event : Event) : Snapshot where
  event
  requestId := c.field .requestId
  sid := c.field .sid
  ncSid := c.field .ncSid
  priority := if kind = .multi then some (c.field .priority) else none
  subscriberCount := if kind = .multi then some (c.field .subscriberCount) else none
  payload := c.read kind.size (c.field .payloadLength).toNat

/-- What is copied of a content of which so many bytes are mapped. -/
def copied (c : Content) (kind : HeaderKind) (size : Nat) : Except Error (Except Fault Snapshot) :=
  if size < kind.size + (c.field .payloadLength).toNat then
    .ok (.error (.payloadPastEnd (c.field .payloadLength).toNat size))
  else (Event.ofRaw (c.field .event)).map fun event => .ok (c.snapshot kind event)

/-- What comes of one attempt to read a content through a handle: the lock has to fit into
the mapping, and so has the smaller header. -/
def verdict (c : Content) (kind : HeaderKind) (s : Segment) :
    Except Error (Except Fault Snapshot) := do
  s.check lockOffset lockSize lockAlignment
  s.check 0 (HeaderKind.size .single) headerAlignment
  c.copied kind s.size

/-- What whoever reads a content through a handle is told in the end. -/
def report (c : Content) (kind : HeaderKind) (s : Segment) : Except Error Snapshot :=
  match c.verdict kind s with
  | .ok (.ok told) => .ok told
  | .ok (.error fault) => .error (.fault fault)
  | .error e => .error e

/-- Whether an event can be read: the header and the payload fit into the file, and the
number of the event is known. -/
def IsReadable (c : Content) (kind : HeaderKind) : Prop :=
  kind.size + (c.field .payloadLength).toNat ≤ c.length ∧ (c.field .event).toNat ≤ 7

instance (c : Content) (kind : HeaderKind) : Decidable (c.IsReadable kind) :=
  inferInstanceAs (Decidable (_ ∧ _))

theorem payloadLength_lt (c : Content) : (c.field .payloadLength).toNat < 4294967296 :=
  (c.field .payloadLength).toNat_lt

/-- A mapping that the smaller header fits into is all that the rest asks for. -/
theorem verdict_of_le (hcovers : HeaderKind.size .single ≤ s.size) :
    c.verdict kind s = c.copied kind s.size := by
  have hlock : s.check lockOffset lockSize lockAlignment = .ok () :=
    s.check_of_le (Nat.le_trans (by decide) hcovers) (by decide) (by decide) (by decide)
  have hheader : s.check 0 (HeaderKind.size .single) headerAlignment = .ok () :=
    s.check_of_le (by omega) (by decide) (by decide) (by decide)
  rw [verdict, hlock, hheader]
  rfl

/-- A mapping that the smaller header does not fit into is at fault, whatever lies there. -/
theorem exists_fault_of_lt (hshort : s.size < HeaderKind.size .single) :
    ∃ f, ∀ (c : Content) (kind : HeaderKind), c.verdict kind s = .error (.fault f) := by
  cases hlock : s.check lockOffset lockSize lockAlignment with
  | error e =>
      obtain ⟨f, rfl⟩ := Segment.exists_fault_of_check hlock
      refine ⟨f, fun c kind => ?_⟩
      rw [verdict, hlock]
      rfl
  | ok u =>
      cases hheader : s.check 0 (HeaderKind.size .single) headerAlignment with
      | error e =>
          obtain ⟨f, rfl⟩ := Segment.exists_fault_of_check hheader
          refine ⟨f, fun c kind => ?_⟩
          rw [verdict, hlock, hheader]
          rfl
      | ok u =>
          obtain ⟨size, hsize, -, hle, -⟩ := Segment.check_eq_ok_iff.1 hheader
          rw [Segment.size, hsize, Option.getD_some] at hshort
          omega

/-- A report is made of fields that fit, and of an event that is known. -/
theorem report_eq_ok_iff :
    c.report kind s = .ok told ↔
      kind.size + (c.field .payloadLength).toNat ≤ s.size ∧
        ∃ event, Event.ofRaw (c.field .event) = .ok event ∧ told = c.snapshot kind event := by
  have hkind := kind.size_bounds
  by_cases hcovers : HeaderKind.size .single ≤ s.size
  · rw [report, verdict_of_le hcovers, copied]
    by_cases hfits : s.size < kind.size + (c.field .payloadLength).toNat
    · rw [if_pos hfits]
      constructor
      · intro hreport
        cases hreport
      · exact fun h => absurd h.1 (by omega)
    · rw [if_neg hfits]
      cases Event.ofRaw (c.field .event) with
      | error e => simp [Except.map]
      | ok event => simp [Except.map, Nat.le_of_not_lt hfits, eq_comm]
  · obtain ⟨f, hfault⟩ := exists_fault_of_lt (Nat.lt_of_not_le hcovers)
    rw [report, hfault]
    constructor
    · intro hreport
      cases hreport
    · intro h
      have hlow : HeaderKind.size .single ≤ kind.size := by cases kind <;> decide
      omega

/-- There is a report when an event can be read. -/
theorem exists_report_eq_ok_iff (hsize : s.size = c.length) :
    (∃ told, c.report kind s = .ok told) ↔ c.IsReadable kind := by
  constructor
  · intro h
    obtain ⟨told, hreport⟩ := h
    obtain ⟨hfits, event, hevent, -⟩ := report_eq_ok_iff.1 hreport
    exact ⟨hsize ▸ hfits, Event.exists_ofRaw_eq_ok_iff.1 ⟨event, hevent⟩⟩
  · intro h
    obtain ⟨event, hevent⟩ := Event.exists_ofRaw_eq_ok_iff.2 h.2
    exact ⟨_, report_eq_ok_iff.2 ⟨hsize ▸ h.1, event, hevent, rfl⟩⟩

/-- What a content holds is made of its fields and of an event that is known. -/
theorem holds_iff :
    Holds kind c told ↔ kind.size + (c.field .payloadLength).toNat ≤ c.length ∧
      ∃ event, Event.ofRaw (c.field .event) = .ok event ∧ told = c.snapshot kind event := by
  constructor
  · intro hholds
    refine ⟨?_, told.event, ?_, ?_⟩
    · rw [hholds.payloadLength]
      exact hholds.covers
    · rw [hholds.event, Event.ofRaw_raw]
    · rw [snapshot, hholds.requestId, hholds.sid, hholds.ncSid, hholds.payloadLength,
        hholds.payload, ← hholds.priority, ← hholds.subscriberCount]
  · intro h
    obtain ⟨hfits, event, hevent, rfl⟩ := h
    have hlength : (c.snapshot kind event).payload.length = (c.field .payloadLength).toNat :=
      c.length_read _ _
    exact
      { covers := by rwa [hlength]
        event := Event.eq_raw_of_ofRaw hevent
        requestId := rfl
        sid := rfl
        ncSid := rfl
        payloadLength := hlength.symm
        payload := by
          rw [hlength]
          rfl
        priority := rfl
        subscriberCount := rfl }

/-- **A report is what the content holds.** -/
theorem report_eq_ok_iff_holds (hsize : s.size = c.length) :
    c.report kind s = .ok told ↔ Holds kind c told := by
  rw [report_eq_ok_iff, holds_iff, hsize]

/-- What is told otherwise is a fault. -/
theorem exists_fault_of_report {e : Error} (hreport : c.report kind s = .error e) :
    ∃ f, e = .fault f := by
  by_cases hcovers : HeaderKind.size .single ≤ s.size
  · rw [report, verdict_of_le hcovers, copied] at hreport
    by_cases hfits : s.size < kind.size + (c.field .payloadLength).toNat
    · rw [if_pos hfits] at hreport
      cases hreport
      exact ⟨_, rfl⟩
    · rw [if_neg hfits] at hreport
      cases hevent : Event.ofRaw (c.field .event) with
      | ok event =>
          rw [hevent] at hreport
          cases hreport
      | error other =>
          rw [hevent] at hreport
          cases hreport
          exact Event.exists_fault_of_ofRaw hevent
  · obtain ⟨f, hfault⟩ := exists_fault_of_lt (Nat.lt_of_not_le hcovers)
    rw [report, hfault] at hreport
    cases hreport
    exact ⟨f, rfl⟩

/-! ### What it depends on -/

/-- The verdict depends on the bytes in front of the end of the mapping and behind the lock. -/
theorem verdict_congr (hbytes : ∀ i, lockSize ≤ i → i < s.size → c'.byte i = c.byte i) :
    c'.verdict kind s = c.verdict kind s := by
  have hkind := kind.size_bounds
  have hsingle : HeaderKind.size .single = 120 := rfl
  have hlock : lockSize = 96 := rfl
  by_cases hcovers : HeaderKind.size .single ≤ s.size
  · have hfield : ∀ f : Field, f.offset + 4 ≤ s.size → c'.field f = c.field f := by
      intro f hin
      have hlow := f.offset_bounds
      apply field_congr
      intro i hi hstop
      exact hbytes i (by omega) (by omega)
    have hcommon : ∀ f : Field, f.offset + 4 ≤ 120 → c'.field f = c.field f :=
      fun f hf => hfield f (by omega)
    rw [verdict_of_le hcovers, verdict_of_le hcovers, copied, copied,
      hcommon .payloadLength (by decide), hcommon .event (by decide)]
    by_cases hfits : s.size < kind.size + (c.field .payloadLength).toNat
    · rw [if_pos hfits, if_pos hfits]
    · rw [if_neg hfits, if_neg hfits]
      have hsnapshot : c'.snapshot kind = c.snapshot kind := by
        funext event
        have hpayload : c'.read kind.size (c.field .payloadLength).toNat =
            c.read kind.size (c.field .payloadLength).toNat :=
          read_congr fun k hk => hbytes _ (by omega) (by omega)
        rw [snapshot, snapshot, hcommon .requestId (by decide), hcommon .sid (by decide),
          hcommon .ncSid (by decide), hcommon .payloadLength (by decide), hpayload]
        cases kind with
        | single => rfl
        | multi =>
            have hmulti : HeaderKind.size .multi = 128 := rfl
            rw [hfield .priority (by simp only [Field.offset]; omega),
              hfield .subscriberCount (by simp only [Field.offset]; omega)]
      rw [hsnapshot]
  · obtain ⟨f, hfault⟩ := exists_fault_of_lt (Nat.lt_of_not_le hcovers)
    rw [hfault, hfault]

theorem report_congr (hbytes : ∀ i, lockSize ≤ i → i < s.size → c'.byte i = c.byte i) :
    c'.report kind s = c.report kind s := by
  rw [report, report, verdict_congr hbytes]

theorem length_of_bytes_eq (hsame : c'.bytes = c.bytes) : c'.length = c.length := by
  have hcount := congrArg List.length hsame
  rwa [bytes, bytes, length_read, length_read] at hcount

/-- The bytes of a file are those in front of its end. -/
theorem byte_of_bytes_eq (hsame : c'.bytes = c.bytes) {i : Nat} (hi : i < c.length) :
    c'.byte i = c.byte i := by
  have hlength := length_of_bytes_eq hsame
  have hread : ∀ c : Content, i < c.length → c.bytes[i]? = some (c.byte i) := by
    intro c hi
    rw [bytes, c.getElem?_read hi, Nat.zero_add]
  have hbyte := hread c' (hlength.symm ▸ hi)
  rw [hsame, hread c hi] at hbyte
  exact (Option.some.inj hbyte).symm

/-! ### What is left of it -/

/-- Two contents that differ at most in the words of the mutex at their start that say nothing
of who has it; where there is room for that lock, nobody has it. -/
structure Unharmed (c c' : Content) : Prop where
  length : c'.length = c.length
  byte : ∀ i, ¬ IsPrivate lockOffset i → c'.byte i = c.byte i
  signer : ∀ place, lockExtent ≤ place → c'.signer? place = c.signer? place
  readers : (c'.lockAt lockOffset).readers = (c.lockAt lockOffset).readers
  short : c.length < lockSize → c' = c
  mutex : lockSize ≤ c.length →
    (c.lockAt lockOffset).mutex.SettlesTo (c'.lockAt lockOffset).mutex

/-- A lock at the start of a content that lets a reader in. -/
structure Admits (c : Content) : Prop where
  atRest : (c.lockAt lockOffset).mutex.IsAtRest
  room : (c.lockAt lockOffset).readers < RwLock.maxReaders

theorem not_isPrivate_of_le {i : Nat} (hi : comersOffset ≤ i) : ¬ IsPrivate lockOffset i := by
  simp only [IsPrivate, lockOffset, depthOffset, ownerOffset, spinsOffset, linksOffset,
    comersOffset] at *
  omega

theorem isApart_of_le {i : Nat} (hi : lockSize ≤ i) : IsApart lockOffset i := by
  have hextent := lengths_of_words.2
  simp only [lockSize, lockOffset] at hi ⊢
  exact .inr (.inr (.inr (.inr (.inr (by omega)))))

theorem unharmed_refl (hshort : c.length < lockSize) : c.Unharmed c where
  length := rfl
  byte _ _ := rfl
  signer _ _ := rfl
  readers := rfl
  short _ := rfl
  mutex hin := absurd hshort (Nat.not_lt.2 hin)

theorem Visited.unharmed (hvisited : Visited lockOffset (c.lockAt lockOffset).readers c c')
    (hrest : (c.lockAt lockOffset).mutex.IsAtRest) (hin : lockSize ≤ c.length) :
    c.Unharmed c' where
  length := hvisited.length
  byte _ hi := hvisited.byte_eq hrest hi
  signer place hplace := hvisited.signer place (by simpa [lockOffset] using hplace)
  readers := hvisited.readers
  short hshort := absurd hin (Nat.not_le.2 hshort)
  mutex _ := hvisited.mutex

theorem Unharmed.trans {c₁ c₂ : Content} (hfirst : c.Unharmed c₁) (hsecond : c₁.Unharmed c₂) :
    c.Unharmed c₂ where
  length := hsecond.length.trans hfirst.length
  byte i hi := (hsecond.byte i hi).trans (hfirst.byte i hi)
  signer place hplace := (hsecond.signer place hplace).trans (hfirst.signer place hplace)
  readers := hsecond.readers.trans hfirst.readers
  short hshort := (hsecond.short (hfirst.length.symm ▸ hshort)).trans (hfirst.short hshort)
  mutex hin := (hfirst.mutex hin).trans (hsecond.mutex (hfirst.length.symm ▸ hin))

theorem Unharmed.admits (hunharmed : c.Unharmed c') (hin : lockSize ≤ c.length)
    (hadmits : c.Admits) : c'.Admits where
  atRest := (hunharmed.mutex hin).atRest
  room := by
    rw [hunharmed.readers]
    exact hadmits.room

end Content

/-! ## Reading -/

namespace Segment

variable {ε α : Type} {s t : Segment} {h : Host} {file : FileId} {c : Content}
  {kind : HeaderKind}

open Content Host

theorem content_withContent_run (hreg : h.disk.IsRegular file) (hfile : s.file = some file) :
    (content : SegmentM Error Content) ⟨s, h.withContent file c⟩ =
      .ok c ⟨s, h.withContent file c⟩ := by
  obtain ⟨_, mapping⟩ := s
  cases hfile
  show EStateM.Result.ok ((h.withContent file c).disk.content file) _ = _
  rw [content_withContent hreg]

/-- What is copied under the lock. -/
theorem copyEvent_eq (hreg : h.disk.IsRegular file) (hfile : s.file = some file) :
    copyEvent kind ⟨s, h.withContent file c⟩ =
      ofExcept (s.check 0 (HeaderKind.size .single) headerAlignment >>= fun _ =>
        c.copied kind s.size) ⟨s, h.withContent file c⟩ := by
  have hcontent := content_withContent_run (c := c) hreg hfile
  have hrequire : ∀ {start count alignment}, s.check start count alignment = .ok () →
      require start count alignment ⟨s, h.withContent file c⟩ =
        .ok () ⟨s, h.withContent file c⟩ := by
    intro start count alignment hcheck
    rw [require_eq, hcheck]
    rfl
  have hkind := kind.size_bounds
  have hlt := c.payloadLength_lt
  have hbound : addressBound = 18446744073709551616 := rfl
  unfold copyEvent
  cases hheader : s.check 0 (HeaderKind.size .single) headerAlignment with
  | error e =>
      have hfailed : require 0 (HeaderKind.size .single) headerAlignment
          ⟨s, h.withContent file c⟩ = .error e ⟨s, h.withContent file c⟩ := by
        rw [require_eq, hheader]
        rfl
      exact bind_of_error hfailed
  | ok u =>
      refine (bind_of_ok (hrequire hheader)).trans ?_
      refine get_bind_eq.trans ?_
      refine (bind_of_ok hcontent).trans ?_
      show _ = ofExcept (c.copied kind s.size) _
      rw [copied]
      by_cases hfits : s.size < kind.size + (c.field .payloadLength).toNat
      · simp only [if_pos hfits]
        rfl
      · -- the other checks are for less than what is known to fit
        simp only [if_neg hfits]
        have hpayload : s.check kind.size (c.field .payloadLength).toNat 1 = .ok () :=
          s.check_of_le (by omega) (by omega) (by omega) (Nat.mod_one _)
        have hbytes : bytes kind.size (c.field .payloadLength).toNat ⟨s, h.withContent file c⟩ =
            .ok (c.read kind.size (c.field .payloadLength).toNat) ⟨s, h.withContent file c⟩ := by
          unfold bytes
          refine (bind_of_ok (hrequire hpayload)).trans ?_
          exact (bind_of_ok hcontent).trans rfl
        cases kind with
        | single =>
            refine (bind_of_ok rfl).trans ?_
            cases Event.ofRaw (c.field .event) with
            | error e => exact bind_of_error rfl
            | ok event =>
                refine (bind_of_ok rfl).trans ?_
                exact (bind_of_ok hbytes).trans rfl
        | multi =>
            have hmulti : s.check 0 (HeaderKind.size .multi) headerAlignment = .ok () :=
              s.check_of_le (by omega) (by decide) (by decide) (by decide)
            refine (bind_of_ok (hrequire hmulti)).trans ?_
            refine (bind_of_ok rfl).trans ?_
            cases Event.ofRaw (c.field .event) with
            | error e => exact bind_of_error rfl
            | ok event =>
                refine (bind_of_ok rfl).trans ?_
                exact (bind_of_ok hbytes).trans rfl

/-- Whoever is refused the read lock does nothing more. -/
theorem withReadLock_refused {h h₁ : Host} (ht : s.Reaches file lockOffset) {e : Error}
    {timeout readTimeout : Span} {holder : String}
    (hlock : Host.lockRead (headLock file) mainParty timeout readTimeout holder h =
      .error (.error e) h₁) (act : SegmentM Error α) :
    withReadLock timeout readTimeout holder act ⟨s, h⟩ = .error (.error e) ⟨s, h₁⟩ := by
  have honHost : (onHost (Host.lock (headLock file) mainParty timeout readTimeout .read holder) :
      SegmentM Failure Unit) ⟨s, h⟩ = .error (.error e) ⟨s, h₁⟩ := by
    show onPart _ _ (Host.lockRead (headLock file) mainParty timeout readTimeout holder) _ = _
    rw [onPart, hlock]
  have htake : takeGuard lockOffset timeout readTimeout .read holder ⟨s, h⟩ =
      .error (.error e) ⟨s, h₁⟩ := by
    unfold takeGuard
    refine (bind_of_ok (mapFailure_of_ok (lockPlace_of_reaches ht _))).trans ?_
    exact bind_of_error honHost
  exact bind_of_error htake

/-- **An action under the read lock** is followed by giving back what was taken before. -/
theorem withReadLock_had {h h₁ h₂ : Host} (ht : s.Reaches file lockOffset)
    {timeout readTimeout : Span} {holder : String}
    (hlock : Host.lockRead (headLock file) mainParty timeout readTimeout holder h = .ok () h₁)
    (hunlock : (Host.unlockRead (headLock file) mainParty readTimeout holder :
      HostM Failure Unit) h₁ = .ok () h₂) {act : SegmentM Error α} {result : Except Error α}
    (hact : act ⟨s, h₁⟩ = ofExcept result ⟨s, h₁⟩) :
    withReadLock timeout readTimeout holder act ⟨s, h⟩ =
      ofExcept (result.mapError .error) ⟨s, h₂⟩ := by
  have htake : takeGuard lockOffset timeout readTimeout .read holder ⟨s, h⟩ =
      .ok ⟨lockOffset, readTimeout, .read, holder⟩ ⟨s, h₁⟩ := by
    have honHost : (onHost (Host.lock (headLock file) mainParty timeout readTimeout .read
        holder) : SegmentM Failure Unit) ⟨s, h⟩ = .ok () ⟨s, h₁⟩ := onPart_of_ok hlock
    unfold takeGuard
    refine (bind_of_ok (mapFailure_of_ok (lockPlace_of_reaches ht _))).trans ?_
    exact (bind_of_ok honHost).trans rfl
  have hdrop : (dropReadGuard ⟨lockOffset, readTimeout, .read, holder⟩ : SegmentM Failure Unit)
      ⟨s, h₁⟩ = .ok () ⟨s, h₂⟩ := by
    unfold dropReadGuard
    refine (bind_of_ok (attempt_of_ok (lockPlace_of_reaches ht _))).trans ?_
    exact onPart_of_ok hunlock
  have hattempt : (attempt act : SegmentM Failure (Except Error α)) ⟨s, h₁⟩ =
      .ok result ⟨s, h₁⟩ := by
    cases result with
    | ok a => exact attempt_of_ok hact
    | error e => exact attempt_of_error hact
  unfold withReadLock
  refine (bind_of_ok htake).trans ?_
  refine (bind_of_ok hattempt).trans ?_
  refine (bind_of_ok hdrop).trans ?_
  cases result <;> rfl

/-! ### One attempt -/

/-- What is copied under the lock does not depend on the words of the lock. -/
theorem copyEvent_apart (hreg : h.disk.IsRegular file) (ht : s.Reaches file lockOffset)
    (kind : HeaderKind) {c₁ : Content} (hsame : SameApart lockOffset c c₁) :
    copyEvent kind ⟨s, h.withContent file c₁⟩ =
      ofExcept (c.verdict kind s) ⟨s, h.withContent file c₁⟩ := by
  have hverdict : c₁.verdict kind s = c.verdict kind s :=
    verdict_congr fun i hi _ => hsame.byte i (isApart_of_le hi)
  rw [copyEvent_eq hreg ht.file, ← hverdict, verdict, ht.covers]
  rfl

/-- A file that has room for the lock is read under it, through whatever mapping. -/
theorem tryRead_of_le (hreg : h.disk.IsRegular file) (hfile : t.file = some file)
    (hin : lockSize ≤ c.length) (kind : HeaderKind) (readTimeout timeout : Span) :
    (t.fittedTo c.length).Reaches file lockOffset ∧
      tryRead kind readTimeout timeout ⟨t, h.withContent file c⟩ =
        withReadLock timeout readTimeout "EventReader::read" (copyEvent kind)
          ⟨t.fittedTo c.length, h.withContent file c⟩ := by
  have hcovers : (t.fittedTo c.length).check lockOffset lockSize lockAlignment = .ok () :=
    check_of_le _ (by rw [lockOffset, size_fittedTo]; omega) (by decide) (by decide) (by decide)
  have hremap : remap none ⟨t, h.withContent file c⟩ =
      .ok () ⟨t.fittedTo c.length, h.withContent file c⟩ := by
    rw [remap_fittedTo hfile, content_withContent hreg]
  refine ⟨⟨(t.file_fittedTo _).trans hfile, hcovers⟩, ?_⟩
  unfold tryRead
  exact bind_of_ok (mapFailure_of_ok hremap)

/-- A file that has none is at fault, pipe or not, and stays as it is. -/
theorem tryRead_of_lt (hfile : t.file = some file)
    (hshort : (h.disk.content file).length < lockSize) (kind : HeaderKind)
    (readTimeout timeout : Span) :
    tryRead kind readTimeout timeout ⟨t, h⟩ =
      ofExcept (((h.disk.content file).verdict kind
        (t.fittedTo (h.disk.content file).length)).mapError .error)
        ⟨t.fittedTo (h.disk.content file).length, h⟩ := by
  have hremap := remap_fittedTo (h := h) hfile
  have hsize := t.size_fittedTo (h.disk.content file).length
  generalize t.fittedTo (h.disk.content file).length = s at hremap hsize
  cases hlock : s.check lockOffset lockSize lockAlignment with
  | ok u =>
      obtain ⟨size, hmapping, -, hle, -⟩ := check_eq_ok_iff.1 hlock
      rw [Segment.size, hmapping, Option.getD_some] at hsize
      omega
  | error e =>
      have hrequire : require lockOffset lockSize lockAlignment ⟨s, h⟩ = .error e ⟨s, h⟩ := by
        rw [require_eq, hlock]
        rfl
      have hplace : lockPlace lockOffset ⟨s, h⟩ = .error e ⟨s, h⟩ := bind_of_error hrequire
      have hverdict : (h.disk.content file).verdict kind s = .error e := by
        rw [verdict, hlock]
        rfl
      rw [hverdict]
      unfold tryRead
      refine (bind_of_ok (mapFailure_of_ok hremap)).trans ?_
      exact bind_of_error (bind_of_error (mapFailure_of_error hplace))

/-- **One attempt to read**, through whatever mapping. -/
theorem exists_tryRead (hreg : h.disk.IsRegular file) (hfile : t.file = some file)
    (hadmits : lockSize ≤ c.length → c.Admits) (kind : HeaderKind)
    (readTimeout timeout : Span) :
    ∃ c', tryRead kind readTimeout timeout ⟨t, h.withContent file c⟩ =
        ofExcept ((c.verdict kind (t.fittedTo c.length)).mapError .error)
          ⟨t.fittedTo c.length, h.withContent file c'⟩ ∧ c.Unharmed c' := by
  by_cases hin : lockSize ≤ c.length
  · obtain ⟨ht, htry⟩ := tryRead_of_le hreg hfile hin kind readTimeout timeout
    have hextent : lockOffset + lockExtent ≤ c.length := Nat.le_trans (by decide) hin
    have hrest := (hadmits hin).atRest
    have hroom := UInt32.ne_of_lt (hadmits hin).room
    obtain ⟨c₁, hlock, hfirst⟩ := lockRead_resting hreg hextent hrest hroom mainParty timeout
      readTimeout "EventReader::read"
    have hcounted : (c₁.lockAt lockOffset).readers ≠ 0 := by
      rw [hfirst.readers]
      exact RwLock.add_one_ne_zero hroom
    obtain ⟨c₂, hunlock, hsecond⟩ := unlockRead_resting (ε := Failure) hreg
      (by rwa [hfirst.length]) hfirst.mutex.atRest hcounted mainParty readTimeout
      "EventReader::read"
    rw [hfirst.readers, UInt32.add_sub_cancel] at hsecond
    refine ⟨c₂, htry.trans ?_, (hfirst.trans hsecond).unharmed hrest hin⟩
    exact withReadLock_had ht hlock hunlock (copyEvent_apart hreg ht kind hfirst.toSameApart)
  · have hshort := Nat.lt_of_not_le hin
    have hcontent := content_withContent hreg c
    have htry := tryRead_of_lt (h := h.withContent file c) hfile (by rwa [hcontent]) kind
      readTimeout timeout
    rw [hcontent] at htry
    exact ⟨c, htry, unharmed_refl hshort⟩

/-! ### Both attempts -/

/-- What whoever reads is told in the end, when both attempts come to the same. -/
def lastWord (verdict : Except Error (Except Fault Snapshot)) : Except Error Snapshot :=
  match verdict with
  | .ok (.ok told) => .ok told
  | .ok (.error fault) => .error (.fault fault)
  | .error e => .error e

/-- Reading is over after one attempt or after two. -/
theorem exists_readEvent_of_tryRead {a a₁ a₂ : Attached} {readTimeout timeout : Span}
    {verdict : Except Error (Except Fault Snapshot)}
    (hfirst : tryRead kind readTimeout timeout a = ofExcept (verdict.mapError .error) a₁)
    (hsecond : tryRead kind readTimeout timeout a₁ = ofExcept (verdict.mapError .error) a₂) :
    ∃ last, (last = a₁ ∨ last = a₂) ∧
      readEvent kind readTimeout timeout a =
        ofExcept ((lastWord verdict).mapError .error) last := by
  unfold readEvent
  cases verdict with
  | error e => exact ⟨a₁, .inl rfl, bind_of_error hfirst⟩
  | ok outcome =>
      cases outcome with
      | ok told => exact ⟨a₁, .inl rfl, bind_of_ok hfirst⟩
      | error fault =>
          -- the mapping was too short, and it is as short the second time
          refine ⟨a₂, .inr rfl, (bind_of_ok hfirst).trans ?_⟩
          exact (bind_of_ok hsecond).trans rfl

/-- **Whoever reads is told something**, through whatever mapping, and the file is
unharmed. -/
theorem exists_readEvent (hreg : h.disk.IsRegular file) (hfile : t.file = some file)
    (hadmits : lockSize ≤ c.length → c.Admits) (kind : HeaderKind)
    (readTimeout timeout : Span) :
    ∃ c', readEvent kind readTimeout timeout ⟨t, h.withContent file c⟩ =
        ofExcept ((c.report kind (t.fittedTo c.length)).mapError .error)
          ⟨t.fittedTo c.length, h.withContent file c'⟩ ∧ c.Unharmed c' := by
  obtain ⟨c₁, hfirst, hunharmed₁⟩ := exists_tryRead hreg hfile hadmits kind readTimeout timeout
  have hadmits₁ : lockSize ≤ c₁.length → c₁.Admits := by
    intro hin
    rw [hunharmed₁.length] at hin
    exact hunharmed₁.admits hin (hadmits hin)
  obtain ⟨c₂, hsecond, hunharmed₂⟩ := exists_tryRead hreg ((t.file_fittedTo c.length).trans hfile)
    hadmits₁ kind readTimeout timeout
  have hsame : c₁.verdict kind (t.fittedTo c.length) = c.verdict kind (t.fittedTo c.length) :=
    verdict_congr fun i hi _ =>
      hunharmed₁.byte i (not_isPrivate_of_le (Nat.le_trans (by decide) hi))
  rw [hunharmed₁.length, fittedTo_fittedTo, hsame] at hsecond
  obtain ⟨last, hlast, hread⟩ := exists_readEvent_of_tryRead hfirst hsecond
  obtain rfl | rfl := hlast
  · exact ⟨c₁, hread, hunharmed₁⟩
  · exact ⟨c₂, hread, hunharmed₁.trans hunharmed₂⟩

/-! ### The loop -/

/-- Attempts to read, so many of them, of which only the very first one may be followed by
another; `none` is what would come behind the last one. -/
def attempts (kind : HeaderKind) (readTimeout timeout : Span) :
    (number left : Nat) → SegmentM Failure (Option Snapshot)
  | _, 0 => return none
  | number, left + 1 => do
      match ← tryRead kind readTimeout timeout with
      | .ok told => return some told
      | .error fault =>
          if number = 0 then attempts kind readTimeout timeout (number + 1) left
          else throw (.error (.fault fault))

/-- **Two attempts never come to their end**: they are how an event is read. -/
theorem attempts_two (kind : HeaderKind) (readTimeout timeout : Span) :
    attempts kind readTimeout timeout 0 2 = some <$> readEvent kind readTimeout timeout := by
  unfold attempts readEvent
  rw [map_bind]
  congr 1
  funext first
  cases first with
  | ok told => exact (map_pure _ _).symm
  | error fault =>
      show attempts kind readTimeout timeout 1 1 = _
      unfold attempts
      simp only [map_bind]
      congr 1
      funext second
      cases second with
      | ok told => exact (map_pure _ _).symm
      | error fault => rfl

/-- The loop ends with a snapshot or fails, as reading does. -/
theorem attempts_two_run (kind : HeaderKind) (readTimeout timeout : Span) (a : Attached) :
    (∀ b, attempts kind readTimeout timeout 0 2 a ≠ .ok none b) ∧
      resultOf (attempts kind readTimeout timeout 0 2 a) =
        (resultOf (readEvent kind readTimeout timeout a)).map some := by
  rw [attempts_two]
  show (∀ b, (readEvent kind readTimeout timeout >>= fun told => pure (some told)) a ≠ _) ∧
    resultOf ((readEvent kind readTimeout timeout >>= fun told => pure (some told)) a) = _
  cases hrun : readEvent kind readTimeout timeout a with
  | ok told b =>
      rw [bind_of_ok hrun]
      refine ⟨?_, rfl⟩
      intro b' hnone
      cases hnone
  | error e b =>
      rw [bind_of_error hrun]
      refine ⟨?_, rfl⟩
      intro b' hnone
      cases hnone

/-! ### Whatever a file holds -/

/-- **Reading is total, exact and harmless.**  Whatever a file holds, of whatever length, and
whatever mapping a handle on it has: as long as nobody has the lock at the start of the file,
should there be room for one, and one more reader can be counted,

* there is a result when the header and the payload fit into the file and the event is known,
  and it is what the file holds;
* otherwise there is a fault, and never a broken promise;
* the result does not depend on anything behind the end of the file;
* the loop of two attempts comes to the same result and not to its end;
* nothing has changed but the handle, whose mapping is as long as the file, and in the mutex,
  which nobody has, the words that say nothing of who has it. -/
theorem reading_is_total_exact_and_harmless (hreg : h.disk.IsRegular file)
    (hfile : t.file = some file) (c : Content) (hadmits : lockSize ≤ c.length → c.Admits)
    (kind : HeaderKind) (readTimeout timeout : Span) :
    ((∃ told, resultOf (readEvent kind readTimeout timeout ⟨t, h.withContent file c⟩) =
        .ok told) ↔ c.IsReadable kind) ∧
    (∀ told, resultOf (readEvent kind readTimeout timeout ⟨t, h.withContent file c⟩) =
        .ok told ↔ c.Holds kind told) ∧
    (∀ e, resultOf (readEvent kind readTimeout timeout ⟨t, h.withContent file c⟩) =
        .error e → ∃ f, e = .error (.fault f)) ∧
    (∀ c', c'.bytes = c.bytes → (lockSize ≤ c'.length → c'.Admits) →
      resultOf (readEvent kind readTimeout timeout ⟨t, h.withContent file c'⟩) =
        resultOf (readEvent kind readTimeout timeout ⟨t, h.withContent file c⟩)) ∧
    (∀ a, attempts kind readTimeout timeout 0 2 ⟨t, h.withContent file c⟩ ≠ .ok none a) ∧
    resultOf (attempts kind readTimeout timeout 0 2 ⟨t, h.withContent file c⟩) =
      (resultOf (readEvent kind readTimeout timeout ⟨t, h.withContent file c⟩)).map some ∧
    ∃ c', stateAfter (readEvent kind readTimeout timeout ⟨t, h.withContent file c⟩) =
        ⟨t.fittedTo c.length, h.withContent file c'⟩ ∧ c.Unharmed c' := by
  have hresult : ∀ {c : Content}, (lockSize ≤ c.length → c.Admits) →
      resultOf (readEvent kind readTimeout timeout ⟨t, h.withContent file c⟩) =
        (c.report kind (t.fittedTo c.length)).mapError .error := by
    intro c hadmits
    obtain ⟨c', hrun, -⟩ := exists_readEvent hreg hfile hadmits kind readTimeout timeout
    rw [hrun, resultOf_ofExcept]
  have hsize := t.size_fittedTo c.length
  obtain ⟨hend, hloop⟩ :=
    attempts_two_run kind readTimeout timeout ⟨t, h.withContent file c⟩
  rw [hresult hadmits] at hloop ⊢
  simp only [mapError_eq_ok_iff]
  refine ⟨exists_report_eq_ok_iff hsize, fun told => report_eq_ok_iff_holds hsize, ?_, ?_, hend,
    hloop, ?_⟩
  · intro e he
    obtain ⟨other, hreport, rfl⟩ := mapError_eq_error_iff.1 he
    obtain ⟨f, rfl⟩ := exists_fault_of_report hreport
    exact ⟨f, rfl⟩
  · intro c' hsame hadmits'
    have hlength : c'.length = c.length := length_of_bytes_eq hsame
    rw [hresult hadmits', hlength,
      report_congr fun i _ hi => byte_of_bytes_eq hsame (hsize ▸ hi)]
  · obtain ⟨c', hrun, hunharmed⟩ :=
      exists_readEvent hreg hfile hadmits kind readTimeout timeout
    exact ⟨c', by rw [hrun, stateAfter_ofExcept], hunharmed⟩

/-- A lock as a publisher makes it, which three readers are counted in, and behind it an event
with a payload of two bytes that no publisher has written, and one byte more. -/
def strangeContent : Content :=
  ((Content.ofBytes (List.replicate 92 0 ++ List.replicate 4 0xAA ++ [2, 0, 0, 0] ++
    List.replicate 12 7 ++ [2, 0, 0, 0] ++ List.replicate 4 0xAA ++ [104, 105, 33])).initLock
      lockOffset).setNumber (lockOffset + readersOffset) 4 3

/-- A host that has one file, with nothing in it yet. -/
def oneFile : Host :=
  { Host.fresh with disk := ⟨[(["m"], .file 0)], [.regular 0o600 .empty]⟩ }

theorem admits_strangeContent : strangeContent.Admits :=
  ⟨⟨by decide +kernel, by decide +kernel, by decide +kernel⟩, by decide +kernel⟩

/-- It is read through a handle whose mapping is much too long. -/
theorem reading_is_total_exact_and_harmless_strange :
    (∃ told, resultOf (readEvent .single default default
        ⟨⟨some 0, some 4000⟩, oneFile.withContent 0 strangeContent⟩) = .ok told ∧
      strangeContent.Holds .single told) ∧
    ∃ c', stateAfter (readEvent .single default default
        ⟨⟨some 0, some 4000⟩, oneFile.withContent 0 strangeContent⟩) =
          ⟨⟨some 0, some 123⟩, oneFile.withContent 0 c'⟩ ∧ strangeContent.Unharmed c' := by
  obtain ⟨hiff, hholds, -, -, -, -, hafter⟩ :=
    reading_is_total_exact_and_harmless (h := oneFile) ⟨0o600, .empty, rfl⟩
      (t := ⟨some 0, some 4000⟩) rfl strangeContent (fun _ => admits_strangeContent) .single
      default default
  obtain ⟨told, htold⟩ := hiff.2 (by decide +kernel)
  have hlength : strangeContent.length = 123 := by decide +kernel
  rw [hlength] at hafter
  exact ⟨⟨told, htold, (hholds told).1 htold⟩, hafter⟩

/-- **Reading leaves a mark** in a segment that has just been made: the mutex of its lock says
afterwards that it has been taken. -/
theorem reading_leaves_a_mark :
    let opened := openSubscription "sr_m.notif" .single 0o600 Host.fresh
    let made := (stateAfter opened).disk.content 0
    let read := readEvent .single default default ⟨⟨some 0, some 120⟩, stateAfter opened⟩
    (resultOf opened matches .ok (⟨some 0, some 120⟩, true)) ∧
      made.Admits ∧ made.IsReadable .single ∧ (resultOf read matches .ok _) ∧
      made.byte depthOffset = 0 ∧ ((stateAfter read).host.disk.content 0).byte depthOffset = 1 := by
  refine ⟨?_, ⟨⟨?_, ?_, ?_⟩, ?_⟩, ?_, ?_, ?_, ?_⟩
  all_goals decide +kernel

end Segment

end Subscription
