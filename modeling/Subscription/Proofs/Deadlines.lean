import Subscription.Proofs.Waiting

/-!
# Deadlines

Whoever waits for a lock has a deadline, and gives up when it has come.  A deadline that keeps
its word is the point in time that lies the given span after now, or the last second that can
be told when that is too late to be told, and it is not in the past.

* A deadline keeps its word just when the seconds of the span fit into a signed number and the
  clock is not about to run over (`keepsWord_iff`).
* Longer spans end later as long as their ends can be told, and no longer
  (`deadlinesAscend_iff`).
* Whoever gives up a lock does so at the deadline, neither before nor after
  (`Host.GivesUp.clock`).

`deadlines_hold_iff` is all of it.  More seconds than that are taken for a negative number, so
that the deadline lies in the past and who waits longest gives up first
(`longest_wait_ends_first`).
-/

namespace Subscription

/-! ## Points in time -/

namespace Instant

/-- What a clock can show: nanoseconds below a second, and seconds from the epoch on. -/
structure IsReading (now : Instant) : Prop where
  seconds_nonneg : 0 ≤ now.seconds
  seconds_le : now.seconds ≤ greatestSeconds
  nanos_lt : now.nanos < nanosPerSecond

/-- The point in time that lies a span later. -/
def after (now : Instant) (span : Span) : Instant :=
  ⟨now.seconds + span.seconds.toNat + ((now.nanos + span.nanos) / nanosPerSecond : Nat),
    (now.nanos + span.nanos) % nanosPerSecond⟩

theorem toNanos_after (now : Instant) (span : Span) :
    (now.after span).toNanos = now.toNanos + span.toNanos := by
  unfold after toNanos Span.toNanos nanosPerSecond
  dsimp only
  omega

/-- The last point in time that can be told. -/
def latest : Instant := ⟨greatestSeconds, nanosPerSecond - 1⟩

theorem IsReading.le_latest {now : Instant} (hnow : now.IsReading) :
    now.toNanos ≤ latest.toNanos := by
  have hto := hnow.seconds_le
  have hnanos := hnow.nanos_lt
  unfold toNanos latest
  unfold nanosPerSecond at *
  dsimp only
  omega

end Instant

/-- A deadline keeps its word: it lies the span after now, or in the last second that can be
told when the seconds of that point in time are too many, and it is not in the past. -/
structure KeepsWord (now : Instant) (timeout : Span) : Prop where
  nanos_lt : (deadline now timeout).nanos < nanosPerSecond
  lies_after : (now.after timeout).seconds ≤ greatestSeconds →
    deadline now timeout = now.after timeout
  stops : greatestSeconds < (now.after timeout).seconds →
    (deadline now timeout).seconds = greatestSeconds
  not_past : now.toNanos ≤ (deadline now timeout).toNanos

/-- Up to a longest span, longer spans have later deadlines. -/
def DeadlinesAscend (now : Instant) (longest : Span) : Prop :=
  ∀ timeout timeout' : Span, timeout.toNanos ≤ timeout'.toNanos →
    timeout'.toNanos ≤ longest.toNanos →
    (deadline now timeout).toNanos ≤ (deadline now timeout').toNanos

section Arithmetic

variable {now : Instant} {timeout timeout' : Span}

/-- Seconds that fit into a signed number are taken for what they are. -/
theorem signedSeconds_of_lt {seconds : UInt64} (hfits : seconds.toNat < 0x8000000000000000) :
    signedSeconds seconds = seconds.toNat := by
  unfold signedSeconds UInt64.size
  apply Int.bmod_eq_of_le <;> omega

/-- More seconds than fit into a signed number are taken for a negative number. -/
theorem signedSeconds_of_ge {seconds : UInt64} (hmany : 0x8000000000000000 ≤ seconds.toNat) :
    signedSeconds seconds = seconds.toNat - 0x10000000000000000 := by
  have hlt := seconds.toNat_lt
  unfold signedSeconds UInt64.size
  rw [Int.bmod_eq_iff (by decide)]
  omega

/-- Stopping twice at the greatest number is stopping once. -/
theorem saturate_saturate_add {n carried : Int} (hn : 0 ≤ n) (hcarried : 0 ≤ carried) :
    saturate (saturate n + carried) = min (n + carried) greatestSeconds := by
  unfold saturate leastSeconds greatestSeconds
  omega

/-- The deadline of a span whose seconds fit into a signed number. -/
theorem deadline_of_lt (hnow : now.IsReading) (hfits : timeout.seconds.toNat < 0x8000000000000000) :
    deadline now timeout =
      ⟨min (now.after timeout).seconds greatestSeconds, (now.after timeout).nanos⟩ := by
  have hfrom := hnow.seconds_nonneg
  unfold deadline Instant.after
  rw [signedSeconds_of_lt hfits]
  dsimp only
  rw [saturate_saturate_add (by omega) (Int.natCast_nonneg _)]

/-- Such a deadline does not lie before the epoch. -/
theorem toNanos_deadline_nonneg (hfrom : 0 ≤ now.seconds)
    (hfits : timeout.seconds.toNat < 0x8000000000000000) :
    0 ≤ (deadline now timeout).toNanos := by
  unfold deadline Instant.toNanos
  rw [signedSeconds_of_lt hfits]
  dsimp only
  rw [saturate_saturate_add (by omega) (Int.natCast_nonneg _)]
  unfold greatestSeconds nanosPerSecond
  omega

/-- The deadline of a span whose seconds do not fit into a signed number lies before now. -/
theorem deadline_of_ge (hnow : now.IsReading) (hmany : 0x8000000000000000 ≤ timeout.seconds.toNat) :
    (deadline now timeout).toNanos < now.toNanos := by
  have hfrom := hnow.seconds_nonneg
  have hto := hnow.seconds_le
  have hnanos := hnow.nanos_lt
  have hlt := timeout.seconds.toNat_lt
  have hspan := timeout.nanos_lt
  unfold deadline Instant.toNanos saturate leastSeconds
  unfold greatestSeconds at *
  unfold nanosPerSecond at *
  -- The sum falls short of now by a second or more, and less than a second is carried.
  rw [signedSeconds_of_ge hmany]
  dsimp only
  omega

/-- A deadline that stops at the last second is in the past only when the clock is there
already, and the nanoseconds run over. -/
theorem not_past_iff (hnow : now.IsReading)
    (hfits : timeout.seconds.toNat < 0x8000000000000000) :
    now.toNanos ≤ (deadline now timeout).toNanos ↔
      (now.seconds = greatestSeconds → now.nanos + timeout.nanos < nanosPerSecond) := by
  have hto := hnow.seconds_le
  have hnanos := hnow.nanos_lt
  have hspan := timeout.nanos_lt
  rw [deadline_of_lt hnow hfits]
  unfold Instant.toNanos Instant.after
  unfold nanosPerSecond at *
  dsimp only
  omega

/-- **When a deadline keeps its word.** -/
theorem keepsWord_iff (hnow : now.IsReading) :
    KeepsWord now timeout ↔ timeout.seconds.toNat < 0x8000000000000000 ∧
      (now.seconds = greatestSeconds → now.nanos + timeout.nanos < nanosPerSecond) := by
  rcases Nat.lt_or_ge timeout.seconds.toNat 0x8000000000000000 with hfits | hmany
  · have hdeadline := deadline_of_lt hnow hfits
    constructor
    · intro hword
      exact ⟨hfits, (not_past_iff hnow hfits).1 hword.not_past⟩
    · intro h
      refine ⟨deadline_nanos_lt _ _, ?_, ?_, (not_past_iff hnow hfits).2 h.2⟩
      · intro htold
        rw [hdeadline, Int.min_eq_left htold]
      · intro hlate
        rw [hdeadline]
        exact Int.min_eq_right (Int.le_of_lt hlate)
  · have hpast := deadline_of_ge hnow hmany
    constructor
    · intro hword
      exact absurd hword.not_past (Int.not_le.2 hpast)
    · intro h
      exact absurd h.1 (Nat.not_lt.2 hmany)

/-- The deadline of a span that does not go beyond the last point in time. -/
theorem toNanos_deadline (hnow : now.IsReading)
    (htold : now.toNanos + timeout.toNanos ≤ Instant.latest.toNanos) :
    (deadline now timeout).toNanos = now.toNanos + timeout.toNanos := by
  have hfrom := hnow.seconds_nonneg
  rw [← Instant.toNanos_after] at htold ⊢
  have hafter : (now.after timeout).seconds ≤ greatestSeconds := by
    unfold Instant.toNanos Instant.latest nanosPerSecond at htold
    dsimp only at htold
    omega
  have hfits : timeout.seconds.toNat < 0x8000000000000000 := by
    unfold Instant.after greatestSeconds at hafter
    dsimp only at hafter
    have hcarried := Int.natCast_nonneg ((now.nanos + timeout.nanos) / nanosPerSecond)
    omega
  rw [deadline_of_lt hnow hfits, Int.min_eq_left hafter]

/-- A span that goes beyond the last point in time by a nanosecond has its deadline before it:
the nanoseconds start again while the seconds stop. -/
theorem toNanos_deadline_of_first (hnow : now.IsReading)
    (hfirst : now.toNanos + timeout.toNanos = Instant.latest.toNanos + 1) :
    (deadline now timeout).toNanos < Instant.latest.toNanos := by
  rcases Nat.lt_or_ge timeout.seconds.toNat 0x8000000000000000 with hfits | hmany
  · have hstarts : (now.after timeout).nanos < nanosPerSecond := Nat.mod_lt _ (by decide)
    rw [← Instant.toNanos_after] at hfirst
    rw [deadline_of_lt hnow hfits]
    unfold Instant.toNanos Instant.latest at *
    unfold nanosPerSecond at *
    dsimp only at *
    omega
  · have hpast := deadline_of_ge hnow hmany
    have hspan : 0 < timeout.toNanos := by
      unfold Span.toNanos nanosPerSecond
      omega
    omega

/-- There is a span for whatever is not longer than a span. -/
theorem Span.exists_of_le (longest : Span) {n : Nat} (hn : n ≤ longest.toNanos) :
    ∃ span : Span, span.toNanos = n := by
  have hlt := longest.seconds.toNat_lt
  have hspan := longest.nanos_lt
  unfold toNanos at *
  have hseconds : n / nanosPerSecond < 2 ^ 64 := by
    unfold nanosPerSecond at *
    omega
  refine ⟨⟨.ofNat (n / nanosPerSecond), n % nanosPerSecond, Nat.mod_lt _ (by decide)⟩, ?_⟩
  dsimp only
  rw [UInt64.toNat_ofNat_of_lt' hseconds, Nat.mul_comm]
  exact Nat.div_add_mod _ _

/-- **How far longer spans have later deadlines.** -/
theorem deadlinesAscend_iff (hnow : now.IsReading) (longest : Span) :
    DeadlinesAscend now longest ↔
      now.toNanos + longest.toNanos ≤ Instant.latest.toNanos := by
  constructor
  · intro hascend
    by_cases htold : now.toNanos + longest.toNanos ≤ Instant.latest.toNanos
    · exact htold
    · -- Of two spans that differ by a nanosecond one ends at the last point in time.
      obtain ⟨n, hn⟩ := Int.eq_ofNat_of_zero_le (Int.sub_nonneg.2 hnow.le_latest)
      obtain ⟨last, hlast⟩ := longest.exists_of_le (n := n) (by omega)
      obtain ⟨beyond, hbeyond⟩ := longest.exists_of_le (n := n + 1) (by omega)
      have hfalls := hascend last beyond (by omega) (by omega)
      rw [toNanos_deadline hnow (by omega)] at hfalls
      have hfirst : now.toNanos + beyond.toNanos = Instant.latest.toNanos + 1 := by omega
      have hless := toNanos_deadline_of_first hnow hfirst
      omega
  · intro htold timeout timeout' hle hlongest
    rw [toNanos_deadline hnow (by omega), toNanos_deadline hnow (by omega)]
    omega

end Arithmetic

/-! ## Giving up -/

/-- An attempt to take a lock ends with the deadline. -/
def Host.GivesUp (place : LockPlace) (p : Party) (timeout readTimeout : Span) (mode : LockMode)
    (holder : String) (h h' : Host) : Prop :=
  ∃ name holder', lock place p timeout readTimeout mode holder h =
    .error (.error (.lockTimeout name holder')) h'

theorem Host.GivesUp.clock {place : LockPlace} {p : Party} {timeout readTimeout : Span}
    {mode : LockMode} {holder : String} {h h' : Host}
    (hgives : GivesUp place p timeout readTimeout mode holder h h') :
    h'.clock = max h.clock (deadline h.now (mode.wait timeout readTimeout)).toNanos.toNat := by
  obtain ⟨name, holder', hrun⟩ := hgives
  exact clock_of_lockTimeout hrun

variable {now : Instant}

/-- A lock is not waited for longer with a shorter timeout. -/
theorem LockMode.toNanos_wait_le (mode : LockMode) {timeout timeout' : Span}
    (hle : timeout.toNanos ≤ timeout'.toNanos) (readTimeout : Span) :
    (mode.wait timeout readTimeout).toNanos ≤ (mode.wait timeout' readTimeout).toNanos := by
  cases mode with
  | write => exact hle
  | read =>
      unfold wait Span.shorter
      dsimp only
      split <;> split <;> omega

/-- Who waits longer for a lock does not give it up earlier, as long as the deadlines can be
told. -/
theorem Host.GivesUp.clock_le (hnow : now.IsReading) {place : LockPlace} {p : Party}
    {timeout timeout' readTimeout : Span} {mode : LockMode} {holder : String} {h h₁ h₂ : Host}
    (hclock : h.now = now) (hle : timeout.toNanos ≤ timeout'.toNanos)
    (htold : now.toNanos + (mode.wait timeout' readTimeout).toNanos ≤ Instant.latest.toNanos)
    (hshort : GivesUp place p timeout readTimeout mode holder h h₁)
    (hlong : GivesUp place p timeout' readTimeout mode holder h h₂) : h₁.clock ≤ h₂.clock := by
  have hwait := mode.toNanos_wait_le hle readTimeout
  have hdeadlines := (deadlinesAscend_iff hnow _).2 htold _ _ hwait (Nat.le_refl _)
  rw [hshort.clock, hlong.clock, hclock]
  omega

/-- **When deadlines hold.**  A deadline keeps its word just when the seconds of the span fit
into a signed number and the clock is not about to run over.  Longer spans have later deadlines
just as far as they do not go beyond the last point in time.  Whoever gives up a lock does so
at the deadline, and so far nobody who waits longer gives up earlier. -/
theorem deadlines_hold_iff (hnow : now.IsReading) :
    (∀ timeout, KeepsWord now timeout ↔ timeout.seconds.toNat < 0x8000000000000000 ∧
      (now.seconds = greatestSeconds → now.nanos + timeout.nanos < nanosPerSecond)) ∧
    (∀ longest, DeadlinesAscend now longest ↔
      now.toNanos + longest.toNanos ≤ Instant.latest.toNanos) ∧
    (∀ place p timeout readTimeout mode holder h h', h.now = now →
      Host.GivesUp place p timeout readTimeout mode holder h h' →
      h'.clock = max h.clock (deadline now (mode.wait timeout readTimeout)).toNanos.toNat) ∧
    (∀ place p timeout timeout' readTimeout mode holder h h₁ h₂, h.now = now →
      timeout.toNanos ≤ timeout'.toNanos →
      now.toNanos + (mode.wait timeout' readTimeout).toNanos ≤ Instant.latest.toNanos →
      Host.GivesUp place p timeout readTimeout mode holder h h₁ →
      Host.GivesUp place p timeout' readTimeout mode holder h h₂ →
      h₁.clock ≤ h₂.clock) := by
  refine ⟨fun _ => keepsWord_iff hnow, deadlinesAscend_iff hnow, ?_, ?_⟩
  · intro place p timeout readTimeout mode holder h h' hclock hgives
    rw [← hclock]
    exact hgives.clock
  · intro place p timeout timeout' readTimeout mode holder h h₁ h₂ hclock hle htold hshort hlong
    exact hshort.clock_le hnow hclock hle htold hlong

namespace ReadingRoom

/-- A host with a lock that somebody is reading under. -/
def room : Host := { Host.fresh with locks := [{ RwLock.fresh .plain with readers := 1 }] }

def second : Span := .ofSeconds 1

def twoSeconds : Span := .ofSeconds 2

/-- As long as a span can be in whole seconds. -/
def longest : Span := .ofSeconds 0xFFFFFFFFFFFFFFFF

theorem isReading_room : room.now.IsReading := ⟨by decide, by decide, by decide⟩

end ReadingRoom

open ReadingRoom

/-- In the reading room the deadline of a second holds and that of the longest span does not,
and a writer who waits for two seconds does not give up before one who waits for one. -/
theorem deadlines_hold_iff_room : room.now.IsReading ∧ KeepsWord room.now second ∧
    ¬ KeepsWord room.now longest ∧ DeadlinesAscend room.now second ∧
    ¬ DeadlinesAscend room.now longest ∧
    ∃ h₁ h₂, Host.GivesUp (.loose 0) mainParty second second .write "" room h₁ ∧
      Host.GivesUp (.loose 0) mainParty twoSeconds second .write "" room h₂ ∧
      h₁.clock = room.clock + nanosPerSecond ∧ h₁.clock ≤ h₂.clock := by
  obtain ⟨hkeeps, hascend, hgives, hlater⟩ := deadlines_hold_iff isReading_room
  refine ⟨isReading_room, (hkeeps second).2 ⟨by decide, by decide⟩, ?_,
    (hascend second).2 (by decide), ?_, ?_⟩
  · intro hword
    exact absurd ((hkeeps longest).1 hword).1 (by decide)
  · intro hall
    exact absurd ((hascend longest).1 hall) (by decide)
  · obtain ⟨h₁, hshort⟩ :
        ∃ h₁, Host.GivesUp (.loose 0) mainParty second second .write "" room h₁ :=
      ⟨_, "write", "", rfl⟩
    obtain ⟨h₂, hlong⟩ :
        ∃ h₂, Host.GivesUp (.loose 0) mainParty twoSeconds second .write "" room h₂ :=
      ⟨_, "write", "", rfl⟩
    have hend := hgives _ _ _ _ _ _ _ _ rfl hshort
    exact ⟨h₁, h₂, hshort, hlong, hend.trans (by decide),
      hlater _ _ _ _ _ _ _ _ _ _ rfl (by decide) (by decide) hshort hlong⟩

/-- The deadline of the longest span is a second before now, so that a writer who waits as long
gives up at once, before one who waits for a second. -/
theorem longest_wait_ends_first : room.now.IsReading ∧
    (deadline room.now longest).toNanos + nanosPerSecond = room.now.toNanos ∧
    ∃ h₁ h₂, Host.GivesUp (.loose 0) mainParty second second .write "" room h₁ ∧
      Host.GivesUp (.loose 0) mainParty longest second .write "" room h₂ ∧
      h₂.clock < h₁.clock := by
  refine ⟨isReading_room, by decide, ?_⟩
  exact ⟨_, _, ⟨"write", "", rfl⟩, ⟨"write", "", rfl⟩, by decide⟩

end Subscription
