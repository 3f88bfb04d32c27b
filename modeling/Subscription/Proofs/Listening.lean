import Subscription.Proofs.EventJournal
import Subscription.Store.Poll

/-!
# Who has heard what

A segment shows one event at a time, and its request id is a counter of thirty-two
bits.  To say what a subscriber to changes has been told over the time, one has to
remember more than the program does: of a segment, all that was published in it
(`Chronicle`), and of a subscriber, the numbers of the publications that it has been
told about (`Listener`).

A listener *follows* a chronicle when it has heard of publications of its own priority
alone, each of them once and in their order, and when what the subscriber remembers is
the request and the event of the last of them (`Listener.Follows`).  This is what ties
the memory of the subscriber to the past of the segment:

* the event that a segment shows is told to nobody who has heard of it
  (`Follows.shows_of_isTold`);
* it is told to everybody of its priority who has not, as long as the counter has not
  come round since the listener heard of something (`Follows.isTold_of_shows`);
* listeners keep following when they are told (`Follows.told`) and when something is
  published or marked as consumed (`Follows.of_prefix`).
-/

namespace Subscription

/-! ## The past of a segment -/

/-- What was published in a segment. -/
structure Posting where
  record : EventRecord
  payload : List UInt8
  deriving DecidableEq, Repr, Inhabited

/-- What a segment holds after a publication, if it is the one with the given number;
publications are counted from zero, and request ids from one. -/
def Posting.snapshot (p : Posting) (n : Nat) : Snapshot :=
  ⟨p.record.event, UInt32.ofNat (n + 1), p.record.sid, p.record.ncSid, some p.record.priority,
    some 0, p.payload⟩

/-- The past of a segment of subscribers to changes: all that was published, from the
first publication on, and whether the last one has been marked as consumed. -/
structure Chronicle where
  postings : List Posting
  consumed : Bool
  deriving DecidableEq, Repr, Inhabited

namespace Chronicle

/-- Nothing has been published. -/
def blank : Chronicle := ⟨[], false⟩

/-- What a segment with this past holds. -/
def cell (t : Chronicle) : Snapshot :=
  match t.postings.getLast? with
  | none => .blank .multi
  | some p =>
      { event := if t.consumed then .none else p.record.event
        requestId := UInt32.ofNat t.postings.length
        sid := p.record.sid
        ncSid := p.record.ncSid
        priority := some p.record.priority
        subscriberCount := some 0
        payload := if t.consumed then [] else p.payload }

/-- The past after a use of the segment. -/
def after (t : Chronicle) : Use → Chronicle
  | .publish record payload => ⟨t.postings ++ [⟨record, payload⟩], false⟩
  | .consume => { t with consumed := true }
  | .read => t

/-- The segment shows the event of the publication with a number. -/
structure Shows (t : Chronicle) (n : Nat) (p : Posting) : Prop where
  last : t.postings.length = n + 1
  posting : t.postings[n]? = some p
  unconsumed : t.consumed = false
  event : p.record.event ≠ .none

variable {t : Chronicle} {n : Nat} {p : Posting}

theorem getLast?_postings (hlast : t.postings.length = n + 1) :
    t.postings.getLast? = t.postings[n]? := by
  rw [List.getLast?_eq_getElem?, hlast, Nat.add_sub_cancel]

/-- **Uses of the segment** do to what it holds what they do to a cell. -/
theorem cell_after (t : Chronicle) (use : Use) : (t.after use).cell = t.cell.after use := by
  obtain ⟨postings, consumed⟩ := t
  cases use with
  | publish record payload =>
      cases hlast : postings.getLast? with
      | none =>
          rw [List.getLast?_eq_none_iff] at hlast
          subst hlast
          rfl
      | some p =>
          simp [cell, after, Snapshot.after, Snapshot.posted, hlast]
  | consume =>
      cases hlast : postings.getLast? with
      | none => simp [cell, after, Snapshot.after, Snapshot.cleared, Snapshot.blank, hlast]
      | some p => simp [cell, after, Snapshot.after, Snapshot.cleared, hlast]
  | read => rfl

/-- A use adds to what was published, and takes nothing away. -/
theorem prefix_after (t : Chronicle) (use : Use) : t.postings <+: (t.after use).postings := by
  cases use with
  | publish record payload => exact List.prefix_append _ _
  | consume => exact List.prefix_refl _
  | read => exact List.prefix_refl _

/-- A segment that holds an event shows that of its last publication. -/
theorem exists_shows (hevent : t.cell.event ≠ .none) :
    ∃ n p, t.Shows n p ∧ t.cell.event = p.record.event := by
  cases hlast : t.postings.getLast? with
  | none => simp [cell, hlast, Snapshot.blank] at hevent
  | some p =>
      have hopen : t.consumed = false := by
        rw [← Bool.not_eq_true]
        intro hconsumed
        simp [cell, hlast, hconsumed] at hevent
      have hcell : t.cell.event = p.record.event := by simp [cell, hlast, hopen]
      have hpos : t.postings.length ≠ 0 := by
        intro hzero
        simp [List.length_eq_zero_iff.1 hzero] at hlast
      obtain ⟨n, hn⟩ := Nat.exists_eq_succ_of_ne_zero hpos
      refine ⟨n, p, ⟨hn, ?_, hopen, hcell ▸ hevent⟩, hcell⟩
      rw [← getLast?_postings hn, hlast]

/-- What a segment that shows an event holds. -/
theorem Shows.cell_eq (hshows : t.Shows n p) : t.cell = p.snapshot n := by
  have hlast := getLast?_postings hshows.last
  rw [hshows.posting] at hlast
  simp [cell, hlast, hshows.unconsumed, hshows.last, Posting.snapshot]

end Chronicle

/-! ## Listeners -/

/-- A subscriber, with the numbers of the publications that it has been told about, the
last one at the end. -/
structure Listener where
  sub : ChangeSub
  heard : List Nat
  deriving DecidableEq, Repr, Inhabited

namespace Listener

/-- Whether a listener that is shown the segment is told about it. -/
def isTold (l : Listener) (t : Chronicle) : Bool := l.sub.isDue t.cell

/-- A listener that has been shown the segment. -/
def told (l : Listener) (t : Chronicle) : Listener :=
  if l.isTold t then ⟨l.sub.take t.cell, l.heard ++ [t.postings.length - 1]⟩ else l

/-- What a listener has heard of, and what the subscriber remembers. -/
structure Follows (l : Listener) (t : Chronicle) : Prop where
  /-- It has heard of everything once. -/
  once : l.heard.Pairwise (· < ·)
  /-- It has heard of publications of its own priority. -/
  own : ∀ n ∈ l.heard, ∃ p, t.postings[n]? = some p ∧ p.record.priority = l.sub.priority
  /-- It remembers nothing as long as it has not heard of anything, ... -/
  fresh : l.heard = [] → l.sub.lastRequest = 0 ∧ l.sub.lastEvent = .none
  /-- ... and then the last publication that it has heard of. -/
  marks : ∀ n ∈ l.heard.getLast?, ∃ p, t.postings[n]? = some p ∧
    l.sub.lastRequest = UInt32.ofNat (n + 1) ∧ l.sub.lastEvent = p.record.event

variable {l : Listener} {t t' : Chronicle} {n : Nat} {p : Posting}

/-- A listener that has just subscribed. -/
theorem follows_new {sub : ChangeSub} (hrequest : sub.lastRequest = 0)
    (hevent : sub.lastEvent = .none) (t : Chronicle) : Follows ⟨sub, []⟩ t where
  once := List.Pairwise.nil
  own _ hn := by cases hn
  fresh _ := ⟨hrequest, hevent⟩
  marks _ hn := by cases hn

/-- What is published later makes no difference to what was heard. -/
theorem Follows.of_prefix (hfollows : l.Follows t) (hmore : t.postings <+: t'.postings) :
    l.Follows t' := by
  have hkept : ∀ {n : Nat} {p : Posting}, t.postings[n]? = some p →
      t'.postings[n]? = some p := by
    intro n p hp
    obtain ⟨hn, rfl⟩ := List.getElem?_eq_some_iff.1 hp
    exact List.prefix_iff_getElem?.1 hmore n hn
  refine ⟨hfollows.once, ?_, hfollows.fresh, ?_⟩
  · intro n hn
    obtain ⟨p, hp, hpriority⟩ := hfollows.own n hn
    exact ⟨p, hkept hp, hpriority⟩
  · intro n hn
    obtain ⟨p, hp, hmarks⟩ := hfollows.marks n hn
    exact ⟨p, hkept hp, hmarks⟩

theorem Follows.lt_of_mem (hfollows : l.Follows t) (hn : n ∈ l.heard) :
    n < t.postings.length := by
  obtain ⟨p, hp, -⟩ := hfollows.own n hn
  exact (List.getElem?_eq_some_iff.1 hp).1

/-- Whoever is told is of the priority of the event, and remembers another one. -/
theorem isTold_iff (hshows : t.Shows n p) :
    l.isTold t = true ↔ l.sub.priority = p.record.priority ∧
      (UInt32.ofNat (n + 1) ≠ l.sub.lastRequest ∨ p.record.event ≠ l.sub.lastEvent) := by
  simp [isTold, ChangeSub.isDue, Snapshot.isNew, hshows.cell_eq, Posting.snapshot, hshows.event]

/-- Of what was heard, the number of the last publication is the last one. -/
theorem Follows.getLast?_of_mem (hfollows : l.Follows t) (hlast : t.postings.length = n + 1)
    (hn : n ∈ l.heard) : l.heard.getLast? = some n := by
  have hne : l.heard ≠ [] := List.ne_nil_of_mem hn
  have hlt := hfollows.lt_of_mem (List.getLast_mem hne)
  have hle : n ≤ l.heard.getLast hne := by
    have hsplit := List.dropLast_concat_getLast hne
    have hordered := hfollows.once
    rw [← hsplit, List.pairwise_append] at hordered
    rw [← hsplit] at hn
    rcases List.mem_append.1 hn with hbefore | hsame
    · exact Nat.le_of_lt (hordered.2.2 n hbefore _ (by simp))
    · exact Nat.le_of_eq (List.mem_singleton.1 hsame)
  rw [List.getLast?_eq_some_getLast hne]
  congr 1
  omega

/-- **Nobody is told twice**, and nobody is told what is for others. -/
theorem Follows.shows_of_isTold (hfollows : l.Follows t) (htold : l.isTold t = true) :
    ∃ n p, t.Shows n p ∧ p.record.priority = l.sub.priority ∧ n ∉ l.heard := by
  have hevent : t.cell.event ≠ .none := by
    simp only [isTold, ChangeSub.isDue, Snapshot.isNew, Bool.and_eq_true, decide_eq_true_eq]
      at htold
    exact htold.2.1
  obtain ⟨n, p, hshows, -⟩ := Chronicle.exists_shows hevent
  obtain ⟨hpriority, hnew⟩ := (isTold_iff hshows).1 htold
  refine ⟨n, p, hshows, hpriority.symm, ?_⟩
  intro hn
  obtain ⟨p', hp', hrequest, hlast⟩ :=
    hfollows.marks n (hfollows.getLast?_of_mem hshows.last hn)
  rw [hshows.posting] at hp'
  cases hp'
  rcases hnew with hne | hne
  · exact hne hrequest.symm
  · exact hne hlast.symm

/-- Two publications that are not too far apart have different request ids. -/
theorem requestId_ne {m n : Nat} (hlt : m < n) (hnear : n < m + UInt32.size) :
    UInt32.ofNat (n + 1) ≠ UInt32.ofNat (m + 1) := by
  intro heq
  have hmod := congrArg UInt32.toNat heq
  simp only [UInt32.toNat_ofNat'] at hmod
  have hsize : UInt32.size = 2 ^ 32 := rfl
  omega

/-- **Nobody is left out**: the event that is shown is told to every listener of its
priority that has not heard of it, if fewer publications than request ids have come
since the last one that the listener has heard of. -/
theorem Follows.isTold_of_shows (hfollows : l.Follows t) (hshows : t.Shows n p)
    (hpriority : p.record.priority = l.sub.priority) (hunheard : n ∉ l.heard)
    (hnear : ∀ m ∈ l.heard.getLast?, n < m + UInt32.size) : l.isTold t = true := by
  refine (isTold_iff hshows).2 ⟨hpriority.symm, ?_⟩
  cases hheard : l.heard.getLast? with
  | none =>
      right
      rw [(hfollows.fresh (List.getLast?_eq_none_iff.1 hheard)).2]
      exact hshows.event
  | some m =>
      left
      obtain ⟨-, -, hrequest, -⟩ := hfollows.marks m hheard
      have hm : m ∈ l.heard := List.mem_of_getLast? hheard
      have hle := hfollows.lt_of_mem hm
      have hne : m ≠ n := by
        rintro rfl
        exact hunheard hm
      rw [hshows.last] at hle
      rw [hrequest]
      exact requestId_ne (by omega) (hnear m hheard)

/-- A listener that has been told still follows. -/
theorem Follows.told (hfollows : l.Follows t) : (l.told t).Follows t := by
  unfold Listener.told
  by_cases htold : l.isTold t = true
  · rw [if_pos htold]
    obtain ⟨n, p, hshows, hpriority, hunheard⟩ := hfollows.shows_of_isTold htold
    have hn : t.postings.length - 1 = n := by rw [hshows.last, Nat.add_sub_cancel]
    have hdue : l.sub.isDue t.cell = true := htold
    have hsub : l.sub.take t.cell =
        { l.sub with lastRequest := UInt32.ofNat (n + 1), lastEvent := p.record.event } := by
      rw [ChangeSub.take, if_pos hdue, hshows.cell_eq, Posting.snapshot]
    rw [hn, hsub]
    refine ⟨?_, ?_, ?_, ?_⟩
    · rw [List.pairwise_append]
      refine ⟨hfollows.once, List.pairwise_singleton _ _, ?_⟩
      intro m hm n' hn'
      rw [List.mem_singleton.1 hn']
      have hlt := hfollows.lt_of_mem hm
      have hne : m ≠ n := by
        rintro rfl
        exact hunheard hm
      rw [hshows.last] at hlt
      omega
    · intro m hm
      rcases List.mem_append.1 hm with hold | hlast
      · exact hfollows.own m hold
      · rw [List.mem_singleton.1 hlast]
        exact ⟨p, hshows.posting, hpriority⟩
    · intro hnil
      simp at hnil
    · intro m hm
      simp only [List.getLast?_append, List.getLast?_singleton, Option.some_or,
        Option.mem_def, Option.some.injEq] at hm
      subst hm
      exact ⟨p, hshows.posting, rfl, rfl⟩
  · rw [if_neg htold]
    exact hfollows

/-- Listeners of other priorities are as they were. -/
theorem told_of_other (hshows : t.Shows n p) (hother : p.record.priority ≠ l.sub.priority) :
    l.told t = l := by
  unfold told
  rw [if_neg]
  intro htold
  exact hother ((isTold_iff hshows).1 htold).1.symm

/-- What a poll does for a listener that is shown its segment. -/
structure IsServed (l : Listener) (t : Chronicle) : Prop where
  /-- It is told about an event of its priority that it has not heard of. -/
  once : l.isTold t = true →
    ∃ n p, t.Shows n p ∧ p.record.priority = l.sub.priority ∧ n ∉ l.heard
  /-- It is told about every such event, with what was published, ... -/
  all : ∀ n p, t.Shows n p → p.record.priority = l.sub.priority → n ∉ l.heard →
    (∀ m ∈ l.heard.getLast?, n < m + UInt32.size) → l.isTold t = true ∧ t.cell = p.snapshot n
  /-- ... and others leave it as it was. -/
  others : ∀ n p, t.Shows n p → p.record.priority ≠ l.sub.priority → l.told t = l

/-- **Whoever follows is served.** -/
theorem Follows.isServed (hfollows : l.Follows t) : l.IsServed t where
  once := hfollows.shows_of_isTold
  all _ _ hshows hpriority hunheard hnear :=
    ⟨hfollows.isTold_of_shows hshows hpriority hunheard hnear, hshows.cell_eq⟩
  others _ _ := told_of_other

theorem sub_told (l : Listener) (t : Chronicle) : (l.told t).sub = l.sub.take t.cell := by
  unfold told
  by_cases htold : l.isTold t = true
  · rw [if_pos htold]
  · rw [if_neg htold]
    have hdue : ¬ l.sub.isDue t.cell = true := htold
    rw [ChangeSub.take, if_neg hdue]

end Listener

end Subscription
