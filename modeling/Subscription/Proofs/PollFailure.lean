import Subscription.Store.Poll
import Subscription.Proofs.Opening

/-!
# What a failed poll costs

A poll reads the segments of the change groups in turn and notes with the
subscribers of each group that they have taken its event, before it reads the
next one.  When a segment cannot be read, the poll fails and reports nothing,
but what was noted with the groups in front stays noted.

So a failed poll costs what the groups in front of the failing one had to report,
and nothing else.  It changes no mark, and later polls report what they would have
reported without it, exactly when none of these groups had an event for any of its
subscribers: `failed_poll_costs_nothing_iff`.  In general it does cost something
(`failed_poll_costs_an_event`).
-/

namespace Subscription

namespace Store

/-- Reading the segments of groups one after the other, each of them with
success. -/
inductive Readings (readTimeout timeout : Span) :
    List (Group ChangeChannel ChangeSub) → Host → List Snapshot → Host → Prop
  | nil (h : Host) : Readings readTimeout timeout [] h [] h
  | cons {g : Group ChangeChannel ChangeSub} {rest : List (Group ChangeChannel ChangeSub)}
      {h h' : Host} {a : Attached} {snapshot : Snapshot} {snapshots : List Snapshot}
      (hread : Segment.readEvent .multi readTimeout timeout ⟨g.shared.segment, h⟩ =
        .ok snapshot a)
      (hrest : Readings readTimeout timeout rest a.host snapshots h') :
      Readings readTimeout timeout (g :: rest) h (snapshot :: snapshots) h'

/-- What is noted with the subscribers of a group: the last request that each of
them has taken, with its event. -/
def marksOf (g : Group ChangeChannel ChangeSub) : List (UInt32 × Event) :=
  g.subs.toList.map fun sub => (sub.lastRequest, sub.lastEvent)

/-- What is noted with all subscribers to changes. -/
def marks (s : Store) : List (List (UInt32 × Event)) := s.changes.toList.map marksOf

/-- What the groups of a store have to report when their segments hold the given
snapshots. -/
def due (s : Store) (snapshots : List Snapshot) : List (List ChangeNews) :=
  List.zipWith newsOf s.changes.toList snapshots

/-- No group has an event for any of its subscribers. -/
def Quiet (groups : List (Group ChangeChannel ChangeSub)) (snapshots : List Snapshot) : Prop :=
  ∀ p ∈ groups.zip snapshots, ∀ sub ∈ p.1.subs.toList, sub.isDue p.2 = false

/-- A group apart from its handle. -/
def bare (g : Group ChangeChannel ChangeSub) : Group ChangeChannel ChangeSub :=
  withSegment g .unowned

end Store

/-! ## Taking an event -/

namespace ChangeSub

variable {sub : ChangeSub} {snapshot : Snapshot}

/-- Nobody takes the same event twice. -/
theorem isDue_take (sub : ChangeSub) (snapshot : Snapshot) :
    (sub.take snapshot).isDue snapshot = false := by
  unfold take
  split
  · simp [isDue, Snapshot.isNew]
  · simpa using ‹¬ sub.isDue snapshot = true›

/-- What is noted changes when an event is taken, and only then. -/
theorem take_marks_iff :
    ((sub.take snapshot).lastRequest, (sub.take snapshot).lastEvent) =
      (sub.lastRequest, sub.lastEvent) ↔ sub.isDue snapshot = false := by
  by_cases hdue : sub.isDue snapshot = true
  · have hnew : snapshot.requestId ≠ sub.lastRequest ∨ snapshot.event ≠ sub.lastEvent := by
      simp only [isDue, Snapshot.isNew, Bool.and_eq_true, Bool.or_eq_true,
        decide_eq_true_eq] at hdue
      exact hdue.2.2
    simp only [take, hdue, Prod.mk.injEq]
    constructor
    · rintro ⟨hrequest, hevent⟩
      rcases hnew with hne | hne
      · exact absurd hrequest hne
      · exact absurd hevent hne
    · intro hfalse
      cases hfalse
  · simp [take, hdue]

end ChangeSub

namespace Store

variable {g : Group ChangeChannel ChangeSub} {snapshot : Snapshot}

theorem newsOf_eq_nil_iff :
    newsOf g snapshot = [] ↔ ∀ sub ∈ g.subs.toList, sub.isDue snapshot = false := by
  unfold newsOf
  cases hdue : g.subs.toList.filter fun sub => sub.isDue snapshot with
  | nil =>
      rw [List.filter_eq_nil_iff] at hdue
      simpa using hdue
  | cons sub rest =>
      have hmem : sub ∈ g.subs.toList.filter fun sub => sub.isDue snapshot := by
        rw [hdue]
        exact List.mem_cons_self
      rw [List.mem_filter] at hmem
      constructor
      · intro hnil
        cases hnil
      · intro hnone
        rw [hnone sub hmem.1] at hmem
        cases hmem.2

/-- A group that was shown an event has nothing to report about it any more. -/
theorem newsOf_showEvent (g : Group ChangeChannel ChangeSub) (snapshot : Snapshot) :
    newsOf (showEvent g snapshot) snapshot = [] := by
  rw [newsOf_eq_nil_iff]
  intro sub hsub
  obtain ⟨old, -, rfl⟩ := List.mem_map.1 hsub
  exact old.isDue_take snapshot

/-- Showing an event to a group changes nothing that is noted, exactly when the
group has nothing to report. -/
theorem marksOf_showEvent_iff :
    marksOf (showEvent g snapshot) = marksOf g ↔ newsOf g snapshot = [] := by
  have hmarks : marksOf (showEvent g snapshot) = g.subs.toList.map fun sub =>
      ((sub.take snapshot).lastRequest, (sub.take snapshot).lastEvent) :=
    List.map_map
  rw [newsOf_eq_nil_iff, hmarks, marksOf, List.map_inj_left]
  constructor
  · intro h sub hsub
    exact ChangeSub.take_marks_iff.1 (h sub hsub)
  · intro h sub hsub
    exact ChangeSub.take_marks_iff.2 (h sub hsub)

/-! ## Polls -/

variable {readTimeout timeout : Span} {groups groups' : List (Group ChangeChannel ChangeSub)}
  {h h' : Host}

/-- A poll that succeeds has read every group, and shown it what was read. -/
theorem pollGroups_ok {news : List ChangeNews}
    (hpoll : pollGroups readTimeout timeout groups h = (.ok news, groups', h')) :
    ∃ snapshots, Readings readTimeout timeout groups h snapshots h' ∧
      news = (List.zipWith newsOf groups snapshots).flatten ∧
      groups'.map bare = List.zipWith (fun g s => bare (showEvent g s)) groups snapshots := by
  induction groups generalizing news groups' h with
  | nil =>
      cases hpoll
      exact ⟨[], .nil _, rfl, rfl⟩
  | cons g rest ih =>
      unfold pollGroups at hpoll
      split at hpoll
      · cases hpoll
      · rename_i snapshot a hread
        split at hpoll
        · rename_i news₁ groups₁ h₁ hrest
          cases hpoll
          obtain ⟨snapshots, hreadings, hnews, hgroups⟩ := ih hrest
          refine ⟨snapshot :: snapshots, .cons hread hreadings, ?_, ?_⟩
          · rw [hnews]
            rfl
          · rw [List.map_cons, hgroups]
            rfl
        · cases hpoll

/-- A poll that fails has read the groups up to the one that could not be read,
and has left alone those from there on. -/
theorem pollGroups_error {e : Failure}
    (hpoll : pollGroups readTimeout timeout groups h = (.error e, groups', h')) :
    ∃ before bad after snapshots middle a, groups = before ++ bad :: after ∧
      Readings readTimeout timeout before h snapshots middle ∧
      Segment.readEvent .multi readTimeout timeout ⟨bad.shared.segment, middle⟩ =
        .error e a ∧
      groups'.map bare = List.zipWith (fun g s => bare (showEvent g s)) before snapshots ++
        (bad :: after).map bare := by
  induction groups generalizing e groups' h with
  | nil => cases hpoll
  | cons g rest ih =>
      unfold pollGroups at hpoll
      split at hpoll
      · rename_i e' a hread
        cases hpoll
        exact ⟨[], g, rest, [], h, a, rfl, .nil h, hread, rfl⟩
      · rename_i snapshot a hread
        split at hpoll
        · cases hpoll
        · rename_i e' groups₁ h₁ hrest
          cases hpoll
          obtain ⟨before, bad, after, snapshots, middle, a', hsplit, hreadings, hbad, hgroups⟩ :=
            ih hrest
          refine ⟨g :: before, bad, after, snapshot :: snapshots, middle, a', ?_,
            .cons hread hreadings, hbad, ?_⟩
          · rw [hsplit]
            rfl
          · rw [List.map_cons, hgroups]
            rfl

theorem Readings.length_eq {snapshots : List Snapshot}
    (hreadings : Readings readTimeout timeout groups h snapshots h') :
    snapshots.length = groups.length := by
  induction hreadings with
  | nil => rfl
  | cons _ _ ih => rw [List.length_cons, List.length_cons, ih]

/-! ## What is lost -/

section Loss

variable {before after : List (Group ChangeChannel ChangeSub)}
  {bad : Group ChangeChannel ChangeSub} {snapshots : List Snapshot}

/-- What was noted with the groups in front of the failing one is as before,
exactly when none of them had anything to report. -/
theorem marks_shown_iff (hlen : snapshots.length = before.length)
    (hgroups : groups.map bare =
      List.zipWith (fun g s => bare (showEvent g s)) before snapshots ++
        (bad :: after).map bare) :
    groups.map marksOf = (before ++ bad :: after).map marksOf ↔ Quiet before snapshots := by
  have hbare : groups.map marksOf = (groups.map bare).map marksOf := by
    rw [List.map_map]
    rfl
  have hshown : (List.zipWith (fun g s => bare (showEvent g s)) before snapshots).map marksOf =
      (before.zip snapshots).map fun p => marksOf (showEvent p.1 p.2) := by
    rw [List.map_zipWith, ← List.map_uncurry_zip_eq_zipWith]
    rfl
  have hold : before.map marksOf = (before.zip snapshots).map fun p => marksOf p.1 := by
    calc before.map marksOf
        = ((before.zip snapshots).map Prod.fst).map marksOf := by
            rw [List.map_fst_zip (Nat.le_of_eq hlen.symm)]
      _ = (before.zip snapshots).map fun p => marksOf p.1 := List.map_map
  have htail : ((bad :: after).map bare).map marksOf = (bad :: after).map marksOf := by
    rw [List.map_map]
    rfl
  rw [hbare, hgroups, List.map_append, List.map_append, htail, List.append_left_inj, hshown, hold,
    List.map_inj_left]
  constructor
  · intro h p hp
    exact newsOf_eq_nil_iff.1 (marksOf_showEvent_iff.1 (h p hp))
  · intro h p hp
    exact marksOf_showEvent_iff.2 (newsOf_eq_nil_iff.2 (h p hp))

/-- What is due when the groups in front hold what was read is what was due before,
exactly when none of them had anything to report. -/
theorem due_shown_iff (hlen : snapshots.length = before.length)
    (hgroups : groups.map bare =
      List.zipWith (fun g s => bare (showEvent g s)) before snapshots ++
        (bad :: after).map bare) (rest : List Snapshot) :
    List.zipWith newsOf groups (snapshots ++ rest) =
        List.zipWith newsOf (before ++ bad :: after) (snapshots ++ rest) ↔
      Quiet before snapshots := by
  have hbare : ∀ gs : List (Group ChangeChannel ChangeSub), ∀ now,
      List.zipWith newsOf (gs.map bare) now = List.zipWith newsOf gs now := by
    intro gs now
    rw [List.zipWith_map_left]
    rfl
  have hshown : List.zipWith newsOf
      (List.zipWith (fun g s => bare (showEvent g s)) before snapshots) snapshots =
        (before.zip snapshots).map fun _ => [] := by
    clear hgroups
    induction before generalizing snapshots with
    | nil => rfl
    | cons g gs ih =>
        cases snapshots with
        | nil => rfl
        | cons s rest =>
            have hnone : newsOf (bare (showEvent g s)) s = [] := newsOf_showEvent g s
            rw [List.zipWith_cons_cons, List.zipWith_cons_cons, hnone, ih (by simpa using hlen)]
            rfl
  have hold : List.zipWith newsOf before snapshots =
      (before.zip snapshots).map fun p => newsOf p.1 p.2 := by
    rw [← List.map_uncurry_zip_eq_zipWith]
    rfl
  rw [← hbare groups, hgroups, List.zipWith_append (by simp [hlen]), hbare,
    List.zipWith_append hlen.symm, List.append_left_inj, hshown, hold, List.map_inj_left]
  constructor
  · intro h p hp
    exact newsOf_eq_nil_iff.1 (h p hp).symm
  · intro h p hp
    exact (newsOf_eq_nil_iff.2 (h p hp)).symm

end Loss

/-- **What a failed poll costs.**  A poll that fails has read some groups, and has
failed to read the next one.  Nothing that is noted with any subscriber has
changed, exactly when none of the groups that were read had an event for any of
its subscribers.  In the same case, and in no other, every later poll that
succeeds while these groups still hold what was read reports, group by group, what
it would have reported without the failed one. -/
theorem failed_poll_costs_nothing_iff {s s' : Store} {cfg : Config} {timeout : Span}
    {host host' : Host} {e : Failure} (hfail : s.poll cfg timeout host = (.error e, s', host')) :
    ∃ before bad after snapshots middle a, s.changes.toList = before ++ bad :: after ∧
      Readings cfg.readSpan timeout before host snapshots middle ∧
      Segment.readEvent .multi cfg.readSpan timeout ⟨bad.shared.segment, middle⟩ =
        .error e a ∧
      (s'.marks = s.marks ↔ Quiet before snapshots) ∧
      ∀ (cfg' : Config) (timeout' : Span) (later : Host) news s'' later',
        s'.poll cfg' timeout' later = (.ok news, s'', later') →
          ∃ now, Readings cfg'.readSpan timeout' s'.changes.toList later now later' ∧
            news = (s'.due now).flatten ∧
            (snapshots <+: now → (s'.due now = s.due now ↔ Quiet before snapshots)) := by
  unfold poll at hfail
  split at hfail
  rename_i result groups h' hpoll
  cases hfail
  obtain ⟨before, bad, after, snapshots, middle, a, hsplit, hreadings, hbad, hgroups⟩ :=
    pollGroups_error hpoll
  have hlen := hreadings.length_eq
  refine ⟨before, bad, after, snapshots, middle, a, hsplit, hreadings, hbad, ?_, ?_⟩
  · rw [marks, marks, hsplit]
    exact marks_shown_iff hlen hgroups
  · intro cfg' timeout' later news s'' later' hlater
    unfold poll at hlater
    split at hlater
    rename_i result₂ groups₂ h₂ hpoll₂
    cases hlater
    obtain ⟨now, hnow, hnews, -⟩ := pollGroups_ok hpoll₂
    refine ⟨now, hnow, hnews, ?_⟩
    rintro ⟨rest, rfl⟩
    rw [due, due, hsplit]
    exact due_shown_iff hlen hgroups rest

/-- A group with one subscriber of priority 9, which has not taken any event. -/
def groupOn (module : String) (file : FileId) : Group ChangeChannel ChangeSub :=
  ⟨⟨module, .running, ⟨some file, none⟩⟩, ⟨[⟨none, 9, default, "callback", none, 0, .none⟩]⟩⟩

/-- A store with groups on the first two files of a host. -/
def twoGroups : Store := { empty with changes := ⟨[groupOn "m" 0, groupOn "n" 1]⟩ }

/-- A host with two files. -/
def twoFiles (first second : Content) : Host :=
  { Host.fresh with
    disk :=
      ⟨[(["m"], .file 0), (["n"], .file 1)], [.regular 0o600 first, .regular 0o600 second]⟩ }

set_option maxRecDepth 10000 in
/-- The second of two groups fails, its file being empty, behind a first one that holds no
event. -/
theorem failed_poll_costs_nothing_iff_empty :
    ∃ e s' host', twoGroups.poll .standard default (twoFiles (Content.fresh .multi) .empty) =
        (.error e, s', host') ∧ s'.marks = twoGroups.marks ∧
      ∃ before bad after snapshots, twoGroups.changes.toList = before ++ bad :: after ∧
        before ≠ [] ∧ Quiet before snapshots := by
  have hfail : ∃ e s' host', twoGroups.poll .standard default
      (twoFiles (Content.fresh .multi) .empty) = (.error e, s', host') ∧
        s'.marks = twoGroups.marks :=
    ⟨_, _, _, rfl, by decide⟩
  have hread : ∃ snapshot a, Segment.readEvent .multi Config.standard.readSpan default
      ⟨(groupOn "m" 0).shared.segment, twoFiles (Content.fresh .multi) .empty⟩ =
        .ok snapshot a :=
    ⟨_, _, rfl⟩
  obtain ⟨e, s', host', hpoll, hsame⟩ := hfail
  obtain ⟨snapshot, a, hread⟩ := hread
  obtain ⟨before, bad, after, snapshots, middle, a', hsplit, hreadings, hbad, hmarks, -⟩ :=
    failed_poll_costs_nothing_iff hpoll
  -- The first segment can be read, so that it is not the one that failed.
  have hbefore : before ≠ [] := by
    intro hnone
    subst hnone
    cases hreadings
    cases hsplit
    cases hread.symm.trans hbad
  exact ⟨e, s', host', hpoll, hsame, before, bad, after, snapshots, hsplit, hbefore,
    hmarks.1 hsame⟩

set_option maxRecDepth 10000 in
/-- **A failed poll can cost an event.**  The first segment holds an event, and the
second one the number of no event: the poll fails, and the event is lost, although
no subscriber has ever been reported it.  Once the second segment is in order, a
poll reports nothing; without the failed poll, it would have reported the event. -/
theorem failed_poll_costs_an_event :
    ∃ s' host', twoGroups.poll .standard default
        (twoFiles ((Content.fresh .multi).stored .multi ⟨.change, 7, 8, 9⟩ [])
          ((Content.fresh .multi).setField .event 9)) =
        (.error (.error (.fault (.unknownEvent 9))), s', host') ∧
      s'.marks ≠ twoGroups.marks ∧
      (s'.poll .standard default (host'.changeContent 1 (·.setField .event 0))).1 = .ok [] ∧
      (twoGroups.poll .standard default (host'.changeContent 1 (·.setField .event 0))).1 =
        .ok [⟨"m", .running, ⟨.change, 1, 7, 8, some 9, some 0, []⟩, [none]⟩] :=
  ⟨_, _, rfl, by decide, rfl, rfl⟩

end Store

end Subscription
