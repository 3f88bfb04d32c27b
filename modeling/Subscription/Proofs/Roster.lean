import Mathlib.Data.List.Perm.Subperm
import Subscription.Machine.Command
import Subscription.Proofs.GroupViews
import Subscription.Store.Notify
import Subscription.Store.Remove

/-!
# Rosters

Subscriptions to notifications may have been made alike, and then they only differ in what
has become of their replay.  A roster tells them apart: it gives each of them a number of
its own, its *ticket*, and keeps the tickets in the places where a context keeps the
subscriptions.

A roster goes its own way.  What a context does to its groups is done to the roster by the
same means, and these do not look at what they move, so that a roster that matches the
groups goes on to match them (`Roster.Matches`).  What it knows more is which subscription
is which, and that only depends on its entries: a ticket comes with a new one
(`Roster.perm_join`), others go (`Roster.subperm_leave`, `Roster.sublist_keepFirst`), and
when a notification is sent, each entry stays with its ticket (`Roster.entries_note`).
-/

namespace Subscription

open scoped List

/-- The subscriptions to notifications of a context by module, each with its ticket. -/
abbrev Roster := Groups String (Nat × NotificationSub)

namespace Roster

/-- Whether a group is that of a module. -/
def isOfModule (module : String) (other : String) : Bool := other = module

/-- A subscription comes. -/
def join (roster : Roster) (module : String) (ticket : Nat) (sub : NotificationSub) : Roster :=
  match Groups.position? roster (isOfModule module) with
  | some place => Groups.insert roster place (ticket, sub)
  | none => Groups.insertNew roster module (ticket, sub)

/-- The first subscription goes that was made with the given arguments. -/
def leave (roster : Roster) (module : String) (q : Store.NotificationQuery) : Roster :=
  match Groups.locate? roster (isOfModule module) fun x => q.isOf x.2 with
  | some (place, entry) => Groups.erase roster place entry
  | none => roster

/-- Whether a notification is delivered to a subscription. -/
def isTarget (notice : Notice) (x : Nat × NotificationSub) : Bool :=
  x.2.wants notice.type notice.tree notice.time

/-- The subscriptions that a notification is delivered to. -/
def targets (roster : Roster) (module : String) (notice : Notice) : List (Nat × NotificationSub) :=
  match Groups.position? roster (isOfModule module) with
  | none => []
  | some place =>
      (((SwapSet.get? roster place).map fun g => g.subs.toList).getD []).filter (isTarget notice)

/-- What becomes of a subscription when a notification is sent its way. -/
def noted (notice : Notice) (x : Nat × NotificationSub) : Nat × NotificationSub :=
  (x.1, Store.noteReplay notice.type notice.tree notice.time x.2)

/-- A notification is sent to the subscriptions of a module. -/
def note (roster : Roster) (module : String) (notice : Notice) : Roster :=
  match Groups.position? roster (isOfModule module) with
  | none => roster
  | some place =>
      SwapSet.modify roster place fun g => { g with subs := g.subs.map (noted notice) }

/-- Only the first groups stay. -/
def keepFirst (roster : Roster) (count : Nat) : Roster := ⟨roster.toList.take count⟩

/-! ## Matching -/

/-- The roster knows the subscriptions of some groups, in their places. -/
def Matches (roster : Roster) (groups : Groups NotificationChannel NotificationSub) : Prop :=
  Groups.view id Prod.snd roster = Groups.view NotificationChannel.module id groups

variable {roster : Roster} {groups groups' : Groups NotificationChannel NotificationSub}
variable {module : String} {ticket : Nat} {sub : NotificationSub} {notice : Notice}

theorem matches_empty : Matches .empty .empty := rfl

theorem Matches.position? (hmatches : roster.Matches groups) (module : String) :
    Groups.position? roster (isOfModule module) = groups.position? fun c => c.module = module := by
  have hroster : (Groups.view id Prod.snd roster).position? (isOfModule module) =
      Groups.position? roster (isOfModule module) :=
    Groups.position?_view fun _ => rfl
  have hgroups : (groups.view NotificationChannel.module id).position? (isOfModule module) =
      groups.position? fun c => c.module = module :=
    Groups.position?_view fun _ => rfl
  rw [← hroster, hmatches, hgroups]

theorem Matches.locate? (hmatches : roster.Matches groups) (module : String)
    (q : Store.NotificationQuery) :
    (Groups.locate? roster (isOfModule module) fun x => q.isOf x.2) =
      groups.locate? (fun c => c.module = module) q.isOf := by
  have hroster : (Groups.view id Prod.snd roster).locate? (isOfModule module) q.isOf =
      Groups.locate? roster (isOfModule module) fun x => q.isOf x.2 :=
    Groups.locate?_view (fun _ => rfl) fun _ => rfl
  have hgroups : (groups.view NotificationChannel.module id).locate? (isOfModule module) q.isOf =
      groups.locate? (fun c => c.module = module) q.isOf :=
    Groups.locate?_view (fun _ => rfl) fun _ => rfl
  rw [← hroster, hmatches, hgroups]

/-- A new subscription joins the group of its module. -/
theorem Matches.insert (hmatches : roster.Matches groups) {place : Nat}
    (hplace : groups.position? (fun c => c.module = module) = some place) :
    (roster.join module ticket sub).Matches (groups.insert place sub) := by
  have hsame := (hmatches.position? module).trans hplace
  simp only [join, hsame]
  show Groups.view id Prod.snd (Groups.insert roster place (ticket, sub)) = _
  rw [← Groups.insert_view, hmatches]
  exact Groups.insert_view place sub

/-- A new subscription is the first one to its module. -/
theorem Matches.insertNew (hmatches : roster.Matches groups)
    (hplace : groups.position? (fun c => c.module = module) = none) (segment : Segment) :
    (roster.join module ticket sub).Matches (groups.insertNew ⟨module, segment⟩ sub) := by
  have hsame := (hmatches.position? module).trans hplace
  simp only [join, hsame]
  show Groups.view id Prod.snd (Groups.insertNew roster (id module) (ticket, sub)) = _
  rw [← Groups.insertNew_view, hmatches]
  exact Groups.insertNew_view (⟨module, segment⟩ : NotificationChannel) sub

theorem Matches.leave (hmatches : roster.Matches groups) {q : Store.NotificationQuery}
    {place entry : Nat}
    (hlocate : groups.locate? (fun c => c.module = module) q.isOf = some (place, entry)) :
    (roster.leave module q).Matches (groups.erase place entry) := by
  have hsame := (hmatches.locate? module q).trans hlocate
  simp only [Roster.leave, hsame]
  show Groups.view id Prod.snd (Groups.erase roster place entry) = _
  rw [← Groups.erase_view, hmatches]
  exact Groups.erase_view place entry

/-- The first groups of what is matched are matched by as many. -/
theorem Matches.keepFirst (hmatches : roster.Matches groups)
    (hgroups : groups'.toList <+: groups.toList) :
    (roster.keepFirst groups'.size).Matches groups' := by
  have hlists := congrArg (fun view => view.toList.take groups'.size) hmatches
  have htake : groups'.toList = groups.toList.take groups'.size := List.prefix_iff_eq_take.1 hgroups
  simp only [Groups.view, SwapSet.view, ← List.map_take, ← htake] at hlists
  exact congrArg SwapSet.mk hlists

/-- A group whose subscriptions a notification was sent to. -/
def announced {ι : Type} (notice : Notice) (g : Group ι NotificationSub) :
    Group ι NotificationSub :=
  { g with subs := g.subs.map (Store.noteReplay notice.type notice.tree notice.time) }

theorem Matches.note (hmatches : roster.Matches groups) {place : Nat}
    (hplace : groups.position? (fun c => c.module = module) = some place) (notice : Notice) :
    (roster.note module notice).Matches (SwapSet.modify groups place (announced notice)) := by
  have hsame := (hmatches.position? module).trans hplace
  have hroster : ∀ g : Group String (Nat × NotificationSub),
      announced notice (Groups.viewOf id Prod.snd g) =
        Groups.viewOf id Prod.snd { g with subs := g.subs.map (noted notice) } := by
    intro g
    simp [announced, Groups.viewOf, SwapSet.view, SwapSet.map, noted]
  have hgroups : ∀ g : Group NotificationChannel NotificationSub,
      announced notice (Groups.viewOf NotificationChannel.module id g) =
        Groups.viewOf NotificationChannel.module id (announced notice g) := by
    intro g
    simp [announced, Groups.viewOf, SwapSet.view, SwapSet.map]
  simp only [Roster.note, hsame]
  unfold Matches Groups.view
  rw [← SwapSet.modify_view hroster, ← SwapSet.modify_view hgroups]
  exact congrArg (fun view => SwapSet.modify view place (announced notice)) hmatches

/-- The subscriptions at a place. -/
theorem Matches.map_subs (hmatches : roster.Matches groups) (place : Nat) :
    (((SwapSet.get? roster place).map fun g => g.subs.toList).getD []).map Prod.snd =
      ((SwapSet.get? groups place).map fun g => g.subs.toList).getD [] := by
  have hplace := congrArg (fun view => SwapSet.get? view place) hmatches
  simp only [Groups.view, SwapSet.get?_view] at hplace
  have hsubs := congrArg (fun g => (g.map fun g => g.subs.toList).getD []) hplace
  simp only [Option.map_map] at hsubs
  cases hroster : SwapSet.get? roster place <;> cases hgroups : SwapSet.get? groups place <;>
    simp_all [Groups.viewOf, SwapSet.view]

/-- **A notification** reaches those whom the roster says, and goes on with them. -/
theorem Matches.recipients {s : Store} (hmatches : roster.Matches s.notifications)
    (module : String) (notice : Notice) :
    (s.recipients module notice.type notice.tree notice.time).1 =
        (roster.targets module notice).map (fun x => Store.recipientOf x.2) ∧
      (roster.note module notice).Matches
        (s.recipients module notice.type notice.tree notice.time).2.notifications := by
  have hposition := hmatches.position? module
  cases hplace : s.notifications.position? fun c => c.module = module with
  | none =>
      rw [hplace] at hposition
      simp only [Store.recipients, hplace, targets, Roster.note, hposition]
      exact ⟨rfl, hmatches⟩
  | some place =>
      rw [hplace] at hposition
      refine ⟨?_, ?_⟩
      · simp only [Store.recipients, hplace, targets, hposition, ← hmatches.map_subs place,
          List.filter_map, List.map_map]
        rfl
      · simp only [Store.recipients, hplace]
        exact hmatches.note hplace notice

/-! ## Entries -/

/-- A new subscription comes with its ticket. -/
theorem perm_join (roster : Roster) (module : String) (ticket : Nat) (sub : NotificationSub) :
    (roster.join module ticket sub).entries ~ (module, ticket, sub) :: roster.entries := by
  unfold join
  cases hplace : Groups.position? roster (isOfModule module) with
  | none => exact Groups.perm_entries_insertNew roster module (ticket, sub)
  | some place =>
      obtain ⟨g, hget, hgroup⟩ := SwapSet.exists_get?_of_position? hplace
      have hmodule : g.shared = module := by simpa [isOfModule] using hgroup
      rw [← hmodule]
      exact Groups.perm_entries_insert hget (ticket, sub)

theorem subperm_leave (roster : Roster) (module : String) (q : Store.NotificationQuery) :
    (roster.leave module q).entries <+~ roster.entries := by
  unfold leave
  cases hlocate : Groups.locate? roster (isOfModule module) fun x => q.isOf x.2 with
  | none => exact List.Subperm.refl _
  | some places =>
      obtain ⟨shared, x, -, -, -, hdrops⟩ := Groups.drops_of_locate? hlocate
      exact hdrops.perm_entries.symm.subperm_left.1 (List.sublist_cons_self _ _).subperm

theorem sublist_keepFirst (roster : Roster) (count : Nat) :
    (roster.keepFirst count).entries <+ roster.entries := by
  have hsplit : roster.entries =
      (roster.keepFirst count).entries ++ (roster.toList.drop count).flatMap Groups.entriesOf := by
    rw [Groups.entries_eq, Groups.entries_eq, keepFirst, ← List.flatMap_append,
      List.take_append_drop]
  rw [hsplit]
  exact List.sublist_append_left _ _

/-- **When a notification is sent,** every entry stays with its ticket, and those that
change are in the group of the module, with all that the notification is for. -/
theorem entries_note (roster : Roster) (module : String) (notice : Notice) :
    ∃ before group after,
      roster.entries = before ++ group ++ after ∧
      (roster.note module notice).entries =
        before ++ group.map (Prod.map id (noted notice)) ++ after ∧
      (roster.targets module notice).map (module, ·) =
        group.filter fun x => isTarget notice x.2 := by
  cases hplace : Groups.position? roster (isOfModule module) with
  | none =>
      refine ⟨roster.entries, [], [], by simp, ?_, ?_⟩
      · simp [note, hplace]
      · simp [targets, hplace]
  | some place =>
      obtain ⟨g, hget, hgroup⟩ := SwapSet.exists_get?_of_position? hplace
      have hmodule : g.shared = module := by simpa [isOfModule] using hgroup
      obtain ⟨before, after, hgroups, hmodify, -⟩ := SwapSet.exists_around hget
      refine ⟨before.flatMap Groups.entriesOf, Groups.entriesOf g,
        after.flatMap Groups.entriesOf, ?_, ?_, ?_⟩
      · simp [Groups.entries_eq, hgroups]
      · simp [note, hplace, Groups.entries_eq, hmodify, Groups.entriesOf, SwapSet.map]
      · simp [targets, hplace, hget, Groups.entriesOf, List.filter_map, hmodule,
          Function.comp_def]

/-- The tickets in a roster. -/
def tickets (roster : Roster) : List Nat := roster.entries.map fun x => x.2.1

theorem tickets_note (roster : Roster) (module : String) (notice : Notice) :
    (roster.note module notice).tickets = roster.tickets := by
  obtain ⟨before, group, after, hentries, hnoted, -⟩ := entries_note roster module notice
  simp [tickets, hentries, hnoted, noted, Function.comp_def]

theorem sublist_targets (roster : Roster) (module : String) (notice : Notice) :
    (roster.targets module notice).map Prod.fst <+ roster.tickets := by
  obtain ⟨before, group, after, hentries, -, htargets⟩ := entries_note roster module notice
  have hgroup : (roster.targets module notice).map (module, ·) <+ roster.entries := by
    rw [htargets, hentries, List.append_assoc]
    exact List.filter_sublist.trans
      ((List.sublist_append_left _ _).trans (List.sublist_append_right _ _))
  simpa [tickets, Function.comp_def] using hgroup.map fun x => x.2.1

variable {x : Nat × NotificationSub} {y : String × Nat × NotificationSub}

theorem mem_of_target (hx : x ∈ roster.targets module notice) :
    (module, x) ∈ roster.entries ∧ isTarget notice x = true := by
  obtain ⟨before, group, after, hentries, -, htargets⟩ := entries_note roster module notice
  have hmem : (module, x) ∈ (roster.targets module notice).map (module, ·) :=
    List.mem_map_of_mem hx
  rw [htargets] at hmem
  obtain ⟨hgroup, htarget⟩ := List.mem_filter.1 hmem
  rw [hentries]
  exact ⟨by simp [hgroup], htarget⟩

/-- Every entry was there before. -/
theorem exists_of_mem_note (hy : y ∈ (roster.note module notice).entries) :
    ∃ x ∈ roster.entries, y = x ∨ y = Prod.map id (noted notice) x := by
  obtain ⟨before, group, after, hentries, hnoted, -⟩ := entries_note roster module notice
  rw [hnoted] at hy
  rcases List.mem_append.1 hy with hy | hafter
  · rcases List.mem_append.1 hy with hbefore | hgroup
    · exact ⟨y, by simp [hentries, hbefore], .inl rfl⟩
    · obtain ⟨x, hx, rfl⟩ := List.mem_map.1 hgroup
      exact ⟨x, by simp [hentries, hx], .inr rfl⟩
  · exact ⟨y, by simp [hentries, hafter], .inl rfl⟩

/-- **The end of a replay** is noted with all whom it is announced to. -/
theorem replayed_of_target (hapart : roster.tickets.Nodup)
    (hcomplete : notice.type = .replayComplete) (hx : x ∈ roster.targets module notice)
    (hy : y ∈ (roster.note module notice).entries) (hsame : y.2.1 = x.1) :
    y.2.2.replayed = true := by
  obtain ⟨before, group, after, hentries, hnoted, htargets⟩ := entries_note roster module notice
  have hmem : (module, x) ∈ (roster.targets module notice).map (module, ·) :=
    List.mem_map_of_mem hx
  rw [htargets] at hmem
  obtain ⟨hgroup, htarget⟩ := List.mem_filter.1 hmem
  have hone : ∀ z ∈ roster.entries, z.2.1 = x.1 → z = (module, x) := fun z hz hzx =>
    List.inj_on_of_nodup_map hapart hz (mem_of_target hx).1 hzx
  have hnodup : (before ++ group ++ after).Nodup := hentries ▸ hapart.of_map
  rw [List.append_assoc] at hnodup
  have hbefore : (module, x) ∉ before := fun hmem =>
    List.disjoint_of_nodup_append hnodup hmem (List.mem_append_left _ hgroup)
  have hafter : (module, x) ∉ after :=
    List.disjoint_of_nodup_append (List.nodup_append.1 hnodup).2.1 hgroup
  rw [hnoted] at hy
  rcases List.mem_append.1 hy with hy | hy
  · rcases List.mem_append.1 hy with hy | hy
    · exact absurd (hone y (by simp [hentries, hy]) hsame ▸ hy) hbefore
    · obtain ⟨z, hz, rfl⟩ := List.mem_map.1 hy
      obtain rfl : z = (module, x) := hone z (by simp [hentries, hz]) hsame
      have hwants : x.2.wants .replayComplete notice.tree notice.time = true := hcomplete ▸ htarget
      simp [noted, Store.noteReplay, hcomplete, hwants]
  · exact absurd (hone y (by simp [hentries, hy]) hsame ▸ hy) hafter

end Roster

end Subscription
