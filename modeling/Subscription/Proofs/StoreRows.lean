import Subscription.Proofs.Books

/-!
# The rows of a context

Every subscription of a context comes with its descriptor and with the handle that it
listens on, its own one or that of its group (`Store.listed`); these make the rows of
the context in the books (`Store.rows`).

An operation on one subscription adds a row or takes one away, and keeps the groups
tidy (`Store.Tidy`): none is empty, and none is there twice.  Removing everything goes
through all descriptors, in batches that are about one segment each
(`Store.perm_removals`, `Store.removals_batches`).
-/

namespace Subscription

open scoped List

/-! ## All subscriptions -/

namespace Store

/-- The descriptor of a subscription to changes, and the handle of its group. -/
def changeRow (pipe : UInt32) (x : ChangeChannel × ChangeSub) : Descriptor × Segment :=
  (⟨x.1.module, x.2.topic x.1.datastore, pipe⟩, x.1.segment)

/-- The descriptor of a service, and its handle. -/
def serviceRow (pipe : UInt32) (service : Service) (x : ServiceChannel × ServiceSub) :
    Descriptor × Segment :=
  (⟨x.1.module, service.topic x.2.xpath, pipe⟩, x.2.segment)

/-- The descriptor of a subscription to notifications, and the handle of its group. -/
def notificationRow (pipe : UInt32) (x : NotificationChannel × NotificationSub) :
    Descriptor × Segment :=
  (⟨x.1.module, .notifications, pipe⟩, x.1.segment)

/-- All subscriptions of a context, each with its descriptor and the handle that it
listens on. -/
def listed (s : Store) (pipe : UInt32) : List (Descriptor × Segment) :=
  s.changes.entries.map (changeRow pipe) ++
    ((s.services .data).entries.map (serviceRow pipe .data) ++
      ((s.services .rpc).entries.map (serviceRow pipe .rpc) ++
        s.notifications.entries.map (notificationRow pipe)))

/-- A row without the length of the mapping. -/
def bareRow (x : Descriptor × Segment) : BookRow := (x.1, x.2.file)

/-- The rows of a context. -/
def rows (s : Store) (pipe : UInt32) : List BookRow := (s.listed pipe).map bareRow

/-- The groups of every kind are told apart by what they are about, and none of them
is empty. -/
structure Tidy (s : Store) : Prop where
  changes : s.changes.Distinct fun c => (c.module, c.datastore)
  services : ∀ service, (s.services service).Distinct ServiceChannel.module
  notifications : s.notifications.Distinct NotificationChannel.module

variable {s : Store} {pipe : UInt32}

theorem tidy_empty : empty.Tidy where
  changes := Groups.distinct_empty
  services service := by cases service <;> exact Groups.distinct_empty
  notifications := Groups.distinct_empty

theorem rows_empty : empty.rows pipe = [] := rfl

theorem rows_of_isEmpty (hempty : s.isEmpty = true) : s.rows pipe = [] := by
  simp only [isEmpty, SwapSet.isEmpty, Bool.and_eq_true, List.isEmpty_iff] at hempty
  obtain ⟨⟨⟨hchanges, hproviders⟩, hrpcs⟩, hnotifications⟩ := hempty
  simp [rows, listed, services, Groups.entries, hchanges, hproviders, hrpcs, hnotifications]

theorem map_entries {ι α β : Type} (groups : Groups ι α) (f : ι × α → β) :
    groups.entries.map f =
      groups.toList.flatMap fun g => g.subs.toList.map fun sub => f (g.shared, sub) := by
  simp [Groups.entries, List.map_flatMap, Function.comp_def]

/-- The rows have the descriptors of the context. -/
theorem descriptors_eq (s : Store) (pipe : UInt32) :
    s.descriptors pipe = (s.listed pipe).map Prod.fst := by
  simp only [descriptors, listed, List.map_append, List.map_map, List.append_assoc]
  simp only [map_entries]
  rfl

theorem map_fst_rows (s : Store) (pipe : UInt32) :
    (s.rows pipe).map Prod.fst = s.descriptors pipe := by
  rw [descriptors_eq, rows, List.map_map]
  rfl

/-- All descriptors of a context carry its pipe. -/
theorem pipe_of_mem_descriptors {d : Descriptor} (hd : d ∈ s.descriptors pipe) :
    d.pipe = pipe := by
  rw [descriptors_eq] at hd
  obtain ⟨x, hx, rfl⟩ := List.mem_map.1 hd
  simp only [listed, List.mem_append, List.mem_map] at hx
  rcases hx with ⟨y, -, rfl⟩ | ⟨y, -, rfl⟩ | ⟨y, -, rfl⟩ | ⟨y, -, rfl⟩ <;> rfl

/-! ## One row more or less -/

theorem setServices_services (s : Store) (service : Service) :
    s.setServices service (s.services service) = s := by
  cases service <;> rfl

theorem rows_eq (s : Store) (pipe : UInt32) :
    s.rows pipe = s.changes.entries.map (bareRow ∘ changeRow pipe) ++
      ((s.services .data).entries.map (bareRow ∘ serviceRow pipe .data) ++
        ((s.services .rpc).entries.map (bareRow ∘ serviceRow pipe .rpc) ++
          s.notifications.entries.map (bareRow ∘ notificationRow pipe))) := by
  simp [rows, listed]

theorem perm_rows_changes (s : Store) (pipe : UInt32) {a b : Groups ChangeChannel ChangeSub}
    {x : ChangeChannel × ChangeSub} (hperm : a.entries ~ x :: b.entries) :
    ({ s with changes := a }).rows pipe ~
      bareRow (changeRow pipe x) :: ({ s with changes := b }).rows pipe := by
  rw [rows_eq, rows_eq]
  exact (hperm.map _).append_right _

theorem perm_rows_services (s : Store) (pipe : UInt32) (service : Service)
    {a b : Groups ServiceChannel ServiceSub} {x : ServiceChannel × ServiceSub}
    (hperm : a.entries ~ x :: b.entries) :
    (s.setServices service a).rows pipe ~
      bareRow (serviceRow pipe service x) :: (s.setServices service b).rows pipe := by
  rw [rows_eq, rows_eq]
  cases service with
  | data =>
      exact (((hperm.map _).append_right _).append_left _).trans List.perm_middle
  | rpc =>
      refine ((((hperm.map _).append_right _).append_left _).append_left _).trans ?_
      exact (List.perm_middle.append_left _).trans List.perm_middle

theorem perm_rows_notifications (s : Store) (pipe : UInt32)
    {a b : Groups NotificationChannel NotificationSub}
    {x : NotificationChannel × NotificationSub} (hperm : a.entries ~ x :: b.entries) :
    ({ s with notifications := a }).rows pipe ~
      bareRow (notificationRow pipe x) :: ({ s with notifications := b }).rows pipe := by
  rw [rows_eq, rows_eq]
  refine ((((hperm.map _).append_left _).append_left _).append_left _).trans ?_
  exact (((List.perm_middle.append_left _).trans List.perm_middle).append_left _).trans
    List.perm_middle

theorem tidy_changes {groups : Groups ChangeChannel ChangeSub} (htidy : s.Tidy)
    (hgroups : groups.Distinct fun c => (c.module, c.datastore)) :
    ({ s with changes := groups } : Store).Tidy where
  changes := hgroups
  services := htidy.services
  notifications := htidy.notifications

theorem tidy_services {groups : Groups ServiceChannel ServiceSub} (htidy : s.Tidy)
    (service : Service) (hgroups : groups.Distinct ServiceChannel.module) :
    (s.setServices service groups).Tidy where
  changes := by
    cases service <;> exact htidy.changes
  services other := by
    have hdata := htidy.services .data
    have hrpc := htidy.services .rpc
    cases service <;> cases other <;> assumption
  notifications := by
    cases service <;> exact htidy.notifications

theorem tidy_notifications {groups : Groups NotificationChannel NotificationSub}
    (htidy : s.Tidy) (hgroups : groups.Distinct NotificationChannel.module) :
    ({ s with notifications := groups } : Store).Tidy where
  changes := htidy.changes
  services := htidy.services
  notifications := hgroups

/-! ## One subscription more or less -/

/-- What a store becomes when it gets one more subscription, with its row. -/
structure Gains (pipe : UInt32) (s s' : Store) (row : BookRow) : Prop where
  rows : s'.rows pipe ~ row :: s.rows pipe
  tidy : s'.Tidy

/-- What a store becomes when it loses the subscription with a row. -/
structure Loses (pipe : UInt32) (s s' : Store) (row : BookRow) : Prop where
  rows : row :: s'.rows pipe ~ s.rows pipe
  tidy : s'.Tidy

theorem isChanges_iff {module : String} {datastore : Datastore} {c : ChangeChannel} :
    isChanges module datastore c = true ↔ c.module = module ∧ c.datastore = datastore := by
  simp [isChanges, and_comm]

/-- A subscription to changes that joins a group listens on the segment of another one,
since no group is empty. -/
theorem gains_joinChange (htidy : s.Tidy) (pipe : UInt32) {module : String}
    {datastore : Datastore} {place : Nat}
    (hplace : s.changes.position? (isChanges module datastore) = some place) (sub : ChangeSub) :
    ∃ d file, (d, file) ∈ s.rows pipe ∧ d.key = ⟨module, datastore.suffix, none⟩ ∧
      Gains pipe s { s with changes := s.changes.insert place sub }
        (⟨module, sub.topic datastore, pipe⟩, file) := by
  obtain ⟨g, hget, hgroup⟩ := SwapSet.exists_get?_of_position? hplace
  obtain ⟨hmodule, hdatastore⟩ := isChanges_iff.1 hgroup
  have hrowOf : ∀ sub : ChangeSub, changeRow pipe (g.shared, sub) =
      (⟨module, sub.topic datastore, pipe⟩, g.shared.segment) := by
    intro sub
    simp [changeRow, hmodule, hdatastore]
  have hmem := Groups.mem_of_get? hget
  obtain ⟨first, hfirst⟩ := List.exists_mem_of_ne_nil _ (htidy.changes.nonempty g hmem)
  have hperm := perm_rows_changes s pipe (Groups.perm_entries_insert hget sub)
  rw [hrowOf] at hperm
  refine ⟨⟨module, first.topic datastore, pipe⟩, g.shared.segment.file, ?_, rfl, hperm,
    tidy_changes htidy (Groups.distinct_insert hget sub htidy.changes)⟩
  rw [rows_eq]
  refine List.mem_append_left _ (List.mem_map.2 ⟨(g.shared, first), ?_, ?_⟩)
  · exact Groups.mem_entries.2 ⟨g, hmem, rfl, hfirst⟩
  · simp [bareRow, hrowOf]

theorem gains_foundChange (htidy : s.Tidy) (pipe : UInt32) {module : String}
    {datastore : Datastore}
    (hplace : s.changes.position? (isChanges module datastore) = none) (segment : Segment)
    (sub : ChangeSub) :
    Gains pipe s { s with changes := s.changes.insertNew ⟨module, datastore, segment⟩ sub }
      (⟨module, sub.topic datastore, pipe⟩, segment.file) := by
  have hfree := SwapSet.forall_of_position?_eq_none hplace
  refine ⟨perm_rows_changes s pipe (Groups.perm_entries_insertNew s.changes _ sub),
    tidy_changes htidy (Groups.distinct_insertNew htidy.changes sub ?_)⟩
  intro g hg heq
  have hnot := hfree g hg
  rw [← Bool.not_eq_true] at hnot
  exact hnot (isChanges_iff.2 (by simpa using heq))

theorem gains_service (htidy : s.Tidy) (pipe : UInt32) (service : Service) (module : String)
    (sub : ServiceSub) :
    Gains pipe s (s.setServices service
        (match (s.services service).position? fun c => c.module = module with
          | some place => (s.services service).insert place sub
          | none => (s.services service).insertNew ⟨module⟩ sub))
      (⟨module, service.topic sub.xpath, pipe⟩, sub.segment.file) := by
  have hgroups := htidy.services service
  have hsame := setServices_services s service
  cases hplace : (s.services service).position? fun c => c.module = module with
  | some place =>
      obtain ⟨g, hget, hgroup⟩ := SwapSet.exists_get?_of_position? hplace
      have hmodule : g.shared.module = module := by simpa using hgroup
      have hperm := perm_rows_services s pipe service (Groups.perm_entries_insert hget sub)
      rw [hsame, serviceRow, hmodule] at hperm
      exact ⟨hperm, tidy_services htidy service (Groups.distinct_insert hget _ hgroups)⟩
  | none =>
      have hfree := SwapSet.forall_of_position?_eq_none hplace
      have hperm := perm_rows_services s pipe service
        (Groups.perm_entries_insertNew (s.services service) ⟨module⟩ sub)
      rw [hsame] at hperm
      refine ⟨hperm, tidy_services htidy service (Groups.distinct_insertNew hgroups _ ?_)⟩
      intro g hg heq
      exact absurd heq (by simpa using hfree g hg)

/-- A subscription to notifications that joins a group listens on the segment of another
one. -/
theorem gains_joinNotification (htidy : s.Tidy) (pipe : UInt32) {module : String} {place : Nat}
    (hplace : s.notifications.position? (fun c => c.module = module) = some place)
    (sub : NotificationSub) :
    ∃ d file, (d, file) ∈ s.rows pipe ∧ d.key = ⟨module, .notif, none⟩ ∧
      Gains pipe s { s with notifications := s.notifications.insert place sub }
        (⟨module, .notifications, pipe⟩, file) := by
  obtain ⟨g, hget, hgroup⟩ := SwapSet.exists_get?_of_position? hplace
  have hmodule : g.shared.module = module := by simpa using hgroup
  have hmem := Groups.mem_of_get? hget
  obtain ⟨first, hfirst⟩ := List.exists_mem_of_ne_nil _ (htidy.notifications.nonempty g hmem)
  have hperm := perm_rows_notifications s pipe (Groups.perm_entries_insert hget sub)
  rw [notificationRow, hmodule] at hperm
  refine ⟨⟨module, .notifications, pipe⟩, g.shared.segment.file, ?_, rfl, hperm,
    tidy_notifications htidy (Groups.distinct_insert hget sub htidy.notifications)⟩
  rw [rows_eq]
  refine List.mem_append_right _ (List.mem_append_right _ (List.mem_append_right _
    (List.mem_map.2 ⟨(g.shared, first), ?_, ?_⟩)))
  · exact Groups.mem_entries.2 ⟨g, hmem, rfl, hfirst⟩
  · simp [bareRow, notificationRow, hmodule]

theorem gains_foundNotification (htidy : s.Tidy) (pipe : UInt32) {module : String}
    (hplace : s.notifications.position? (fun c => c.module = module) = none) (segment : Segment)
    (sub : NotificationSub) :
    Gains pipe s { s with notifications := s.notifications.insertNew ⟨module, segment⟩ sub }
      (⟨module, .notifications, pipe⟩, segment.file) := by
  have hfree := SwapSet.forall_of_position?_eq_none hplace
  refine ⟨perm_rows_notifications s pipe (Groups.perm_entries_insertNew s.notifications _ sub),
    tidy_notifications htidy (Groups.distinct_insertNew htidy.notifications sub ?_)⟩
  intro g hg heq
  exact absurd heq (by simpa using hfree g hg)

theorem loses_change (htidy : s.Tidy) (pipe : UInt32) {module : String} {datastore : Datastore}
    {sub : ChangeSub} {place entry : Nat}
    (hlocate : s.changes.locate? (isChanges module datastore) (fun other => sameChange other sub) =
      some (place, entry)) :
    ∃ file, Loses pipe s { s with changes := s.changes.erase place entry }
      (⟨module, sub.topic datastore, pipe⟩, file) := by
  obtain ⟨shared, same, -, hgroup, hsame, hdrops⟩ := Groups.drops_of_locate? hlocate
  obtain ⟨hmodule, hdatastore⟩ := isChanges_iff.1 hgroup
  have htopic : same.topic datastore = sub.topic datastore := by
    simp only [sameChange, Bool.and_eq_true, decide_eq_true_eq] at hsame
    simp [ChangeSub.topic, hsame]
  have hperm := (perm_rows_changes s pipe hdrops.perm_entries).symm
  rw [changeRow, hmodule, hdatastore, htopic] at hperm
  exact ⟨_, hperm, tidy_changes htidy (hdrops.distinct htidy.changes)⟩

theorem loses_service (htidy : s.Tidy) (pipe : UInt32) {service : Service}
    {module xpath : String} {callback : CallbackId} {data : Option DataId} {place entry : Nat}
    (hlocate : (s.services service).locate? (fun c => c.module = module) (fun sub =>
        sub.xpath = xpath && sub.callback = callback && sub.data = data) = some (place, entry)) :
    ∃ file, Loses pipe s (s.setServices service ((s.services service).erase place entry))
      (⟨module, service.topic xpath, pipe⟩, file) := by
  obtain ⟨shared, sub, -, hgroup, hsame, hdrops⟩ := Groups.drops_of_locate? hlocate
  have hmodule : shared.module = module := by simpa using hgroup
  have hxpath : sub.xpath = xpath := by
    simp only [Bool.and_eq_true, decide_eq_true_eq] at hsame
    exact hsame.1.1
  have hperm := (perm_rows_services s pipe service hdrops.perm_entries).symm
  rw [setServices_services, serviceRow, hmodule, hxpath] at hperm
  exact ⟨_, hperm, tidy_services htidy service (hdrops.distinct (htidy.services service))⟩

theorem loses_notification (htidy : s.Tidy) (pipe : UInt32) {module : String}
    {q : NotificationQuery} {place entry : Nat}
    (hlocate : s.notifications.locate? (fun c => c.module = module) q.isOf =
      some (place, entry)) :
    ∃ file, Loses pipe s { s with notifications := s.notifications.erase place entry }
      (⟨module, .notifications, pipe⟩, file) := by
  obtain ⟨shared, sub, -, hgroup, -, hdrops⟩ := Groups.drops_of_locate? hlocate
  have hmodule : shared.module = module := by simpa using hgroup
  have hperm := (perm_rows_notifications s pipe hdrops.perm_entries).symm
  rw [notificationRow, hmodule] at hperm
  exact ⟨_, hperm, tidy_notifications htidy (hdrops.distinct htidy.notifications)⟩

/-! ## All rows in batches -/

theorem map_fst_drain {α : Type} (items : SwapSet α) :
    items.drain.map Prod.fst = items.toList.reverse := by
  have hfrom : ∀ l : List α, (SwapSet.drainFrom l).map Prod.fst = l := by
    intro l
    induction l with
    | nil => rfl
    | cons item before ih => rw [SwapSet.drainFrom, List.map_cons, ih]
  exact hfrom _

/-- Whatever order the groups are taken out in, all of them are. -/
theorem perm_drain {α β γ : Type} (items : SwapSet α) (rest : α × SwapSet α → β)
    (batches : α → List (List γ)) :
    (items.drain.map fun x => (rest x, batches x.1)).flatMap (fun g => g.2.flatten) ~
      items.toList.flatMap fun x => (batches x).flatten := by
  have hdrain : (items.drain.map fun x => (rest x, batches x.1)).flatMap (fun g => g.2.flatten) =
      (items.drain.map Prod.fst).flatMap fun x => (batches x).flatten := by
    simp [List.flatMap_map]
  rw [hdrain, map_fst_drain]
  exact (List.reverse_perm _).flatMap_right _

/-- **Every descriptor is retracted once.** -/
theorem perm_removals (s : Store) (pipe : UInt32) :
    ((s.removals pipe).flatMap fun g => g.2.flatten) ~ s.descriptors pipe := by
  have hsingles : ∀ ds : List Descriptor, (ds.map fun d => [d]).flatten = ds := by
    intro ds
    induction ds with
    | nil => rfl
    | cons d rest ih => simp [ih]
  have hchanges := perm_drain s.changes
    (fun x => { s with changes := x.2 }) fun g => [changeDescriptors pipe g]
  have hproviders := perm_drain s.providers
    (fun x => ({ s with changes := .empty, providers := x.2 } : Store))
    fun g => (serviceDescriptors pipe .data g).map fun d => [d]
  have hrpcs := perm_drain s.rpcs
    (fun x => ({ s with changes := .empty, providers := .empty, rpcs := x.2 } : Store))
    fun g => (serviceDescriptors pipe .rpc g).map fun d => [d]
  have hnotifications := perm_drain s.notifications
    (fun x => (⟨.empty, .empty, .empty, x.2⟩ : Store)) fun g => [notificationDescriptors pipe g]
  simp only [hsingles, List.flatten_cons, List.flatten_nil, List.append_nil]
    at hchanges hproviders hrpcs hnotifications
  simp only [removals, descriptors, List.flatMap_append]
  exact ((hchanges.append hproviders).append hrpcs).append hnotifications

/-- Every batch is about one segment. -/
theorem key_of_mem_removals (s : Store) (pipe : UInt32) :
    ∀ g ∈ s.removals pipe, ∀ batch ∈ g.2, ∃ key, ∀ d ∈ batch, d.key = key := by
  have hsingle : ∀ ds : List Descriptor, ∀ batch ∈ ds.map (fun d => [d]),
      ∃ key, ∀ d ∈ batch, d.key = key := by
    intro ds batch hbatch
    obtain ⟨d, -, rfl⟩ := List.mem_map.1 hbatch
    exact ⟨d.key, by simp⟩
  intro g hg batch hbatch
  simp only [removals, List.mem_append, List.mem_map] at hg
  rcases hg with ((⟨x, -, rfl⟩ | ⟨x, -, rfl⟩) | ⟨x, -, rfl⟩) | ⟨x, -, rfl⟩
  · rw [List.mem_singleton.1 hbatch]
    refine ⟨⟨x.1.shared.module, x.1.shared.datastore.suffix, none⟩, fun d hd => ?_⟩
    obtain ⟨sub, -, rfl⟩ := List.mem_map.1 hd
    rfl
  · exact hsingle _ batch hbatch
  · exact hsingle _ batch hbatch
  · rw [List.mem_singleton.1 hbatch]
    refine ⟨⟨x.1.shared.module, .notif, none⟩, fun d hd => ?_⟩
    obtain ⟨sub, -, rfl⟩ := List.mem_map.1 hd
    rfl

/-- As no group is empty, no batch is. -/
theorem removals_batches (htidy : s.Tidy) :
    ∀ g ∈ s.removals pipe, ∀ batch ∈ g.2, batch ≠ [] ∧ ∃ key, ∀ d ∈ batch, d.key = key := by
  have hdrain : ∀ {α : Type} {items : SwapSet α} {x : α × SwapSet α}, x ∈ items.drain →
      x.1 ∈ items.toList := by
    intro α items x hx
    rw [← List.mem_reverse, ← map_fst_drain]
    exact List.mem_map_of_mem hx
  have hsingle : ∀ ds : List Descriptor, ∀ batch ∈ ds.map (fun d => [d]), batch ≠ [] := by
    intro ds batch hbatch
    obtain ⟨d, -, rfl⟩ := List.mem_map.1 hbatch
    simp
  intro g hg batch hbatch
  refine ⟨?_, key_of_mem_removals s pipe g hg batch hbatch⟩
  simp only [removals, List.mem_append, List.mem_map] at hg
  rcases hg with ((⟨x, hx, rfl⟩ | ⟨x, hx, rfl⟩) | ⟨x, hx, rfl⟩) | ⟨x, hx, rfl⟩
  · rw [List.mem_singleton.1 hbatch]
    simpa [changeDescriptors] using htidy.changes.nonempty x.1 (hdrain hx)
  · exact hsingle _ batch hbatch
  · exact hsingle _ batch hbatch
  · rw [List.mem_singleton.1 hbatch]
    simpa [notificationDescriptors] using htidy.notifications.nonempty x.1 (hdrain hx)

/-- **The group that is taken out first** leaves a store of which the others are taken out
in the same way. -/
theorem removals_eq (s : Store) (pipe : UInt32) :
    s.removals pipe = [] ∨ ∃ left batches,
      s.removals pipe = (left, batches) :: left.removals pipe ∧
      left.rows pipe <+ s.rows pipe ∧ (s.Tidy → left.Tidy) := by
  obtain ⟨changes, providers, rpcs, notifications⟩ := s
  have hnone : ∀ {α : Type}, (SwapSet.empty : SwapSet α).drain = [] := rfl
  have hentries : ∀ {ι α : Type} (front : Groups ι α) (g : Group ι α),
      front.entries <+ Groups.entries (front.push g) := by
    intro ι α front g
    rw [Groups.entries_push]
    exact List.sublist_append_left _ _
  rcases changes.eq_empty_or_push with rfl | ⟨front, g, rfl⟩
  · rcases providers.eq_empty_or_push with rfl | ⟨front, g, rfl⟩
    · rcases rpcs.eq_empty_or_push with rfl | ⟨front, g, rfl⟩
      · rcases notifications.eq_empty_or_push with rfl | ⟨front, g, rfl⟩
        · exact .inl rfl
        · refine .inr ⟨⟨.empty, .empty, .empty, front⟩, [notificationDescriptors pipe g],
            ?_, ?_, ?_⟩
          · simp [removals, SwapSet.drain_push, hnone]
          · rw [rows_eq, rows_eq]
            exact ((((hentries front g).map _).append_left _).append_left _).append_left _
          · exact fun htidy => tidy_notifications htidy htidy.notifications.of_push
      · refine .inr ⟨⟨.empty, .empty, front, notifications⟩,
          (serviceDescriptors pipe .rpc g).map fun d => [d], ?_, ?_, ?_⟩
        · simp [removals, SwapSet.drain_push, hnone]
        · rw [rows_eq, rows_eq]
          exact ((((hentries front g).map _).append_right _).append_left _).append_left _
        · exact fun htidy => tidy_services htidy .rpc (htidy.services .rpc).of_push
    · refine .inr ⟨⟨.empty, front, rpcs, notifications⟩,
        (serviceDescriptors pipe .data g).map fun d => [d], ?_, ?_, ?_⟩
      · simp [removals, SwapSet.drain_push, hnone]
      · rw [rows_eq, rows_eq]
        exact (((hentries front g).map _).append_right _).append_left _
      · exact fun htidy => tidy_services htidy .data (htidy.services .data).of_push
  · refine .inr ⟨⟨front, providers, rpcs, notifications⟩, [changeDescriptors pipe g], ?_, ?_, ?_⟩
    · simp [removals, SwapSet.drain_push]
    · rw [rows_eq, rows_eq]
      exact ((hentries front g).map _).append_right _
    · exact fun htidy => tidy_changes htidy htidy.changes.of_push

end Store

end Subscription
