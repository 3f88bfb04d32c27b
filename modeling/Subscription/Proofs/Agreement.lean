import Subscription.Proofs.StoreRows
import Subscription.Proofs.UseFrames

/-!
# Subscriptions, registry and files agree

Every operation of a context, however it ends, keeps the books and leaves the context
tidy (`Store.Settled`):

* an order that adds a subscription adds its row, or nothing
  (`Store.addChange_leads`, `Store.addService_settles`,
  `Store.addNotification_settles`), and an order that removes one takes its row away,
  or nothing (`Store.removeChange_leads` and its siblings); this is all that orders do
  (`Order.settles`);
* removing everything leaves no row behind (`Store.removeAll_leads`);
* polling and using a segment change no name (`Store.pollGroups_mold`,
  `Visit.act_within`).

The books of a community are those of all its members together (`Community.Kept`).
One member's work is done with the rows of the others lying beside its own, so that
each step keeps the books (`Community.Kept.step`), and hence every run does.  What the
books say is that subscriptions, registry and files agree (`Community.Agrees`), from
the first operation on and for ever (`Community.run_agrees`).
-/

namespace Subscription

open scoped List
open Plan Shared

namespace Store

variable {cfg : Config} {location : Location} {w : Shared} {others : List BookRow}
variable {refusal : Option Error} {s : Store} {pipe : UInt32}

/-- How an operation of a context ends: what subscribers to changes find in their
segments is still there, and the books and the context are in order. -/
structure Settled (cfg : Config) (location : Location) (pipe : UInt32) (others : List BookRow)
    (w : Shared) (ending : Ending) (w' : Shared) : Prop where
  keeps : Host.KeepsChannels w.1 w'.1
  books : Books cfg.segmentDir location w' (ending.2.rows pipe ++ others)
  tidy : ending.2.Tidy

/-- Work that settles, whatever context does it. -/
def Settles (cfg : Config) (refusal : Option Error) (work : Order.Work) : Prop :=
  ∀ (location : Location) (w : Shared) (others : List BookRow) (pipe : UInt32) (s : Store),
    Books cfg.segmentDir location w (s.rows pipe ++ others) → s.Tidy →
    Leads ((Handler.refusing refusal).answer cfg) (work ⟨cfg, pipe⟩ s) w
      (Settled cfg location pipe others w)

/-- What only goes to the log does not matter. -/
theorem Settled.note {ending : Ending} {w' : Shared}
    (hsettled : Settled cfg location pipe others w ending w') (level : LogLevel) (text : String) :
    Settled cfg location pipe others w ending (w'.1.note level text, w'.2) where
  keeps := hsettled.keeps.trans (Host.keepsChannels_of_files rfl)
  books := hsettled.books.congr rfl
  tidy := hsettled.tidy

theorem settled_failed (hbooks : Books cfg.segmentDir location w (s.rows pipe ++ others))
    (htidy : s.Tidy) (result : Except Failure Unit) :
    Settled cfg location pipe others w (result, s) w :=
  ⟨Host.KeepsChannels.refl _, hbooks, htidy⟩

/-- One row more. -/
theorem settled_of_gains {s' : Store} {w' : Shared} {row : BookRow}
    (hbooks : Books cfg.segmentDir location w' (row :: (s.rows pipe ++ others)))
    (hkeeps : Host.KeepsChannels w.1 w'.1) (hgains : Gains pipe s s' row)
    (result : Except Failure Unit) :
    Settled cfg location pipe others w (result, s') w' :=
  ⟨hkeeps, hbooks.perm (hgains.rows.symm.append_right others), hgains.tidy⟩

theorem Opened.note {directory : String} {d : Descriptor} {h h' : Host} {file : Option FileId}
    (hopened : Opened directory d h h' file) (level : LogLevel) (text : String) :
    Opened directory d h (h'.note level text) file := by
  rcases hopened with hfound | ⟨hfile, hchannel⟩
  · exact .inl hfound
  · exact .inr ⟨hfile, hchannel.of_file? rfl⟩

/-! ## Adding -/

/-- How the adding of a subscription to changes ends. -/
inductive ChangeAdded (directory : String) (module : String) (datastore : Datastore)
    (sub : ChangeSub) (s : Store) (h h' : Host) : Ending → Prop
  | failed (e : Error) : ChangeAdded directory module datastore sub s h h' (s.failed e)
  | joined (place : Nat)
      (hplace : s.changes.position? (isChanges module datastore) = some place) :
      ChangeAdded directory module datastore sub s h h'
        (.ok (), { s with changes := s.changes.insert place sub })
  | founded (segment : Segment) (pipe : UInt32)
      (hplace : s.changes.position? (isChanges module datastore) = none)
      (hopened : Opened directory ⟨module, sub.topic datastore, pipe⟩ h h' segment.file) :
      ChangeAdded directory module datastore sub s h h'
        (.ok (), { s with changes := s.changes.insertNew ⟨module, datastore, segment⟩ sub })

theorem addChange_leads (hbooks : Books cfg.segmentDir location w (s.rows pipe ++ others))
    (htidy : s.Tidy) (module : String) (datastore : Datastore) (sub : ChangeSub) :
    Leads ((Handler.refusing refusal).answer cfg) (s.addChange ⟨cfg, pipe⟩ module datastore sub) w
      fun ending w' => Settled cfg location pipe others w ending w' ∧
        ChangeAdded cfg.segmentDir module datastore sub s w.1 w'.1 ending := by
  unfold addChange
  cases hplace : s.changes.position? (isChanges module datastore) with
  | some place =>
      obtain ⟨d, file, hrow, hkey, hgains⟩ := gains_joinChange htidy pipe hplace sub
      dsimp only
      refine publishOpen_leads (d := ⟨module, sub.topic datastore, pipe⟩) hbooks
        (List.mem_append_left _ hrow) hkey (fun hbooks' => ?_) fun e => ?_
      · refine leads_ask (answer_host refusal rfl)
          (leads_pure ⟨Settled.note ?_ _ _, .joined place hplace⟩)
        exact settled_of_gains hbooks' (Host.KeepsChannels.refl w.1) hgains _
      · exact leads_pure ⟨settled_failed hbooks htidy _, .failed e⟩
  | none =>
      refine (openAndPublish_leads hbooks ⟨module, sub.topic datastore, pipe⟩).bind ?_
      rintro (e | segment) w' ⟨hkeeps, hresult⟩
      · exact leads_pure ⟨⟨hkeeps, hresult, htidy⟩, .failed e⟩
      · obtain ⟨hbooks', hopened⟩ := hresult
        refine leads_ask (answer_host refusal rfl)
          (leads_pure ⟨Settled.note ?_ _ _, .founded segment pipe hplace (hopened.note _ _)⟩)
        exact settled_of_gains hbooks' hkeeps (gains_foundChange htidy pipe hplace segment sub) _

theorem addService_settles (service : Service) (module xpath : String) (callback : CallbackId)
    (data : Option DataId) :
    Settles cfg refusal fun site s => s.addService site service module xpath callback data := by
  intro location w others pipe s hbooks htidy
  show Leads _ (s.addService ⟨cfg, pipe⟩ service module xpath callback data) w _
  unfold addService
  refine (openAndPublish_leads hbooks ⟨module, service.topic xpath, pipe⟩).bind ?_
  rintro (e | segment) w' ⟨hkeeps, hresult⟩
  · exact leads_pure ⟨hkeeps, hresult, htidy⟩
  · refine leads_ask (answer_host refusal rfl) (leads_pure (Settled.note ?_ _ _))
    exact settled_of_gains hresult.1 hkeeps
      (gains_service htidy pipe service module ⟨xpath, callback, data, segment⟩) _

theorem addNotification_settles (module : String) (sub : NotificationSub) :
    Settles cfg refusal fun site s => s.addNotification site module sub := by
  intro location w others pipe s hbooks htidy
  show Leads _ (s.addNotification ⟨cfg, pipe⟩ module sub) w _
  unfold addNotification
  cases hplace : s.notifications.position? fun c => c.module = module with
  | some place =>
      obtain ⟨d, file, hrow, hkey, hgains⟩ := gains_joinNotification htidy pipe hplace sub
      dsimp only
      refine publishOpen_leads (d := ⟨module, .notifications, pipe⟩) hbooks
        (List.mem_append_left _ hrow) hkey (fun hbooks' => ?_) fun e => ?_
      · refine leads_ask (answer_host refusal rfl) (leads_pure (Settled.note ?_ _ _))
        exact settled_of_gains hbooks' (Host.KeepsChannels.refl w.1) hgains _
      · exact leads_pure (settled_failed hbooks htidy _)
  | none =>
      refine (openAndPublish_leads hbooks ⟨module, .notifications, pipe⟩).bind ?_
      rintro (e | segment) w' ⟨hkeeps, hresult⟩
      · exact leads_pure ⟨hkeeps, hresult, htidy⟩
      · refine leads_ask (answer_host refusal rfl) (leads_pure (Settled.note ?_ _ _))
        exact settled_of_gains hresult.1 hkeeps
          (gains_foundNotification htidy pipe hplace segment sub) _

/-! ## Removing -/

/-- Whatever can be retracted, the operation settles. -/
theorem retractOne_settled {d : Descriptor} {file : Option FileId} {without : Store}
    (hbooks : Books cfg.segmentDir location w (s.rows pipe ++ others)) (htidy : s.Tidy)
    (hloses : Loses pipe s without (d, file)) :
    Leads ((Handler.refusing refusal).answer cfg) (s.retractOne d without) w fun ending w' =>
      Settled cfg location pipe others w ending w' ∧
        (ending = (.ok (), without) ∨ ∃ e, ending = s.failed e) := by
  have hrow : Books cfg.segmentDir location w ((d, file) :: (without.rows pipe ++ others)) :=
    hbooks.perm (hloses.rows.symm.append_right _)
  refine (retractOne_leads hrow s without).mono ?_
  rintro ending w' ⟨hkeeps, ⟨rfl, hbooks'⟩ | ⟨e, rfl, rfl⟩⟩
  · exact ⟨⟨hkeeps, hbooks', hloses.tidy⟩, .inl rfl⟩
  · exact ⟨settled_failed hbooks htidy _, .inr ⟨e, rfl⟩⟩

/-- How the removing of a subscription to changes ends. -/
inductive ChangeRemoved (module : String) (datastore : Datastore) (sub : ChangeSub) (s : Store) :
    Ending → Prop
  | failed (f : Failure) : ChangeRemoved module datastore sub s (.error f, s)
  | erased (place entry : Nat)
      (hlocate : s.changes.locate? (isChanges module datastore)
        (fun other => sameChange other sub) = some (place, entry)) :
      ChangeRemoved module datastore sub s
        (.ok (), { s with changes := s.changes.erase place entry })

theorem removeChange_leads (hbooks : Books cfg.segmentDir location w (s.rows pipe ++ others))
    (htidy : s.Tidy) (module : String) (datastore : Datastore) (sub : ChangeSub) :
    Leads ((Handler.refusing refusal).answer cfg)
      (s.removeChange ⟨cfg, pipe⟩ module datastore sub) w
      fun ending w' => Settled cfg location pipe others w ending w' ∧
        ChangeRemoved module datastore sub s ending := by
  unfold removeChange
  cases hlocate : s.changes.locate? (isChanges module datastore)
      fun other => sameChange other sub with
  | none => exact leads_pure ⟨settled_failed hbooks htidy _, .failed _⟩
  | some found =>
      obtain ⟨place, entry⟩ := found
      obtain ⟨file, hloses⟩ := loses_change htidy pipe hlocate
      refine (retractOne_settled hbooks htidy hloses).mono ?_
      rintro ending w' ⟨hsettled, rfl | ⟨e, rfl⟩⟩
      · exact ⟨hsettled, .erased place entry hlocate⟩
      · exact ⟨hsettled, .failed _⟩

theorem removeService_settles (service : Service) (module xpath : String)
    (callback : CallbackId) (data : Option DataId) :
    Settles cfg refusal fun site s =>
      s.removeService site service module xpath callback data := by
  intro location w others pipe s hbooks htidy
  show Leads _ (s.removeService ⟨cfg, pipe⟩ service module xpath callback data) w _
  unfold removeService
  dsimp only
  cases hlocate : (s.services service).locate? (fun c => c.module = module) fun sub =>
      sub.xpath = xpath && sub.callback = callback && sub.data = data with
  | none => exact leads_pure (settled_failed hbooks htidy _)
  | some found =>
      obtain ⟨place, entry⟩ := found
      obtain ⟨file, hloses⟩ := loses_service htidy pipe hlocate
      exact (retractOne_settled hbooks htidy hloses).mono fun _ _ h => h.1

theorem removeNotification_settles (module : String) (q : NotificationQuery) :
    Settles cfg refusal fun site s => s.removeNotification site module q := by
  intro location w others pipe s hbooks htidy
  show Leads _ (s.removeNotification ⟨cfg, pipe⟩ module q) w _
  unfold removeNotification
  cases hlocate : s.notifications.locate? (fun c => c.module = module) q.isOf with
  | none => exact leads_pure (settled_failed hbooks htidy _)
  | some found =>
      obtain ⟨place, entry⟩ := found
      obtain ⟨file, hloses⟩ := loses_notification htidy pipe hlocate
      exact (retractOne_settled hbooks htidy hloses).mono fun _ _ h => h.1

/-- **Removing everything** leaves nothing behind, and does not fail. -/
theorem removeAll_leads (pipe : UInt32)
    (hbooks : Books cfg.segmentDir location w (s.rows pipe ++ others))
    (htidy : s.Tidy) :
    Leads ((Handler.refusing none).answer cfg) (s.removeAll ⟨cfg, pipe⟩) w fun ending w' =>
      Settled cfg location pipe others w ending w' ∧ ending = (.ok (), empty) := by
  -- The file of a row is the one that stood there at first.
  have hrows : rowsOf (fun d => w.1.disk.standing cfg.segmentDir d.key)
      ((s.removals pipe).flatMap fun g => g.2.flatten) ~ s.rows pipe := by
    refine ((perm_removals s pipe).map _).trans ?_
    rw [← map_fst_rows, List.map_map]
    refine List.Perm.of_eq ?_
    calc (s.rows pipe).map ((fun d => (d, w.1.disk.standing cfg.segmentDir d.key)) ∘ Prod.fst)
        = (s.rows pipe).map id := by
          refine List.map_congr_left fun row hrow => ?_
          have hhandle := hbooks.handles row (List.mem_append_left _ hrow)
          simp [← hhandle]
      _ = s.rows pipe := List.map_id _
  have hbooks' := hbooks.perm (hrows.symm.append_right others)
  unfold removeAll
  refine (retractGroups_leads _ none _ (removals_batches htidy) hbooks').bind ?_
  rintro result w' ⟨hkeeps, hbooks'', rfl⟩
  exact leads_pure ⟨⟨hkeeps, hbooks'', tidy_empty⟩, rfl⟩

end Store

/-- **Every order settles.** -/
theorem Order.settles {cfg : Config} {order : Order} {work : Order.Work} (refusal : Option Error)
    (hplan : order.plan = .ok work) : Store.Settles cfg refusal work := by
  refine Order.work_induction ?_ ?_ (fun _ _ _ _ _ => Store.addService_settles _ _ _ _ _)
    (fun _ _ _ _ _ => Store.removeService_settles _ _ _ _ _)
    (fun _ _ => Store.addNotification_settles _ _)
    (fun _ _ => Store.removeNotification_settles _ _) hplan
  · intro module datastore sub location w others pipe s hbooks htidy
    exact (Store.addChange_leads hbooks htidy _ _ _).mono fun _ _ h => h.1
  · intro module datastore sub location w others pipe s hbooks htidy
    exact (Store.removeChange_leads hbooks htidy _ _ _).mono fun _ _ h => h.1

/-! ## Using segments -/

/-- Whoever uses a segment stays within every frame that admits uses. -/
theorem Visit.act_within {F : Frame Host} (hF : Host.Admits F) (kind : HeaderKind) (v : Visit) :
    Within F.attached (v.act kind) := by
  obtain ⟨handle, what, readTimeout, timeout⟩ := v
  cases what with
  | publish record payload =>
      exact Within.bind (Segment.writeEvent_within hF _ _ _ _ _) fun _ => Within.pure _
  | consume => exact Within.bind (Segment.clearEvent_within hF _ _) fun _ => Within.pure _
  | read => exact Within.bind (Segment.readEvent_within hF _ _ _) fun _ => Within.pure _

namespace Store

/-- What a group is about, and the rows of its subscriptions. -/
def mold (pipe : UInt32) (g : Group ChangeChannel ChangeSub) :
    (String × Datastore) × List BookRow :=
  ((g.shared.module, g.shared.datastore),
    g.subs.toList.map fun sub => bareRow (changeRow pipe (g.shared, sub)))

theorem mold_withSegment (pipe : UInt32) (g : Group ChangeChannel ChangeSub) {segment : Segment}
    (hfile : segment.file = g.shared.segment.file) :
    mold pipe (withSegment g segment) = mold pipe g := by
  simp [mold, withSegment, bareRow, changeRow, hfile]

theorem mold_showEvent (pipe : UInt32) (g : Group ChangeChannel ChangeSub) (snapshot : Snapshot) :
    mold pipe (showEvent g snapshot) = mold pipe g := by
  have htopic : ∀ (sub : ChangeSub) (datastore : Datastore),
      (sub.take snapshot).topic datastore = sub.topic datastore := by
    intro sub datastore
    unfold ChangeSub.take
    split <;> rfl
  simp [mold, showEvent, SwapSet.map, Function.comp_def, bareRow, changeRow, htopic]

/-- Polling is reading, segment by segment. -/
theorem pollGroups_within {F : Frame Host} (hF : Host.Admits F) (readTimeout timeout : Span)
    (groups : List (Group ChangeChannel ChangeSub)) (h : Host) :
    F.keeps h (pollGroups readTimeout timeout groups h).2.2 := by
  induction groups generalizing h with
  | nil => exact F.refl h
  | cons g rest ih =>
      have hread := (Segment.readEvent_within hF .multi readTimeout timeout
        ⟨g.shared.segment, h⟩).2
      unfold pollGroups
      cases hresult : Segment.readEvent .multi readTimeout timeout ⟨g.shared.segment, h⟩ with
      | error e a =>
          rw [hresult] at hread
          exact hread
      | ok snapshot a =>
          rw [hresult] at hread
          have hrest := F.trans hread (ih a.host)
          rcases hpoll : pollGroups readTimeout timeout rest a.host with ⟨result, groups', host⟩
          rw [hpoll] at hrest
          dsimp only
          rw [hpoll]
          cases result <;> exact hrest

/-- **Polling** changes neither a name nor what the groups are about, even when it fails. -/
theorem pollGroups_mold (readTimeout timeout : Span) (pipe : UInt32)
    (groups : List (Group ChangeChannel ChangeSub)) (h : Host) :
    (pollGroups readTimeout timeout groups h).2.1.map (mold pipe) = groups.map (mold pipe) ∧
      (pollGroups readTimeout timeout groups h).2.2.disk.entries = h.disk.entries := by
  refine ⟨?_, pollGroups_within Host.names_admits readTimeout timeout groups h⟩
  induction groups generalizing h with
  | nil => rfl
  | cons g rest ih =>
      have hread := Segment.readEvent_within Host.names_admits .multi readTimeout timeout
        ⟨g.shared.segment, h⟩
      unfold pollGroups
      cases hresult : Segment.readEvent .multi readTimeout timeout ⟨g.shared.segment, h⟩ with
      | error e a =>
          rw [hresult] at hread
          have hfile : a.segment.file = g.shared.segment.file := hread.1
          rw [List.map_cons, List.map_cons, mold_withSegment pipe g hfile]
      | ok snapshot a =>
          rw [hresult] at hread
          have hfile : a.segment.file = g.shared.segment.file := hread.1
          have hmold := ih a.host
          rcases hrest : pollGroups readTimeout timeout rest a.host with ⟨result, groups', host⟩
          rw [hrest] at hmold
          have hshown : (showEvent (withSegment g a.segment) snapshot :: groups').map (mold pipe) =
              (g :: rest).map (mold pipe) := by
            rw [List.map_cons, List.map_cons, mold_showEvent, mold_withSegment pipe g hfile]
            exact congrArg _ hmold
          dsimp only
          rw [hrest]
          cases result with
          | ok news => exact hshown
          | error e => exact hshown

/-- The rows of the groups, one group after the other. -/
theorem map_changeRow_entries (pipe : UInt32) (groups : Groups ChangeChannel ChangeSub) :
    groups.entries.map (bareRow ∘ changeRow pipe) =
      (groups.toList.map (mold pipe)).flatMap Prod.snd := by
  rw [map_entries, List.flatMap_map]
  rfl

theorem of_mold_eq {s : Store} {pipe : UInt32} {groups : List (Group ChangeChannel ChangeSub)}
    (hmold : groups.map (mold pipe) = s.changes.toList.map (mold pipe)) (htidy : s.Tidy) :
    ({ s with changes := ⟨groups⟩ } : Store).rows pipe = s.rows pipe ∧
      ({ s with changes := ⟨groups⟩ } : Store).Tidy := by
  refine ⟨?_, tidy_changes htidy ⟨?_, ?_⟩⟩
  · rw [rows_eq, rows_eq, map_changeRow_entries, map_changeRow_entries, hmold]
    rfl
  · intro g hg hempty
    obtain ⟨g', hg', hsame⟩ := List.mem_map.1 (hmold ▸ List.mem_map_of_mem (f := mold pipe) hg)
    have hrows := congrArg Prod.snd hsame
    simp only [mold, hempty, List.map_nil, List.map_eq_nil_iff] at hrows
    exact htidy.changes.nonempty g' hg' hrows
  · have hkeys := congrArg (List.map Prod.fst) hmold
    simp only [List.map_map] at hkeys
    have hnodup := htidy.changes.nodup
    exact hkeys.symm ▸ hnodup

end Store

/-! ## The community -/

namespace Community

variable {c : Community} {location : Location}

/-- The rows of a member. -/
def rowsOf (m : Member) : List BookRow := m.store.rows m.pipe

/-- The books of a community are kept, and its members are tidy. -/
structure Kept (location : Location) (c : Community) : Prop where
  books : Books c.config.segmentDir location (c.host, c.registry) (c.members.flatMap rowsOf)
  tidy : ∀ m ∈ c.members, m.store.Tidy

/-- What a member's work leaves. -/
theorem perform_eq {i : Nat} {m : Member} (hm : c.members[i]? = some m)
    (refusal : Option Error) (work : Order.Work) {ending : Store.Ending} {w : Shared}
    (hrun : (work ⟨c.config, m.pipe⟩ m.store).run ((Handler.refusing refusal).answer c.config)
      (c.host, c.registry) = (ending, w)) :
    c.perform i refusal work =
      (ending.1, { c with
        host := w.1
        registry := w.2
        members := c.members.set i { m with store := ending.2 } }) := by
  simp only [perform, hm, hrun]

/-- **One member's work**, which settles, keeps the books of the whole community.  What
else the work leads to, it leads to in the community as well. -/
theorem Kept.exists_perform (hkept : c.Kept location) {i : Nat} {m : Member}
    (hm : c.members[i]? = some m) (refusal : Option Error) (work : Order.Work)
    {R : Store.Ending → Shared → Prop}
    (hwork : ∀ others,
      Books c.config.segmentDir location (c.host, c.registry) (m.store.rows m.pipe ++ others) →
      m.store.Tidy →
      Leads ((Handler.refusing refusal).answer c.config) (work ⟨c.config, m.pipe⟩ m.store)
        (c.host, c.registry) fun ending w =>
          Store.Settled c.config location m.pipe others (c.host, c.registry) ending w ∧
            R ending w) :
    ∃ (ending : Store.Ending) (w : Shared) (c' : Community),
      c.perform i refusal work = (ending.1, c') ∧
      c' = { c with
        host := w.1
        registry := w.2
        members := c.members.set i { m with store := ending.2 } } ∧
      c'.Kept location ∧ Host.KeepsChannels c.host w.1 ∧ R ending w := by
  obtain ⟨others, hperm, hset, -⟩ := exists_others rowsOf hm
  obtain ⟨hsettled, hresult⟩ := hwork others (hkept.books.perm hperm)
    (hkept.tidy m (List.mem_of_getElem? hm))
  rcases hrun : (work ⟨c.config, m.pipe⟩ m.store).run
    ((Handler.refusing refusal).answer c.config) (c.host, c.registry) with ⟨ending, w⟩
  rw [hrun] at hsettled hresult
  refine ⟨ending, w, _, perform_eq hm refusal work hrun, rfl, ⟨?_, ?_⟩, hsettled.keeps, hresult⟩
  · exact hsettled.books.perm (hset { m with store := ending.2 }).symm
  · intro m' hm'
    rcases List.mem_or_eq_of_mem_set hm' with hold | rfl
    · exact hkept.tidy m' hold
    · exact hsettled.tidy

/-- Nobody is there to do the work. -/
theorem perform_of_none {i : Nat} (hm : c.members[i]? = none) (refusal : Option Error)
    (work : Order.Work) : c.perform i refusal work = (.ok (), c) := by
  simp only [Community.perform, hm]

theorem Kept.perform (hkept : c.Kept location) (i : Nat) {refusal : Option Error}
    {work : Order.Work} (hwork : Store.Settles c.config refusal work) :
    (c.perform i refusal work).2.Kept location := by
  cases hm : c.members[i]? with
  | none =>
      rw [perform_of_none hm]
      exact hkept
  | some m =>
      obtain ⟨ending, w, c', hperform, -, hkept', -⟩ := hkept.exists_perform hm refusal work
        (R := fun _ _ => True) fun others hbooks htidy =>
          (hwork location _ others m.pipe m.store hbooks htidy).mono fun _ _ h => ⟨h, trivial⟩
      rw [hperform]
      exact hkept'

/-- What becomes of the files does not matter, as long as the names are kept. -/
theorem Kept.of_entries {h : Host} (hkept : c.Kept location)
    (hentries : h.disk.entries = c.host.disk.entries) :
    ({ c with host := h } : Community).Kept location :=
  ⟨hkept.books.congr hentries, hkept.tidy⟩

theorem Kept.removeAll (hkept : c.Kept location) (i : Nat) :
    (c.removeAll i).2.Kept location :=
  hkept.perform i fun _ _ _ _ _ hbooks htidy =>
    (Store.removeAll_leads _ hbooks htidy).mono fun _ _ h => h.1

/-- A member that has removed everything is without rows. -/
theorem removeAll_eq (hkept : c.Kept location) {i : Nat} {m : Member}
    (hm : c.members[i]? = some m) :
    ∃ w : Shared, c.removeAll i = (.ok (), { c with
      host := w.1
      registry := w.2
      members := c.members.set i { m with store := .empty } }) := by
  obtain ⟨ending, w, c', hperform, hc', -, -, hending⟩ := hkept.exists_perform hm none
    (fun site s => s.removeAll site)
    fun others hbooks htidy => Store.removeAll_leads m.pipe hbooks htidy
  refine ⟨w, hperform.trans ?_⟩
  rw [hc', hending]

/-- A member without rows can go. -/
theorem Kept.eraseIdx (hkept : c.Kept location) {i : Nat} {m : Member}
    (hm : c.members[i]? = some m) (hrows : rowsOf m = []) :
    ({ c with members := c.members.eraseIdx i } : Community).Kept location := by
  obtain ⟨others, hperm, -, herase⟩ := exists_others rowsOf hm
  rw [hrows, List.nil_append] at hperm
  refine ⟨?_, fun m' hm' => hkept.tidy m' (List.mem_of_mem_eraseIdx hm')⟩
  have hbooks := hkept.books.perm hperm
  rw [← herase] at hbooks
  exact hbooks

theorem Kept.leave (hkept : c.Kept location) (i : Nat) : (c.leave i).Kept location := by
  unfold Community.leave
  cases hm : c.members[i]? with
  | none => exact hkept
  | some m =>
      dsimp only
      split
      · exact hkept.eraseIdx hm (Store.rows_of_isEmpty ‹_›)
      · have hafter := hkept.removeAll i
        obtain ⟨w, hremove⟩ := removeAll_eq hkept hm
        rw [hremove] at hafter ⊢
        have hthere : (c.members.set i { m with store := .empty })[i]? =
            some { m with store := .empty } := by
          rw [List.getElem?_set_self (List.getElem?_eq_some_iff.1 hm).1]
        exact hafter.eraseIdx hthere Store.rows_empty

theorem Kept.poll (hkept : c.Kept location) (i : Nat) (timeout : Span) :
    (c.poll i timeout).2.Kept location := by
  unfold Community.poll
  cases hm : c.members[i]? with
  | none => exact hkept
  | some m =>
      have htidy := hkept.tidy m (List.mem_of_getElem? hm)
      obtain ⟨hmold, hentries⟩ := Store.pollGroups_mold c.config.readSpan timeout m.pipe
        m.store.changes.toList c.host
      obtain ⟨hrows, htidy'⟩ := Store.of_mold_eq hmold htidy
      obtain ⟨others, hperm, hset, -⟩ := exists_others rowsOf hm
      have hbooks := (hkept.books.congr hentries).perm hperm
      have hsame : rowsOf { m with store := { m.store with
          changes := ⟨(Store.pollGroups c.config.readSpan timeout m.store.changes.toList
            c.host).2.1⟩ } } = rowsOf m := hrows
      rw [← hsame] at hbooks
      refine ⟨hbooks.perm (hset _).symm, ?_⟩
      intro m' hm'
      rcases List.mem_or_eq_of_mem_set hm' with hold | rfl
      · exact hkept.tidy m' hold
      · exact htidy'

theorem Kept.use (hkept : c.Kept location) (handle : Segment) (kind : HeaderKind) (what : Use)
    (readTimeout timeout : Span) :
    (c.use handle kind what readTimeout timeout).2.Kept location := by
  have hnames := Visit.act_within Host.names_admits kind ⟨0, what, readTimeout, timeout⟩
    ⟨handle, c.host⟩
  unfold Community.use
  cases hact : Visit.act kind ⟨0, what, readTimeout, timeout⟩ ⟨handle, c.host⟩ with
  | ok response a =>
      rw [hact] at hnames
      exact hkept.of_entries hnames.2
  | error f a =>
      rw [hact] at hnames
      exact hkept.of_entries hnames.2

/-- **No operation puts the books out of order.** -/
theorem Kept.step (hkept : c.Kept location) (operation : Operation) :
    (c.step operation).Kept location := by
  cases operation with
  | join pipe =>
      refine ⟨?_, ?_⟩
      · have hrows : (c.members ++ [(⟨pipe, .empty⟩ : Member)]).flatMap rowsOf =
            c.members.flatMap rowsOf := by
          rw [List.flatMap_append, List.flatMap_singleton, rowsOf, Store.rows_empty,
            List.append_nil]
        have hbooks := hkept.books
        rw [← hrows] at hbooks
        exact hbooks
      · intro m hm
        rcases List.mem_append.1 hm with hold | hlast
        · exact hkept.tidy m hold
        · rw [List.mem_singleton.1 hlast]
          exact Store.tidy_empty
  | carryOut member order refusal =>
      show (c.carryOut member order refusal).2.Kept location
      unfold Community.carryOut
      cases hplan : order.plan with
      | error f => exact hkept
      | ok work => exact hkept.perform member (Order.settles refusal hplan)
  | removeAll member => exact hkept.removeAll member
  | leave member => exact hkept.leave member
  | poll member timeout => exact hkept.poll member timeout
  | use handle kind what readTimeout timeout => exact hkept.use handle kind what _ _

theorem Kept.run (hkept : c.Kept location) (operations : List Operation) :
    (c.run operations).Kept location := by
  induction operations generalizing c with
  | nil => exact hkept
  | cons operation rest ih => exact ih (hkept.step operation)

/-- The books of a new community are empty. -/
theorem IsNew.kept (hnew : c.IsNew) : ∃ location, c.Kept location := by
  obtain ⟨hmembers, hregistry, location, hreached, hempty⟩ := hnew
  have hshelf : c.host.disk.IsShelf c.config.segmentDir location :=
    ⟨hreached, fun name => by simp [hempty name]⟩
  have hnothing : ∀ key, c.host.disk.standing c.config.segmentDir key = none := by
    intro key
    rw [Option.eq_none_iff_forall_ne_some]
    intro id hid
    have hentry := (hshelf.standing_eq_some_iff.1 hid).2
    simp [hempty key.name] at hentry
  refine ⟨location, ⟨⟨hshelf, ?_, ?_, ?_, ?_⟩, ?_⟩, ?_⟩
  · intro key hkey
    simp [hnothing key] at hkey
  · rw [hregistry]
    exact Registry.inOrder_empty
  · rw [hregistry, hmembers]
    exact List.Perm.refl _
  · simp [hmembers]
  · intro key
    simp [hnothing key, hmembers]
  · simp [hmembers]

/-! ## The agreement -/

/-- Subscriptions, registry and files agree. -/
structure Agrees (c : Community) : Prop where
  /-- The registry holds the descriptors of all subscriptions of all members, each as often
  as there are such subscriptions. -/
  descriptors : c.registry.all ~ c.members.flatMap fun m => m.store.descriptors m.pipe
  /-- The pipes to wake are in ascending order, each of them once. -/
  ascending : ∀ key, (c.registry.pipes key).Pairwise (· < ·)
  /-- They are those of the members that have a subscription on the key. -/
  pipes : ∀ key n, n ∈ c.registry.pipes key ↔
    ∃ m ∈ c.members, m.pipe = n ∧ ∃ d ∈ m.store.descriptors m.pipe, d.key = key
  /-- There is a file for a key as long as the registry knows somebody there. -/
  files : ∀ key, (c.host.disk.fileAt (c.config.segmentPath key)).isSome = true ↔
    c.registry.subscribers key ≠ []
  /-- Every subscription listens on the file that is there. -/
  handles : ∀ m ∈ c.members, ∀ x ∈ m.store.listed m.pipe, ∃ file, x.2.file = some file ∧
    c.host.disk.fileAt (c.config.segmentPath x.1.key) = some file
  /-- No group is empty, and none is there twice. -/
  groups : ∀ m ∈ c.members, m.store.Tidy

/-- Books that are kept are what the members, the registry and the directory say. -/
theorem Kept.agrees (hkept : c.Kept location) : c.Agrees := by
  obtain ⟨hbooks, htidy⟩ := hkept
  have hdescriptors : c.registry.all ~ c.members.flatMap fun m => m.store.descriptors m.pipe := by
    refine hbooks.descriptors.trans (List.Perm.of_eq ?_)
    rw [List.map_flatMap]
    exact List.flatMap_congr fun m _ => Store.map_fst_rows m.store m.pipe
  refine ⟨hdescriptors, fun key => Registry.pairwise_pipes _ key, ?_, ?_, ?_, htidy⟩
  · intro key n
    rw [Registry.mem_pipes hbooks.ordered]
    constructor
    · rintro ⟨d, hd, hkey, hpipe⟩
      obtain ⟨m, hm, hdm⟩ := List.mem_flatMap.1 (hdescriptors.mem_iff.1 hd)
      exact ⟨m, hm, (Store.pipe_of_mem_descriptors hdm).symm.trans hpipe, d, hdm, hkey⟩
    · rintro ⟨m, hm, rfl, d, hd, hkey⟩
      exact ⟨d, hdescriptors.mem_iff.2 (List.mem_flatMap.2 ⟨m, hm, hd⟩), hkey,
        Store.pipe_of_mem_descriptors hd⟩
  · intro key
    refine (hbooks.stands key).trans ?_
    constructor
    · rintro ⟨row, hrow, hkey⟩
      have hall := hbooks.descriptors.mem_iff.2 (List.mem_map_of_mem hrow)
      exact List.ne_nil_of_mem ((Registry.mem_subscribers hbooks.ordered).2 ⟨hall, hkey⟩)
    · intro hsome
      obtain ⟨d, hd⟩ := List.exists_mem_of_ne_nil _ hsome
      obtain ⟨hall, hkey⟩ := (Registry.mem_subscribers hbooks.ordered).1 hd
      obtain ⟨row, hrow, rfl⟩ := List.mem_map.1 (hbooks.descriptors.mem_iff.1 hall)
      exact ⟨row, hrow, hkey⟩
  · intro m hm x hx
    have hrow : Store.bareRow x ∈ c.members.flatMap rowsOf :=
      List.mem_flatMap.2 ⟨m, hm, List.mem_map_of_mem hx⟩
    obtain ⟨file, hfile⟩ := Option.isSome_iff_exists.1 (Store.there_of_mem hbooks hrow)
    exact ⟨file, (hbooks.handles _ hrow).trans hfile, hfile⟩

/-- **Subscriptions, registry and files always agree.**  Nobody has joined a community
yet, and its segment directory is empty.  Then any number of contexts join, carry out
orders, remove what they have, poll and leave, and the segments are used by anybody,
in any order; orders may be refused by the registry, and may fail or be impossible.
After every such run, the registry holds the descriptors of all subscriptions of all
members and no others, and names the pipes of the members that listen on a key, in
ascending order and each once; a file stands under a key exactly when the registry
knows somebody there, and every subscription has its handle on that very file; and no
member has two groups for the same thing. -/
theorem run_agrees {c : Community} (hnew : c.IsNew) (operations : List Operation) :
    (c.run operations).Agrees := by
  obtain ⟨location, hkept⟩ := hnew.kept
  exact (hkept.run operations).agrees

/-- A community whose segments go into an empty working directory. -/
def atStart : Community := ⟨.withRoot "", .fresh, .empty, []⟩

theorem atStart_isNew : atStart.IsNew := by
  refine ⟨rfl, rfl, [], by with_unfolding_all rfl, ?_⟩
  intro name
  with_unfolding_all rfl

/-- The statement where two members share a segment, and the one who made it goes. -/
theorem run_agrees_when_founder_leaves :
    atStart.IsNew ∧
      (atStart.run [.join 7, .join 3,
        .carryOut 0 (.addChange "m" .running none 9 default "first" none) none,
        .carryOut 1 (.addChange "m" .running none 5 default "second" none) none,
        .leave 0]).Agrees :=
  ⟨atStart_isNew, run_agrees atStart_isNew _⟩

end Community

end Subscription
