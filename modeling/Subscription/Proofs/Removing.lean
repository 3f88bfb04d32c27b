import Subscription.Proofs.CallsTold
import Subscription.Proofs.PlanEnds

/-!
# What is removed has left

The diary says that a subscription left when the machine does not have it any
more.  Here is what makes it leave: when a subscription to notifications is
removed, one leaves that was made with the same arguments
(`Record.leaves_of_removeNotification`), and when all subscriptions of a
context are removed, nobody stays (`Record.leaves_of_removeAll`).  Either is
in the diary as soon as the command has ended, whether it came from the
outside or from a callback.
-/

namespace Subscription

/-! ## Plans -/

namespace Store

variable {s s' : Store}

/-- One subscription that was made with the arguments is not there any more. -/
theorem perm_enrolments_erase {module : String} {q : NotificationQuery} {place entry : Nat}
    (hlocate : s.notifications.locate? (fun c => c.module = module) q.isOf = some (place, entry))
    (id : ContextId) :
    ∃ sub, q.isOf sub = true ∧
      (s.enrolments id).Perm (enrol id module sub ::
        enrolments { s with notifications := s.notifications.erase place entry } id) := by
  obtain ⟨shared, sub, -, hgroup, hisOf, hdrops⟩ := Groups.drops_of_locate? hlocate
  have hmodule : shared.module = module := by simpa using hgroup
  refine ⟨sub, hisOf, ?_⟩
  have hperm := hdrops.perm_entries.map fun entry => enrol id entry.1.module entry.2
  rwa [List.map_cons, hmodule] at hperm

end Store

/-! ## Contexts -/

namespace Machine

variable {α : Type} {machine machine' : Machine} {nested : Command → MachineM Answer}
  {id : ContextId}

theorem storeAt_updateContext {change : Context → Context} {u : Unit}
    (hrun : updateContext id change machine = .ok u machine')
    (hchange : ∀ c, (change c).store = c.store) :
    machine'.storeAt id = machine.storeAt id := by
  cases hrun
  exact storeAt_modify_of_store change hchange machine id id

theorem storeAt_runHost {act : HostM Failure α} {a : α}
    (hrun : runHost act machine = .ok a machine') : machine'.storeAt id = machine.storeAt id := by
  unfold runHost onHost onPart at hrun
  split at hrun
  · cases hrun
    rfl
  · cases hrun

/-- A context that is there has the subscriptions that were settled. -/
theorem storeAt_settle {store : Store} {u : Unit}
    (hrun : settle id store machine = .ok u machine') :
    machine'.storeAt id = store ∨ machine'.storeAt id = .empty := by
  cases hrun
  simp only [storeAt, List.getD_eq_getElem?_getD, List.getElem?_modify_eq]
  cases machine.contexts[id]? with
  | none => exact .inr rfl
  | some c => exact .inl rfl

/-- Subscriptions with which a plan has ended. -/
def EndsWith (nested : Command → MachineM Answer) (id : ContextId)
    (plan : Site → Store → Plan Store.Ending) (s : Store) (result : Except Failure Unit)
    (s' : Store) : Prop :=
  ∃ site registry before after,
    (plan site s).run ((handler nested id registry).answer site.config) before =
      .ok (result, s') after

theorem EndsWith.canEnd {plan : Site → Store → Plan Store.Ending} {s s' : Store}
    {result : Except Failure Unit} (hends : EndsWith nested id plan s result s') :
    ∃ site, (plan site s).CanEnd (result, s') := by
  obtain ⟨site, registry, before, after, hrun⟩ := hends
  exact ⟨site, Plan.canEnd_of_run hrun⟩

theorem runPlan_ok {plan : Site → Store → Plan Store.Ending} {result : Except Failure Unit}
    (hrun : runPlan nested id plan machine = .ok result machine') :
    ∃ store, EndsWith nested id plan (machine.storeAt id) result store ∧
      (machine'.storeAt id = store ∨ machine'.storeAt id = .empty) := by
  have hcontext : contextAt id machine = .ok (machine.contexts.getD id default) machine := rfl
  unfold runPlan at hrun
  rw [bind_of_ok hcontext, get_bind_eq] at hrun
  obtain ⟨⟨result', store⟩, mid, hplan, hrun⟩ := exists_of_bind_ok hrun
  obtain ⟨u, last, hsettle, hlast⟩ := exists_of_bind_ok hrun
  cases hlast
  exact ⟨store, ⟨_, _, _, _, hplan⟩, storeAt_settle hsettle⟩

theorem abandon_ok {u : Unit} (hrun : abandon nested id machine = .ok u machine') :
    machine'.storeAt id = machine.storeAt id ∨ machine'.storeAt id = .empty := by
  have hcontext : contextAt id machine = .ok (machine.contexts.getD id default) machine := rfl
  unfold abandon at hrun
  rw [bind_of_ok hcontext] at hrun
  split at hrun
  · cases hrun
    exact .inl rfl
  · obtain ⟨result, mid, hplan, hrun⟩ := exists_of_bind_ok hrun
    obtain ⟨store, hends, hstore⟩ := runPlan_ok hplan
    obtain ⟨site, hends⟩ := hends.canEnd
    obtain rfl : store = .empty := Store.ends_of_removeAll hends
    rw [or_self] at hstore
    refine .inr (Eq.trans ?_ hstore)
    split at hrun
    · exact storeAt_runHost hrun
    · cases hrun
      rfl

theorem releaseContext_ok {u : Unit} (hrun : releaseContext nested id machine = .ok u machine') :
    machine'.storeAt id = machine.storeAt id ∨ machine'.storeAt id = .empty := by
  unfold releaseContext at hrun
  obtain ⟨u, mid, hupdate, hrun⟩ := exists_of_bind_ok hrun
  have hstore := storeAt_updateContext hupdate fun _ => rfl
  have hcontext : contextAt id mid = .ok (mid.contexts.getD id default) mid := rfl
  rw [bind_of_ok hcontext] at hrun
  rw [← hstore]
  split at hrun
  · exact abandon_ok hrun
  · cases hrun
    exact .inl rfl

theorem whileLocked_ok {operation : String} {act : Context → MachineM α} {a : α}
    (hrun : whileLocked id operation act machine = .ok a machine') :
    ∃ before after, before.storeAt id = machine.storeAt id ∧
      act (machine.contexts.getD id default) before = .ok a after ∧
      machine'.storeAt id = after.storeAt id := by
  by_cases hbusy : (machine.contexts.getD id default).busy = true
  · exact absurd hrun (whileLocked_ne_ok hbusy a machine')
  · rw [whileLocked_eq hbusy] at hrun
    cases hact : act (machine.contexts.getD id default) (machine.marked id true) with
    | error e after =>
        rw [hact] at hrun
        cases hrun
    | ok b after =>
        rw [hact] at hrun
        cases hrun
        exact ⟨machine.marked id true, after, storeAt_marked id true machine id, hact,
          storeAt_marked id false after id⟩

theorem withContext_ok {name : String} {act : ContextId → MachineM α} {a : α}
    (hrun : withContext nested name act machine = .ok a machine') :
    ∃ id before after, machine.contextNames.lookup name = some id ∧
      before.storeAt id = machine.storeAt id ∧ act id before = .ok a after ∧
      (machine'.storeAt id = after.storeAt id ∨ machine'.storeAt id = .empty) := by
  unfold withContext at hrun
  cases hname : machine.contextNames.lookup name with
  | none =>
      rw [bind_of_error (find_of_none hname)] at hrun
      cases hrun
  | some id =>
      rw [bind_of_ok (find_of_some hname)] at hrun
      obtain ⟨u, before, hhold, hrun⟩ := exists_of_bind_ok hrun
      obtain ⟨after, hact, hrelease⟩ := exists_of_attempt_ok hrun
      exact ⟨id, before, after, rfl, storeAt_updateContext hhold (fun _ => rfl), hact,
        releaseContext_ok hrelease⟩

/-- An operation that did not fail leaves the subscriptions that its plan has
ended with, or none if the context was given up. -/
theorem operate_ok {name operation : String} {plan : Site → Store → Plan Store.Ending}
    {a : Answer} (hrun : operate nested name operation plan machine = .ok a machine') :
    ∃ id store, machine.contextNames.lookup name = some id ∧
      EndsWith nested id plan (machine.storeAt id) (.ok ()) store ∧
      (machine'.storeAt id = store ∨ machine'.storeAt id = .empty) := by
  obtain ⟨id, before, after, hname, hbefore, hact, hlast⟩ := withContext_ok hrun
  obtain ⟨result, mid, hlocked, hresult⟩ := exists_of_bind_ok hact
  obtain ⟨start, done, hstart, hplan, hdone⟩ := whileLocked_ok hlocked
  obtain ⟨store, hends, hstore⟩ := runPlan_ok hplan
  rw [hstart, hbefore] at hends
  cases result with
  | error f => cases hresult
  | ok u =>
      cases hresult
      refine ⟨id, store, hname, hends, ?_⟩
      rcases hlast with hlast | hempty
      · rwa [hlast, hdone]
      · exact .inr hempty

theorem context_of_mem {s : Store} {e : Enrolment} (he : e ∈ s.enrolments id) : e.context = id := by
  obtain ⟨entry, hentry, rfl⟩ := List.mem_map.mp he
  rfl

theorem filter_zipIdx (contexts : List Context) (i n : Nat) :
    (((contexts.zipIdx n).flatMap fun c => c.1.store.enrolments c.2).filter
      fun e => e.context = i) =
        if n ≤ i then (contexts.getD (i - n) default).store.enrolments i else [] := by
  induction contexts generalizing n with
  | nil => exact (ite_self _).symm
  | cons c rest ih =>
      have hhere : (c.store.enrolments n).filter (fun e => e.context = i) =
          if n = i then c.store.enrolments n else [] := by
        split
        · rename_i heq
          exact List.filter_eq_self.mpr fun e he => by simp [context_of_mem he, heq]
        · rename_i hne
          exact List.filter_eq_nil_iff.mpr fun e he => by simpa [context_of_mem he] using hne
      rw [List.zipIdx_cons, List.flatMap_cons, List.filter_append, ih, hhere]
      rcases Nat.lt_trichotomy n i with hlt | heq | hgt
      · have hsub : i - n = (i - (n + 1)) + 1 := by omega
        rw [if_neg (by omega), if_pos (by omega), if_pos (by omega), hsub, List.getD_cons_succ,
          List.nil_append]
      · subst heq
        rw [if_pos rfl, if_neg (by omega), if_pos (Nat.le_refl n), Nat.sub_self,
          List.getD_cons_zero, List.append_nil]
      · rw [if_neg (by omega), if_neg (by omega), if_neg (by omega), List.nil_append]

/-- What a machine has of a context is what is in its store. -/
theorem filter_enrolments (machine : Machine) (id : ContextId) :
    (machine.enrolments.filter fun e => e.context = id) = (machine.storeAt id).enrolments id := by
  rw [enrolments, filter_zipIdx, if_pos (Nat.zero_le id), Nat.sub_zero]
  rfl

/-- How often a machine has a subscription. -/
theorem count_enrolments (machine : Machine) {e : Enrolment} (he : e.context = id) :
    machine.enrolments.count e = ((machine.storeAt id).enrolments id).count e := by
  rw [← filter_enrolments]
  exact (List.count_filter (by simpa using he)).symm

end Machine

namespace Record

variable {r r' : Record} {e : Enrolment} {bound : Nat} {a : Answer}

theorem standing_append {past : Diary} (recent : Diary) {entry : Nat × Enrolment}
    (hentry : entry ∈ past.standing) (hstays : .left entry.1 ∉ recent) :
    entry ∈ Diary.standing (recent ++ past) := by
  induction recent with
  | nil => exact hentry
  | cons incident recent ih =>
      rw [List.mem_cons, not_or] at hstays
      have hbefore := ih hstays.2
      cases incident with
      | enrolled e => exact List.mem_cons_of_mem _ hbefore
      | left place =>
          refine List.mem_filter.mpr ⟨hbefore, ?_⟩
          simp only [ne_eq, decide_eq_true_eq]
          intro heq
          exact hstays.1 (by rw [heq])
      | took places => exact hbefore
      | called delivery target r => exact hbefore
      | asked r => exact hbefore

/-- When there are fewer subscriptions that were made alike, one has left. -/
theorem exists_left {recent past : Diary}
    (hless : ((Diary.standing (recent ++ past)).map Prod.snd).count e <
      (past.standing.map Prod.snd).count e) :
    ∃ came, (came, e) ∈ past.standing ∧ .left came ∈ recent := by
  by_contra hnone
  have hcount : ∀ roll : Roll, (roll.map Prod.snd).count e =
      (roll.filter fun entry => entry.2 = e).length := by
    intro roll
    rw [List.count_eq_countP, List.countP_map, List.countP_eq_length_filter]
    congr 2
  have hstay : (past.standing.filter fun entry => entry.2 = e) ⊆
      (Diary.standing (recent ++ past)).filter fun entry => entry.2 = e := by
    intro entry hentry
    obtain ⟨hthere, he⟩ := List.mem_filter.mp hentry
    refine List.mem_filter.mpr ⟨standing_append recent hthere fun hleft => hnone ?_, he⟩
    exact ⟨entry.1, of_decide_eq_true he ▸ hthere, hleft⟩
  have hnodup := ((Diary.nodup_standing past).of_map).filter fun entry => entry.2 = e
  have hle := (List.subperm_of_subset hnodup hstay).length_le
  rw [← hcount, ← hcount] at hle
  omega

/-- What a command of the machine leaves in the record. -/
theorem keep_ok {α : Type} {act : MachineM α} {a : α} (hrun : keep act r = .ok a r') :
    ∃ machine, act r.machine = .ok a machine ∧ r' = upTo machine r.diary := by
  unfold keep at hrun
  cases hact : act r.machine with
  | ok b machine =>
      rw [hact] at hrun
      cases hrun
      exact ⟨machine, rfl, rfl⟩
  | error e machine =>
      rw [hact] at hrun
      cases hrun

theorem subscriberOf_ok {subscriber : Subscriber} {who : Recipient} {machine machine' : Machine}
    (hrun : Machine.subscriberOf subscriber machine = .ok who machine') : machine' = machine := by
  unfold Machine.subscriberOf at hrun
  cases hcb : machine.callbacks.lookup subscriber.callback with
  | none =>
      rw [bind_of_error (Machine.find_of_none hcb)] at hrun
      cases hrun
  | some cb =>
      rw [bind_of_ok (Machine.find_of_some hcb)] at hrun
      cases hrun
      rfl

/-- **A subscription that is removed leaves.**  When the command has not
failed, one has left that was made with the same arguments. -/
theorem leaves_of_removeNotification (hr : r.UpToDate) {name module : String}
    {xpath : Option String} {start stop : Option Int} {subscriber : Subscriber}
    (hrun : run (bound + 1)
      (.context (.removeNotification name module xpath start stop subscriber)) r = .ok a r') :
    ∃ id who sub came,
      r.machine.contextNames.lookup name = some id ∧
      Machine.subscriberOf subscriber r.machine = .ok who r.machine ∧
      Store.NotificationQuery.isOf ⟨xpath, start, stop, who.callback, who.data⟩ sub = true ∧
      r.diary.entryAt came = some (.enrolled (Store.enrol id module sub)) ∧
      .left came ∉ r.diary ∧ .left came ∈ r'.diary := by
  obtain ⟨machine, hmachine, rfl⟩ := keep_ok hrun
  obtain ⟨who, mid, hwho, hremove⟩ := exists_of_bind_ok hmachine
  obtain rfl := subscriberOf_ok hwho
  obtain ⟨id, store, hname, hends, hstore⟩ := Machine.operate_ok hremove
  obtain ⟨site, hends⟩ := hends.canEnd
  obtain ⟨f, hf⟩ | ⟨place, entry, hlocate, hdone⟩ := Store.ends_of_removeNotification hends
  · cases hf
  obtain rfl := (Prod.mk.inj hdone).2
  obtain ⟨sub, hisOf, hperm⟩ := Store.perm_enrolments_erase hlocate id
  obtain ⟨recent, hrecent, -⟩ := r.diary.bringUp_eq machine.enrolments
  have hcontext : (Store.enrol id module sub).context = id := rfl
  have hless : machine.enrolments.count (Store.enrol id module sub) <
      r.machine.enrolments.count (Store.enrol id module sub) := by
    rw [machine.count_enrolments hcontext, r.machine.count_enrolments hcontext, hperm.count_eq,
      List.count_cons_self]
    rcases hstore with herased | hempty
    · rw [herased]
      exact Nat.lt_succ_self _
    · rw [hempty]
      exact Nat.zero_lt_succ _
  rw [← (Diary.standing_bringUp r.diary machine.enrolments).count_eq, ← hr.present.count_eq,
    hrecent] at hless
  obtain ⟨came, hcame, hleft⟩ := exists_left hless
  refine ⟨id, who, sub, came, hname, hwho, hisOf, Diary.standing_place r.diary _ hcame,
    hr.orderly.not_left came (List.mem_map_of_mem hcame), ?_⟩
  show .left came ∈ r.diary.bringUp machine.enrolments
  rw [hrecent]
  exact List.mem_append_left _ hleft

/-- **When all subscriptions of a context are removed, nobody stays.** -/
theorem leaves_of_removeAll {name : String}
    (hrun : run (bound + 1) (.context (.removeAll name)) r = .ok a r') :
    ∃ id, r.machine.contextNames.lookup name = some id ∧
      ∀ entry ∈ r'.diary.standing, entry.2.context ≠ id := by
  obtain ⟨machine, hmachine, rfl⟩ := keep_ok hrun
  obtain ⟨id, store, hname, hends, hstore⟩ := Machine.operate_ok hmachine
  obtain ⟨site, hends⟩ := hends.canEnd
  obtain rfl : store = .empty := Store.ends_of_removeAll hends
  rw [or_self] at hstore
  refine ⟨id, hname, fun entry hentry hid => ?_⟩
  have hmem : entry.2 ∈ machine.enrolments :=
    (Diary.standing_bringUp r.diary machine.enrolments).mem_iff.mp (List.mem_map_of_mem hentry)
  have hthere : entry.2 ∈ machine.enrolments.filter fun e => e.context = id :=
    List.mem_filter.mpr ⟨hmem, decide_eq_true hid⟩
  rw [Machine.filter_enrolments, hstore] at hthere
  cases hthere

end Record

end Subscription
