import Subscription.Proofs.Collections
import Subscription.Proofs.DiaryOrder

/-!
# Recorded runs are in order

Whatever a machine is told to do, its diary stays in order and up to date
(`Record.run_within`).  What a delivery takes for its targets are
subscriptions that are there (`Machine.targets_sublist`), and while it calls
them one after the other, what their callbacks run may bring and take away
subscriptions and deliver other notifications.  None of that touches the
entry of the delivery, and no other delivery calls in its name: so all that
has to be known between two calls is which of the targets are still to be
called (`Record.Awaits`).
-/

namespace Subscription

/-! ## Targets are there -/

theorem Store.targets_sublist (s : Store) (id : ContextId) (module : String) (notice : Notice) :
    (s.targets id module notice).Sublist (s.enrolments id) := by
  unfold targets
  cases hplace : s.notifications.position? fun c => c.module = module with
  | none => exact List.nil_sublist _
  | some place =>
      obtain ⟨g, hget, htest⟩ := SwapSet.exists_get?_of_position? hplace
      have hmodule : g.shared.module = module := by simpa using htest
      have hall : g.subs.toList.map (enrol id module) =
          (Groups.entriesOf g).map fun entry => enrol id entry.1.module entry.2 := by
        simp [Groups.entriesOf, hmodule]
      have hmem : Groups.entriesOf g ∈ s.notifications.toList.map Groups.entriesOf :=
        List.mem_map_of_mem (Groups.mem_of_get? hget)
      simp only [hget, Option.map_some, Option.getD_some]
      refine (List.filter_sublist.map _).trans ?_
      rw [hall, enrolments, Groups.entries_eq, List.flatMap_def]
      exact (List.sublist_flatten_of_mem hmem).map _

/-- Nothing is delivered to a subscription that is not there. -/
theorem Machine.targets_sublist (machine : Machine) (id : ContextId) (module : String)
    (notice : Notice) : (machine.targets id module notice).Sublist machine.enrolments := by
  unfold targets enrolments
  cases hcontext : machine.contexts[id]? with
  | none =>
      rw [List.getD_eq_getElem?_getD, hcontext]
      exact List.nil_sublist _
  | some c =>
      rw [List.getD_eq_getElem?_getD, hcontext, Option.getD_some, List.flatMap_def]
      refine (Store.targets_sublist c.store id module notice).trans ?_
      have hmem : (c, id) ∈ machine.contexts.zipIdx := List.mk_mem_zipIdx_iff_getElem?.mpr hcontext
      exact List.sublist_flatten_of_mem (List.mem_map_of_mem hmem)

namespace Record

/-- The diary is in order and knows who is there. -/
structure UpToDate (r : Record) : Prop where
  orderly : r.diary.Orderly
  present : (r.diary.standing.map Prod.snd).Perm r.machine.enrolments

/-- A record is up to date and has gone on; of the deliveries that had begun
before, only some have made calls since. -/
structure GoesOn (mayCall : Nat → Nat → Prop) (r r' : Record) : Prop where
  upToDate : r'.UpToDate
  grows : ∃ recent, r'.diary = recent ++ r.diary ∧
    ∀ delivery target x, .called delivery target x ∈ recent →
      r.diary.length ≤ delivery ∨ mayCall delivery target

variable {r r' r'' : Record} {mayCall mayCall' : Nat → Nat → Prop}

theorem GoesOn.refl (hr : r.UpToDate) : GoesOn mayCall r r := ⟨hr, [], rfl, nofun⟩

theorem GoesOn.trans (hfirst : GoesOn mayCall r r') (hnext : GoesOn mayCall' r' r'')
    (hmay : ∀ delivery target, mayCall' delivery target →
      r.diary.length ≤ delivery ∨ mayCall delivery target) : GoesOn mayCall r r'' := by
  obtain ⟨recent, hrecent, hcalls⟩ := hfirst.grows
  obtain ⟨recent', hrecent', hcalls'⟩ := hnext.grows
  refine ⟨hnext.upToDate, recent' ++ recent, by rw [hrecent', hrecent, List.append_assoc], ?_⟩
  intro delivery target x hmem
  rcases List.mem_append.mp hmem with hlater | hbefore
  · rcases hcalls' delivery target x hlater with hnew | hmine
    · have hlength : r'.diary.length = recent.length + r.diary.length := by simp [hrecent]
      exact .inl (by omega)
    · exact hmay delivery target hmine
  · exact hcalls delivery target x hbefore

/-- No delivery that had begun before makes calls. -/
def onlyOwn : Nat → Nat → Prop := fun _ _ => False

theorem GoesOn.mono (hgoes : GoesOn mayCall r r')
    (hmay : ∀ delivery target, mayCall delivery target → mayCall' delivery target) :
    GoesOn mayCall' r r' := by
  obtain ⟨hdate, recent, hrecent, hcalls⟩ := hgoes
  exact ⟨hdate, recent, hrecent, fun delivery target x hmem =>
    (hcalls delivery target x hmem).imp_right (hmay delivery target)⟩

/-- What a command does to a record that is up to date. -/
def ownCalls : Frame Record where
  keeps r r' := r.UpToDate → GoesOn onlyOwn r r'
  refl _ hr := .refl hr
  trans hfirst hnext hr := (hfirst hr).trans (hnext (hfirst hr).upToDate) fun _ _ => False.elim

theorem upTo_goesOn {past : Diary} {machine : Machine} (horderly : past.Orderly)
    (hpast : ∃ recent, past = recent ++ r.diary ∧
      ∀ delivery target x, .called delivery target x ∉ recent) :
    GoesOn mayCall r (upTo machine past) := by
  obtain ⟨recent, rfl, hcalls⟩ := hpast
  obtain ⟨latest, hlatest, hcalls'⟩ := (recent ++ r.diary).bringUp_eq machine.enrolments
  refine ⟨⟨horderly.bringUp _, Diary.standing_bringUp _ _⟩, latest ++ recent, ?_, ?_⟩
  · rw [List.append_assoc, ← hlatest]
    rfl
  · intro delivery target x hmem
    rcases List.mem_append.mp hmem with hlater | hbefore
    · exact absurd hlater (hcalls' delivery target x)
    · exact absurd hbefore (hcalls delivery target x)

variable {α : Type}

theorem keep_within (act : MachineM α) : Within ownCalls (keep act) := by
  intro r hr
  have hpast : ∃ recent, r.diary = recent ++ r.diary ∧
      ∀ delivery target x, Incident.called delivery target x ∉ recent := ⟨[], rfl, nofun⟩
  unfold keep
  cases act r.machine with
  | ok a machine => exact upTo_goesOn hr.orderly hpast
  | error e machine => exact upTo_goesOn hr.orderly hpast

/-- A recorded action that goes on after another one. -/
theorem GoesOn.bind {β : Type} {x : RecordM α} {f : α → RecordM β} {mayCall'' : Nat → Nat → Prop}
    (hx : GoesOn mayCall r (stateAfter (x r)))
    (hf : ∀ a mid, GoesOn mayCall r mid → GoesOn mayCall' mid (stateAfter (f a mid)))
    (hmay : ∀ delivery target, mayCall delivery target → mayCall'' delivery target)
    (hmay' : ∀ delivery target, mayCall' delivery target →
      r.diary.length ≤ delivery ∨ mayCall'' delivery target) :
    GoesOn mayCall'' r (stateAfter ((x >>= f) r)) := by
  cases hrun : x r with
  | ok a mid =>
      rw [hrun] at hx
      rw [bind_of_ok hrun]
      exact (hx.mono hmay).trans (hf a mid hx) hmay'
  | error e mid =>
      rw [hrun] at hx
      rw [bind_of_error hrun]
      exact hx.mono hmay

/-! ## Calls -/

/-- The calls that an incident stands for. -/
def isCall (incident : Incident) : Nat → Nat → Prop :=
  fun delivery target => ∃ x, incident = .called delivery target x

variable {nested : Command → RecordM Answer}

theorem react_within {F : Frame Record} (hnested : ∀ c, Within F (nested c))
    (commands : List Command) : Within F (react nested commands) := by
  induction commands with
  | nil => exact .pure []
  | cons c rest ih => exact (hnested c).attempt.bind fun _ => ih.bind fun _ => .pure _

theorem attend_within {F : Frame Record} (hnested : ∀ c, Within F (nested c))
    (hend : ∀ place reactions, Within F (keep (Machine.endCall place reactions))) (cb : Callback)
    (place : Nat) : Within F (attend nested cb place) := by
  unfold attend
  cases cb.commands with
  | none => exact .pure _
  | some commands =>
      exact (react_within hnested commands).bind fun _ => (hend place _).bind fun _ => .pure _

/-- An incident that does not bring or take away subscriptions. -/
theorem note_goesOn {incident : Incident} (hr : r.UpToDate) (hdue : incident.Due r.diary)
    (hstanding : Diary.standing (incident :: r.diary) = r.diary.standing) :
    GoesOn (isCall incident) r ⟨r.machine, incident :: r.diary⟩ := by
  refine ⟨⟨⟨hdue, hr.orderly⟩, by rw [hstanding]; exact hr.present⟩, [incident], rfl, ?_⟩
  intro delivery target x hmem
  exact .inr ⟨x, (List.mem_singleton.mp hmem).symm⟩

/-- An incident stays due as long as the record goes on without it. -/
def StaysDue (incident : Incident) (past : Diary) : Prop :=
  ∀ recent, (∀ delivery target x, Incident.called delivery target x ∈ recent →
    past.length ≤ delivery) → incident.Due (recent ++ past)

theorem callBack_goesOn (hnested : ∀ c, Within ownCalls (nested c)) (hr : r.UpToDate)
    {incident : Incident} (hdue : StaysDue incident r.diary)
    (hstanding : ∀ past : Diary, Diary.standing (incident :: past) = past.standing)
    (who : Recipient) (notice : Notice) :
    GoesOn (isCall incident) r (stateAfter (callBack nested incident who notice r)) := by
  refine (keep_within _ r hr).bind (fun cb mid hmid => ?_) (fun _ _ => False.elim)
    fun _ _ => .inr
  cases cb.shape with
  | none => exact .refl hmid.upToDate
  | some shape =>
      cases hpayload : Payload.ofNode shape notice.tree with
      | error e =>
          simp only [hpayload]
          exact .refl hmid.upToDate
      | ok payload =>
          simp only [hpayload]
          obtain ⟨recent, hrecent, hcalls⟩ := hmid.grows
          have hnow : incident.Due mid.diary := by
            rw [hrecent]
            exact hdue recent fun delivery target x hmem =>
              (hcalls delivery target x hmem).resolve_right id
          have hnoted := note_goesOn hmid.upToDate hnow (hstanding mid.diary)
          have hrest : Within ownCalls
              (keep (Machine.beginCall cb who notice payload) >>= attend nested cb) :=
            (keep_within _).bind (attend_within hnested (fun _ _ => keep_within _) cb)
          exact hnoted.trans (hrest _ hnoted.upToDate) fun _ _ => False.elim

/-! ## Deliveries -/

/-- What is known between two calls of a delivery: whom it took at the places
that come next, and that it has not called them. -/
structure Awaits (past : Diary) (delivery before : Nat) (es : List Enrolment) : Prop where
  taken : ∃ places, past.entryAt delivery = some (.took places) ∧
    ∀ j e, es[j]? = some e →
      ∃ place, places[before + j]? = some place ∧ past.entryAt place = some (.enrolled e)
  uncalled : ∀ target x, before ≤ target → .called delivery target x ∉ past

variable {past : Diary} {delivery before : Nat} {e : Enrolment} {es : List Enrolment}

theorem Awaits.staysDue (hawaits : Awaits past delivery before (e :: es)) :
    StaysDue (.called delivery before (Store.recipientOf e.sub)) past := by
  intro recent hcalls
  obtain ⟨places, htook, hes⟩ := hawaits.taken
  obtain ⟨place, hplace, hentry⟩ := hes 0 e rfl
  refine ⟨⟨places, place, e, Diary.entryAt_append _ htook, hplace,
    Diary.entryAt_append _ hentry, rfl⟩, ?_⟩
  intro x hmem
  rcases List.mem_append.mp hmem with hlater | hbefore
  · have hlt := Diary.lt_of_entryAt htook
    have hle := hcalls delivery before x hlater
    omega
  · exact hawaits.uncalled before x (Nat.le_refl before) hbefore

/-- When one target has been called, the others still wait. -/
theorem Awaits.next (hawaits : Awaits past delivery before (e :: es)) {recent : Diary}
    (hcalls : ∀ other target x, Incident.called other target x ∈ recent →
      past.length ≤ other ∨ target = before) :
    Awaits (recent ++ past) delivery (before + 1) es := by
  obtain ⟨places, htook, hes⟩ := hawaits.taken
  refine ⟨⟨places, Diary.entryAt_append _ htook, fun j other hj => ?_⟩, fun target x hle hmem => ?_⟩
  · obtain ⟨place, hplace, hentry⟩ := hes (j + 1) other hj
    exact ⟨place, by rwa [Nat.add_right_comm, Nat.add_assoc], Diary.entryAt_append _ hentry⟩
  · rcases List.mem_append.mp hmem with hlater | hbefore
    · have hlt := Diary.lt_of_entryAt htook
      rcases hcalls delivery target x hlater with hnew | hthis <;> omega
    · exact hawaits.uncalled target x (by omega) hbefore

theorem callAll_goesOn (hnested : ∀ c, Within ownCalls (nested c)) (module : String)
    (notice : Notice) (failure : Option Error) (hr : r.UpToDate)
    (hawaits : Awaits r.diary delivery before es) :
    GoesOn (fun other _ => other = delivery) r
      (stateAfter (callAll nested module notice delivery before failure es r)) := by
  induction es generalizing r before failure with
  | nil => exact .refl hr
  | cons e rest ih =>
      refine (callBack_goesOn hnested hr hawaits.staysDue (fun _ => rfl) _ notice).bind
        (fun result mid hmid => ?_) ?_ fun _ _ => .inr
      · have hnext : ∀ {mid' : Record}, GoesOn onlyOwn mid mid' →
            Awaits mid'.diary delivery (before + 1) rest := by
          intro mid' hlater
          obtain ⟨recent, hrecent, hcalls⟩ :=
            (hmid.trans hlater fun _ _ => False.elim : GoesOn _ r mid').grows
          rw [hrecent]
          refine hawaits.next fun other target x hmem => (hcalls other target x hmem).imp_right ?_
          intro ⟨y, hy⟩
          cases hy
          rfl
        cases result with
        | ok done => exact ih failure hmid.upToDate (hnext (.refl hmid.upToDate))
        | error error =>
            refine (keep_within _ mid hmid.upToDate).bind (fun _ mid' hmid' => ?_)
              (fun _ _ => False.elim) fun _ _ => .inr
            exact ih _ hmid'.upToDate (hnext hmid')
      · intro other target hcall
        obtain ⟨x, hx⟩ := hcall
        cases hx
        rfl

/-- The subscriptions that are taken stand where they came. -/
theorem placesOf_taken (hes : es.Subperm (past.standing.map Prod.snd)) {j : Nat}
    (hj : es[j]? = some e) :
    ∃ place, (past.placesOf es)[j]? = some place ∧ past.entryAt place = some (.enrolled e) := by
  have hfound := Roll.map_pairOff hes
  rw [← hfound, List.getElem?_map] at hj
  obtain ⟨entry, hentry, rfl⟩ := Option.map_eq_some_iff.mp hj
  refine ⟨entry.1, by rw [Diary.placesOf, List.getElem?_map, hentry]; rfl, ?_⟩
  have hmem := (Roll.pairOff_subperm past.standing es).subset (List.mem_of_getElem? hentry)
  exact Diary.standing_place past entry hmem

theorem due_took (past : Diary) (es : List Enrolment) :
    (Incident.took (past.placesOf es)).Due past := by
  obtain ⟨same, hsame, hsub⟩ := Roll.pairOff_subperm past.standing es
  have hplaces := hsub.map Prod.fst
  have hperm := hsame.map Prod.fst
  exact ⟨hperm.nodup_iff.mp ((Diary.nodup_standing past).sublist hplaces),
    fun place hmem => hplaces.subset (hperm.mem_iff.mpr hmem)⟩

/-- A delivery that has taken its targets. -/
theorem goesOn_took (hr : r.UpToDate) (es : List Enrolment) (machine : Machine) :
    GoesOn mayCall r (upTo machine (.took (r.diary.placesOf es) :: r.diary)) :=
  upTo_goesOn ⟨due_took r.diary es, hr.orderly⟩ ⟨[_], rfl, by simp⟩

/-- The targets of a delivery wait to be called. -/
theorem awaits_took (hr : r.UpToDate) (id : ContextId) (module : String) (notice : Notice)
    (machine : Machine) :
    let es := r.machine.targets id module notice
    Awaits (upTo machine (.took (r.diary.placesOf es) :: r.diary)).diary r.diary.length 0 es := by
  intro es
  have hes : es.Subperm (r.diary.standing.map Prod.snd) :=
    (r.machine.targets_sublist id module notice).subperm.trans hr.present.symm.subperm
  let past : Diary := .took (r.diary.placesOf es) :: r.diary
  obtain ⟨latest, hlatest, hcalls⟩ := past.bringUp_eq machine.enrolments
  show Awaits (past.bringUp machine.enrolments) r.diary.length 0 es
  rw [hlatest]
  refine ⟨⟨_, Diary.entryAt_append _ (Diary.entryAt_head _ _), fun j e hj => ?_⟩, ?_⟩
  · obtain ⟨place, hplace, hentry⟩ := placesOf_taken hes hj
    exact ⟨place, by rwa [Nat.zero_add],
      Diary.entryAt_append _ (Diary.entryAt_append [_] hentry)⟩
  · intro target x _ hmem
    rcases List.mem_append.mp hmem with hlater | hbefore
    · exact hcalls _ target x hlater
    · have hcalled : .called r.diary.length target x ∈ r.diary := by simpa [past] using hbefore
      exact Nat.lt_irrefl _ (hr.orderly.lt_of_called hcalled)

/-- What a delivery does with those that it takes. -/
theorem take_bind_goesOn {f : Nat × List Enrolment → RecordM α} (id : ContextId)
    (module : String) (notice : Notice) (hr : r.UpToDate)
    (hf : ∀ delivery es mid, mid.UpToDate → Awaits mid.diary delivery 0 es →
      GoesOn (fun other _ => other = delivery) mid (stateAfter (f (delivery, es) mid))) :
    GoesOn onlyOwn r (stateAfter ((take id module notice >>= f) r)) := by
  cases hgather : Machine.gather id module notice r.machine with
  | error e machine =>
      rw [bind_of_error (take_of_error hgather)]
      exact upTo_goesOn hr.orderly ⟨[], rfl, nofun⟩
  | ok recipients machine =>
      rw [bind_of_ok (take_of_ok hgather)]
      have htook : GoesOn onlyOwn r _ := goesOn_took hr (r.machine.targets id module notice) machine
      refine htook.trans (hf _ _ _ htook.upToDate (awaits_took hr id module notice machine)) ?_
      intro delivery target heq
      exact .inl (Nat.le_of_eq heq.symm)

theorem deliver_within (hnested : ∀ c, Within ownCalls (nested c)) (bound : Nat)
    (name module : String) (notice : Notice) :
    Within ownCalls (deliver bound nested name module notice) := by
  refine (keep_within _).bind fun id => (keep_within _).bind fun _ =>
    (Within.attempt ?_).bind fun result => (keep_within _).bind fun _ => .ofExcept result
  intro r hr
  refine take_bind_goesOn id module notice hr fun delivery es mid hmid hawaits => ?_
  refine (callAll_goesOn hnested module notice none hmid hawaits).bind
    (fun failure last hlast => ?_) (fun _ _ h => h) fun _ _ => False.elim
  cases failure with
  | none => exact .refl hlast.upToDate
  | some e => exact keep_within _ last hlast.upToDate

theorem run_within (bound : Nat) (c : Command) : Within ownCalls (run bound c) := by
  induction bound generalizing c with
  | zero => cases c <;> exact keep_within _
  | succ bound ih =>
      cases c with
      | segment c => exact keep_within _
      | lock c => exact keep_within _
      | file c => exact keep_within _
      | context c =>
          cases c with
          | deliver name module notice => exact deliver_within ih bound name module notice
          | call subscriber notice =>
              refine (keep_within _).bind fun who => .bind (fun r hr => ?_) fun result => ?_
              · have hdue : StaysDue (.asked who) r.diary := fun _ _ => trivial
                refine (callBack_goesOn ih hr hdue (fun _ => rfl) who notice).mono ?_
                intro delivery target ⟨x, hx⟩
                cases hx
              · cases result with
                | ok done => exact .pure _
                | error e => exact keep_within _
          | _ => exact keep_within _

end Record

end Subscription
