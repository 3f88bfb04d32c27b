import Subscription.Proofs.AsideCommands
import Subscription.Proofs.PlanEnds

/-!
# Commands that call nobody

Only a delivery calls callbacks, and the command that does nothing else.
Whatever other commands do, the calls that were made stay what they are, and
so do the callbacks (`Machine.runContext_quiet`).  The one way around that
is a registry that has to wait for a command before it answers, for that may
be any command; a machine is *prompt* when none of its registries does
(`Machine.Prompt`), and then it stays so.

The subscriptions of a context change by the operations on it and in no other
way.  So a frame for each context says what becomes of them, too
(`Machine.quietly`): an operation stays within it when its plan does
(`Plan.Upholds`), and a command that is not an order to add or to remove a
subscription does when giving contexts up and polling them do
(`Machine.runContext_quietly`).
-/

namespace Subscription

/-- Whether an answer is given without waiting for a command. -/
def Reply.isPrompt : Reply → Bool
  | .after _ => false
  | _ => true

/-- Whether a command is one that calls callbacks. -/
def ContextCommand.calls : ContextCommand → Bool
  | .deliver .. | .call .. => true
  | _ => false

/-- The order that a command gives, on behalf of whoever subscribes, with the context that
has to carry it out. -/
def ContextCommand.order? :
    ContextCommand → Option (String × Subscriber × (Recipient → Order))
  | .addChange name module xpath ds subscriber priority options =>
      some (name, subscriber, fun who =>
        .addChange module ds xpath priority options who.callback who.data)
  | .removeChange name module xpath ds subscriber priority options =>
      some (name, subscriber, fun who =>
        .removeChange module ds xpath priority options who.callback who.data)
  | .addData name module xpath subscriber =>
      some (name, subscriber, fun who => .addData module xpath who.callback who.data)
  | .removeData name module xpath subscriber =>
      some (name, subscriber, fun who => .removeData module xpath who.callback who.data)
  | .addRpc name xpath subscriber =>
      some (name, subscriber, fun who => .addRpc xpath who.callback who.data)
  | .removeRpc name xpath subscriber =>
      some (name, subscriber, fun who => .removeRpc xpath who.callback who.data)
  | .addNotification name module xpath start stop subscriber =>
      some (name, subscriber, fun who =>
        .addNotification module xpath start stop who.callback who.data)
  | .removeNotification name module xpath start stop subscriber =>
      some (name, subscriber, fun who =>
        .removeNotification module xpath start stop who.callback who.data)
  | _ => none

/-- A registry never waits for a command. -/
structure ScriptedRegistry.Prompt (r : ScriptedRegistry) : Prop where
  publishing : r.publishing.all Reply.isPrompt = true
  retracting : r.retracting.all Reply.isPrompt = true

/-- Whatever a plan for some subscriptions comes to, and whatever it settles on
its way, is within a frame. -/
structure Plan.Upholds (F : Frame Store) (s : Store) (p : Plan Store.Ending) : Prop where
  ends : ∀ ending, p.CanEnd ending → F.keeps s ending.2
  settles : ∀ left, p.Asks (.settle left) → F.keeps s left

theorem Plan.upholds_free (s : Store) (p : Plan Store.Ending) : p.Upholds .free s :=
  ⟨fun _ _ => trivial, fun _ _ => trivial⟩

namespace Machine

/-- No registry has to wait for a command. -/
def Prompt (machine : Machine) : Prop := ∀ entry ∈ machine.registries, entry.2.Prompt

/-- The subscriptions of a context. -/
def storeAt (machine : Machine) (id : ContextId) : Store :=
  (machine.contexts.getD id default).store

/-- Nobody is called, and registries that answer promptly go on to do so. -/
def quiet : Frame Machine where
  keeps machine machine' := machine.Prompt → machine'.Prompt ∧
    machine'.callbacks = machine.callbacks ∧ machine'.calls = machine.calls
  refl _ hprompt := ⟨hprompt, rfl, rfl⟩
  trans hfirst hnext hprompt :=
    have hmid := hfirst hprompt
    have hlast := hnext hmid.1
    ⟨hlast.1, hlast.2.1.trans hmid.2.1, hlast.2.2.trans hmid.2.2⟩

/-- Likewise, and the subscriptions of each context change within a frame. -/
def quietly (F : ContextId → Frame Store) : Frame Machine where
  keeps machine machine' := machine.Prompt → machine'.Prompt ∧
    machine'.callbacks = machine.callbacks ∧ machine'.calls = machine.calls ∧
    ∀ id, (F id).keeps (machine.storeAt id) (machine'.storeAt id)
  refl _ hprompt := ⟨hprompt, rfl, rfl, fun id => (F id).refl _⟩
  trans hfirst hnext hprompt :=
    have hmid := hfirst hprompt
    have hlast := hnext hmid.1
    ⟨hlast.1, hlast.2.1.trans hmid.2.1, hlast.2.2.1.trans hmid.2.2.1,
      fun id => (F id).trans (hmid.2.2.2 id) (hlast.2.2.2 id)⟩

/-- What becomes of the subscriptions of a context when nobody has an order for it. -/
structure Lenient (F : ContextId → Frame Store) : Prop where
  removeAll : ∀ id site s, (Store.removeAll s site).Upholds (F id) s
  poll : ∀ id s cfg timeout host, (F id).keeps s (Store.poll s cfg timeout host).2.1

theorem lenient_free : Lenient fun _ => .free :=
  ⟨fun _ _ s => Plan.upholds_free s _, fun _ _ _ _ _ => trivial⟩

variable {α β : Type} {F : ContextId → Frame Store} {machine machine' : Machine} {id : ContextId}

theorem quiet_of_quietly {act : MachineM α} (hact : Within (quietly F) act) : Within quiet act := by
  intro machine hprompt
  obtain ⟨hprompt', hcallbacks, hcalls, -⟩ := hact machine hprompt
  exact ⟨hprompt', hcallbacks, hcalls⟩

theorem storeAt_of_contexts (hcontexts : machine'.contexts = machine.contexts) (id : ContextId) :
    machine'.storeAt id = machine.storeAt id := by
  rw [storeAt, storeAt, hcontexts]

theorem quietly_of_aside {act : MachineM α} (hact : Within aside act) :
    Within (quietly F) act := by
  intro machine hprompt
  obtain ⟨hcontexts, hregistries, hcallbacks, hcalls, -⟩ := hact machine
  refine ⟨?_, hcallbacks, hcalls, fun id => ?_⟩
  · rw [Prompt, hregistries]
    exact hprompt
  · rw [storeAt_of_contexts hcontexts]
    exact (F id).refl _

/-! ## Registries -/

theorem mem_put {names : Names β} {name : String} {value : β} {entry : String × β}
    (hentry : entry ∈ names.put name value) : entry ∈ names ∨ entry.2 = value := by
  unfold Names.put at hentry
  split at hentry
  · obtain ⟨old, hold, rfl⟩ := List.mem_map.mp hentry
    split
    · exact .inr rfl
    · exact .inl hold
  · rcases List.mem_append.mp hentry with hold | hnew
    · exact .inl hold
    · exact .inr (by rw [List.mem_singleton.mp hnew])

theorem Prompt.put {machine : Machine} (hprompt : machine.Prompt) {name : String}
    {r : ScriptedRegistry} (hr : r.Prompt) :
    Prompt { machine with registries := machine.registries.put name r } := by
  intro entry hentry
  rcases mem_put hentry with hold | hnew
  · exact hprompt entry hold
  · rw [hnew]
    exact hr

theorem Prompt.lookup {machine : Machine} (hprompt : machine.Prompt) {name : String}
    {r : ScriptedRegistry} (hr : machine.registries.lookup name = some r) : r.Prompt := by
  obtain ⟨before, after, hregistries, -⟩ := List.lookup_eq_some_iff.mp hr
  exact hprompt (name, r) (by simp [hregistries])

/-- What is done with a registry that is prompt. -/
theorem find_registry_bind {name : String} {f : ScriptedRegistry → MachineM α}
    (hf : ∀ r : ScriptedRegistry, r.Prompt → Within (quietly F) (f r)) :
    Within (quietly F) (find (·.registries) name >>= f) := by
  intro machine hprompt
  cases hr : machine.registries.lookup name with
  | none =>
      rw [bind_of_error (find_of_none hr)]
      exact ⟨hprompt, rfl, rfl, fun id => (F id).refl _⟩
  | some r =>
      rw [bind_of_ok (find_of_some hr)]
      exact hf r (hprompt.lookup hr) machine hprompt

/-- Changing a registry that stays prompt. -/
theorem putRegistry_quietly (name : String) {r : ScriptedRegistry} (hr : r.Prompt) :
    Within (quietly F)
      (modify fun machine => { machine with registries := machine.registries.put name r } :
        MachineM PUnit) :=
  .modify fun _ hprompt => ⟨hprompt.put hr, rfl, rfl, fun id => (F id).refl _⟩

/-- Taking the next of the answers that were laid down, none of which has to
wait. -/
theorem laidDown_bind (name : String) (replies : ScriptedRegistry → List Reply)
    (left : ScriptedRegistry → List Reply → ScriptedRegistry)
    (hnext : ∀ r : ScriptedRegistry, r.Prompt → ∀ reply rest, replies r = reply :: rest →
      reply.isPrompt = true ∧ (left r rest).Prompt)
    {f : Reply → MachineM α} (hf : ∀ reply, reply.isPrompt = true → Within (quietly F) (f reply)) :
    Within (quietly F)
      ((do
        let r ← find (·.registries) name
        match replies r with
        | [] => return .table
        | reply :: rest =>
            modify fun machine =>
              { machine with registries := machine.registries.put name (left r rest) }
            return reply : MachineM Reply) >>= f) := by
  rw [bind_assoc]
  refine find_registry_bind fun r hr => ?_
  cases hreplies : replies r with
  | nil => exact hf .table rfl
  | cons reply rest =>
      obtain ⟨hreply, hleft⟩ := hnext r hr reply rest hreplies
      rw [bind_assoc]
      exact (putRegistry_quietly name hleft).bind fun _ => hf reply hreply

theorem nextPublishing_bind (name : String) {f : Reply → MachineM α}
    (hf : ∀ reply, reply.isPrompt = true → Within (quietly F) (f reply)) :
    Within (quietly F) (nextPublishing name >>= f) := by
  refine laidDown_bind name (·.publishing) (fun r rest => { r with publishing := rest })
    (fun r hr reply rest hreplies => ?_) hf
  have hall := hr.publishing
  rw [hreplies, List.all_cons, Bool.and_eq_true] at hall
  exact ⟨hall.1, hall.2, hr.retracting⟩

theorem nextRetracting_bind (name : String) {f : Reply → MachineM α}
    (hf : ∀ reply, reply.isPrompt = true → Within (quietly F) (f reply)) :
    Within (quietly F) (nextRetracting name >>= f) := by
  refine laidDown_bind name (·.retracting) (fun r rest => { r with retracting := rest })
    (fun r hr reply rest hreplies => ?_) hf
  have hall := hr.retracting
  rw [hreplies, List.all_cons, Bool.and_eq_true] at hall
  exact ⟨hall.1, hr.publishing, hall.2⟩

theorem publishTable_quietly (name : String) (d : Descriptor) :
    Within (quietly F) (publishTable name d) := by
  refine find_registry_bind fun r hr => .bind (putRegistry_quietly name ?_) fun _ => .pure _
  exact ⟨hr.publishing, hr.retracting⟩

theorem retractTable_quietly (name : String) (d : Descriptor) :
    Within (quietly F) (retractTable name d) := by
  refine find_registry_bind fun r hr => ?_
  cases r.table.retract d with
  | error e => exact .pure _
  | ok answer =>
      refine .bind (putRegistry_quietly name ?_) fun _ => .pure _
      exact ⟨hr.publishing, hr.retracting⟩

variable (nested : Command → MachineM Answer)

theorem publish_quietly (name : String) (d : Descriptor) :
    Within (quietly F) (publish nested name d) := by
  refine nextPublishing_bind name fun reply hreply => ?_
  cases reply with
  | table => exact publishTable_quietly name d
  | fail e => exact .pure _
  | answer b => exact .pure _
  | after c => cases hreply

theorem retract_quietly (name : String) (d : Descriptor) :
    Within (quietly F) (retract nested name d) := by
  refine nextRetracting_bind name fun reply hreply => ?_
  cases reply with
  | table => exact retractTable_quietly name d
  | fail e => exact .pure _
  | answer b => exact .pure _
  | after c => cases hreply

/-! ## Contexts -/

/-- One context is changed, and the others are not. -/
theorem storeAt_modify (machine : Machine) (id : ContextId) (change : Context → Context)
    (other : ContextId) :
    storeAt { machine with contexts := machine.contexts.modify id change } other =
        machine.storeAt other ∨
      other = id ∧ storeAt { machine with contexts := machine.contexts.modify id change } other =
        (change (machine.contexts.getD id default)).store := by
  simp only [storeAt, List.getD_eq_getElem?_getD]
  by_cases hid : id = other
  · subst hid
    rw [List.getElem?_modify_eq]
    cases machine.contexts[id]? with
    | none => exact .inl rfl
    | some c => exact .inr ⟨rfl, rfl⟩
  · rw [List.getElem?_modify_ne _ _ hid]
    exact .inl rfl

/-- A new context has no subscriptions, as if it were not there. -/
theorem storeAt_concat (machine : Machine) {c : Context} (hc : c.store = .empty)
    (other : ContextId) :
    storeAt { machine with contexts := machine.contexts ++ [c] } other =
      machine.storeAt other := by
  simp only [storeAt, List.getD_eq_getElem?_getD]
  rcases Nat.lt_trichotomy other machine.contexts.length with hlt | heq | hgt
  · rw [List.getElem?_append_left hlt]
  · subst heq
    rw [List.getElem?_concat_length, List.getElem?_eq_none (Nat.le_refl _)]
    exact hc
  · rw [List.getElem?_eq_none (by simp; omega), List.getElem?_eq_none (Nat.le_of_lt hgt)]

/-- A context can be changed without its subscriptions. -/
theorem storeAt_modify_of_store (change : Context → Context)
    (hchange : ∀ c, (change c).store = c.store) (machine : Machine) (id other : ContextId) :
    storeAt { machine with contexts := machine.contexts.modify id change } other =
      machine.storeAt other := by
  rcases storeAt_modify machine id change other with hsame | ⟨rfl, hhere⟩
  · exact hsame
  · rw [hhere, hchange]
    rfl

theorem modify_keeps (change : Context → Context) (hchange : ∀ c, (change c).store = c.store)
    (id : ContextId) (machine : Machine) :
    (quietly F).keeps machine { machine with contexts := machine.contexts.modify id change } := by
  intro hprompt
  refine ⟨hprompt, rfl, rfl, fun other => ?_⟩
  rw [storeAt_modify_of_store change hchange]
  exact (F other).refl _

theorem updateContext_quietly (id : ContextId) {change : Context → Context}
    (hchange : ∀ c, (change c).store = c.store) :
    Within (quietly F) (updateContext id change) :=
  .modify fun machine => modify_keeps change hchange id machine

/-- What is settled is held against the subscriptions that there were at first. -/
theorem settle_keeps {store : Store} (hstart : (quietly F).keeps machine machine')
    (hstore : (F id).keeps (machine.storeAt id) store) :
    (quietly F).keeps machine { machine' with
      contexts := machine'.contexts.modify id fun c => { c with store } } := by
  intro hprompt
  obtain ⟨hprompt', hcallbacks, hcalls, hstores⟩ := hstart hprompt
  refine ⟨hprompt', hcallbacks, hcalls, fun other => ?_⟩
  rcases storeAt_modify machine' id (fun c => { c with store }) other with hsame | ⟨rfl, hhere⟩
  · rw [hsame]
    exact hstores other
  · rw [hhere]
    exact hstore

theorem answer_keeps (registry : String) (cfg : Config) (r : Request)
    (hstart : (quietly F).keeps machine machine')
    (hsettle : ∀ left, r = .settle left → (F id).keeps (machine.storeAt id) left) :
    (quietly F).keeps machine
      (Subscription.stateAfter ((handler nested id registry).answer cfg r machine')) := by
  cases r with
  | openSegment key kind =>
      exact (quietly F).trans hstart (quietly_of_aside (safely_aside _) machine')
  | removeSegment key =>
      exact (quietly F).trans hstart (quietly_of_aside (safely_aside _) machine')
  | publish d => exact (quietly F).trans hstart (publish_quietly nested registry d machine')
  | retract d => exact (quietly F).trans hstart (retract_quietly nested registry d machine')
  | note line =>
      exact (quietly F).trans hstart
        (quietly_of_aside (safely_aside (Host.say line.level line.text)) machine')
  | settle left => exact settle_keeps hstart (hsettle left rfl)

/-- A plan settles nothing on its way but what it asks for. -/
theorem planRun_keeps (registry : String) (cfg : Config) (plan : Plan α)
    (hsettles : ∀ left, plan.Asks (.settle left) → (F id).keeps (machine.storeAt id) left)
    (hstart : (quietly F).keeps machine machine') :
    (quietly F).keeps machine (Subscription.stateAfter
      (plan.run ((handler nested id registry).answer cfg) machine')) := by
  induction plan generalizing machine' with
  | done result => exact hstart
  | ask r next ih =>
      have hanswer := answer_keeps nested registry cfg r hstart
        fun left hr => hsettles left (.inl hr)
      rw [Plan.run]
      cases hrun : (handler nested id registry).answer cfg r machine' with
      | ok a mid =>
          rw [hrun] at hanswer
          rw [bind_of_ok hrun]
          exact ih a (fun left hasks => hsettles left (.inr ⟨a, hasks⟩)) hanswer
      | error e mid =>
          rw [hrun] at hanswer
          rw [bind_of_error hrun]
          exact hanswer

/-- Where a context works. -/
def siteAt (machine : Machine) (id : ContextId) : Site :=
  ⟨machine.config, (machine.contexts.getD id default).pipe⟩

/-- Running a plan for a context, and what it does is settled. -/
theorem runPlan_eq (plan : Site → Store → Plan Store.Ending) (machine : Machine) :
    runPlan nested id plan machine =
      (do
        let ending ← (plan (machine.siteAt id) (machine.storeAt id)).run
          ((handler nested id (machine.contexts.getD id default).registry).answer machine.config)
        settle id ending.2
        return ending.1 : MachineM (Except Failure Unit)) machine := rfl

/-- **What a plan does to the subscriptions** is what it can end with. -/
theorem runPlan_quietly {P : Except Halt (Except Failure Unit) → Prop}
    {plan : Site → Store → Plan Store.Ending}
    (hends : ∀ site s ending, (plan site s).CanEnd ending → P (.ok ending.1) →
      (F id).keeps s ending.2)
    (hsettles : ∀ site s left, (plan site s).Asks (.settle left) → (F id).keeps s left) :
    WithinWhen (quietly F) P (runPlan nested id plan) := by
  intro machine hP
  rw [runPlan_eq] at hP ⊢
  generalize hwork : plan (machine.siteAt id) (machine.storeAt id) = work at hP ⊢
  have hplan := planRun_keeps nested (machine.contexts.getD id default).registry machine.config
    work (fun left hasks => hsettles _ _ left (hwork ▸ hasks)) ((quietly F).refl machine)
  cases hrun : work.run ((handler nested id
      (machine.contexts.getD id default).registry).answer machine.config) machine with
  | ok ending mid =>
      rw [hrun] at hplan
      rw [bind_of_ok hrun] at hP ⊢
      exact settle_keeps hplan (hends _ _ ending (hwork ▸ Plan.canEnd_of_run hrun) hP)
  | error e mid =>
      rw [hrun] at hplan
      rw [bind_of_error hrun]
      exact hplan

theorem runPlan_upholds {plan : Site → Store → Plan Store.Ending}
    (hplan : ∀ site s, (plan site s).Upholds (F id) s) :
    Within (quietly F) (runPlan nested id plan) :=
  .of_always (runPlan_quietly nested (fun site s ending hend _ => (hplan site s).ends ending hend)
    fun site s => (hplan site s).settles)

section Lenient

variable (hF : Lenient F)
include hF

theorem abandon_quietly (id : ContextId) : Within (quietly F) (abandon nested id) := by
  refine (quietly_of_aside (contextAt_aside id)).bind fun c => ?_
  cases c.store.isEmpty with
  | true => exact .pure ()
  | false =>
      refine (runPlan_upholds nested fun site s => hF.removeAll id site s).bind fun result => ?_
      cases result with
      | ok done => exact .pure ()
      | error f =>
          cases f with
          | error e => exact quietly_of_aside (runHost_aside _)
          | abort a => exact .pure ()

theorem releaseContext_quietly (id : ContextId) :
    Within (quietly F) (releaseContext nested id) := by
  refine .bind (updateContext_quietly id ?_) fun _ =>
    (quietly_of_aside (contextAt_aside id)).bind fun c => ?_
  · exact fun _ => rfl
  · split
    · exact abandon_quietly nested hF id
    · exact .pure ()

/-- An action on a context that is held meanwhile. -/
theorem withContext_quietly (name : String) {act : ContextId → MachineM α}
    (hact : ∀ id, Within (quietly F) (act id)) :
    Within (quietly F) (withContext nested name act) := by
  refine (quietly_of_aside (find_aside _ name)).bind fun id =>
    .bind (updateContext_quietly id ?_) fun _ => (hact id).attempt.bind fun result =>
      (releaseContext_quietly nested hF id).bind fun _ => .ofExcept result
  exact fun _ => rfl

end Lenient

/-- A context that is marked as being at work, or not. -/
def marked (id : ContextId) (busy : Bool) (machine : Machine) : Machine :=
  { machine with contexts := machine.contexts.modify id fun c => { c with busy } }

theorem storeAt_marked (id : ContextId) (busy : Bool) (machine : Machine) (other : ContextId) :
    (machine.marked id busy).storeAt other = machine.storeAt other :=
  storeAt_modify_of_store (fun c => { c with busy }) (fun _ => rfl) machine id other

theorem marked_keeps (id : ContextId) (busy : Bool) (machine : Machine) :
    (quietly F).keeps machine (machine.marked id busy) :=
  modify_keeps (fun c => { c with busy }) (fun _ => rfl) id machine

/-- An operation that finds the subscriptions unlocked. -/
theorem whileLocked_eq {operation : String} {act : Context → MachineM α}
    (hfree : (machine.contexts.getD id default).busy ≠ true) :
    whileLocked id operation act machine = mapState (marked id false)
      (act (machine.contexts.getD id default) (machine.marked id true)) := by
  have hcontext : contextAt id machine = .ok (machine.contexts.getD id default) machine := rfl
  unfold whileLocked
  rw [bind_of_ok hcontext, if_neg hfree]
  exact run_between (marked id true) (marked id false)
    (act (machine.contexts.getD id default)) machine

/-- What an action does to subscriptions that it has locked. -/
theorem whileLocked_quietly {P : Except Halt α → Prop} (id : ContextId) (operation : String)
    {act : Context → MachineM α}
    (hact : ∀ c machine, c.store = machine.storeAt id → P (resultOf (act c machine)) →
      (quietly F).keeps machine (Subscription.stateAfter (act c machine))) :
    WithinWhen (quietly F) P (whileLocked id operation act) := by
  intro machine hP
  by_cases hbusy : (machine.contexts.getD id default).busy = true
  · have hcontext : contextAt id machine = .ok (machine.contexts.getD id default) machine := rfl
    unfold whileLocked
    rw [bind_of_ok hcontext, if_pos hbusy]
    exact Within.bind Within.get (fun _ =>
      (quietly_of_aside (runHost_aside _)).bind fun _ => .throw _) machine
  · rw [whileLocked_eq hbusy, resultOf_mapState] at hP
    rw [whileLocked_eq hbusy, stateAfter_mapState]
    have hthere := hact (machine.contexts.getD id default) (machine.marked id true)
      (storeAt_marked id true machine id).symm hP
    exact (quietly F).trans (marked_keeps id true machine)
      ((quietly F).trans hthere (marked_keeps id false _))

section Lenient

variable (hF : Lenient F)
include hF

theorem operate_quietly (name operation : String) {plan : Site → Store → Plan Store.Ending}
    (hplan : ∀ id site s, (plan site s).Upholds (F id) s) :
    Within (quietly F) (operate nested name operation plan) := by
  refine withContext_quietly nested hF name fun id => ?_
  refine Within.bind (.of_always (whileLocked_quietly id operation fun _ machine _ _ =>
    runPlan_upholds nested (hplan id) machine)) fun result => ?_
  cases result with
  | ok done => exact .pure _
  | error f => exact .throw _

theorem carryOut_quietly (name : String) {order : Order}
    (horder : ∀ work, order.plan = .ok work → ∀ id site s, (work site s).Upholds (F id) s) :
    Within (quietly F) (carryOut nested name order) := by
  unfold carryOut
  cases hwork : order.plan with
  | error f => exact .throw _
  | ok work => exact operate_quietly nested hF name _ (horder work hwork)

theorem pollContext_quietly (name : String) (timeout : Span) :
    Within (quietly F) (pollContext nested name timeout) := by
  refine withContext_quietly nested hF name fun id =>
    .bind (.of_always (whileLocked_quietly id _ fun c machine hc _ => ?_)) fun result => ?_
  · have hpolled := hF.poll id c.store machine.config timeout machine.host
    have hhost : (quietly F).keeps machine
        { machine with host := (c.store.poll machine.config timeout machine.host).2.2 } :=
      quietly_of_aside (.modify fun _ => ⟨rfl, rfl, rfl, rfl, rfl⟩) machine
    rw [hc] at hpolled
    exact settle_keeps hhost (hc ▸ hpolled)
  · cases result with
    | ok news => exact .pure _
    | error f => exact .throw _

theorem createContext_quietly (name : String) (pipe : UInt32) (registry : String) :
    Within (quietly F) (createContext nested name pipe registry) := by
  refine (quietly_of_aside (find_aside _ registry)).bind fun _ =>
    Within.bind Within.get fun machine => .bind (.modify fun machine hprompt => ?_) fun _ => ?_
  · refine ⟨hprompt, rfl, rfl, fun other => ?_⟩
    have hsame := storeAt_concat machine (c := ⟨pipe, registry, .empty, false, 1⟩) rfl other
    exact hsame ▸ (F other).refl _
  · cases machine.contextNames.lookup name with
    | none => exact .pure _
    | some old => exact (releaseContext_quietly nested hF old).bind fun _ => .pure _

theorem dropContext_quietly (name : String) :
    Within (quietly F) (dropContext nested name) := by
  refine Within.bind Within.get fun machine => ?_
  cases machine.contextNames.lookup name with
  | none => exact .pure _
  | some id =>
      refine .bind (quietly_of_aside (.modify fun _ => ⟨rfl, rfl, rfl, rfl, rfl⟩)) fun _ => ?_
      exact (releaseContext_quietly nested hF id).bind fun _ => .pure _

omit hF in
/-- An order is given on behalf of whoever subscribes. -/
theorem runContext_of_order {c : ContextCommand} {name : String} {subscriber : Subscriber}
    {order : Recipient → Order} (horder : c.order? = some (name, subscriber, order)) :
    runContext nested c =
      (do
        let who ← subscriberOf subscriber
        carryOut nested name (order who) : MachineM Answer) := by
  cases c <;> cases horder <;> rfl

/-- **What becomes of the subscriptions** is what orders do to them, and otherwise what
becomes of them in any case. -/
theorem runContext_quietly {c : ContextCommand} (hc : c.calls = false)
    (horders : ∀ name subscriber order, c.order? = some (name, subscriber, order) →
      ∀ who work, (order who).plan = .ok work → ∀ id site s, (work site s).Upholds (F id) s) :
    Within (quietly F) (runContext nested c) := by
  cases horder : c.order? with
  | some given =>
      obtain ⟨name, subscriber, order⟩ := given
      rw [runContext_of_order nested horder]
      exact (quietly_of_aside (subscriberOf_aside _)).bind fun who =>
        carryOut_quietly nested hF name (horders name subscriber order horder who)
  | none =>
      cases c with
      | create name pipe registry => exact createContext_quietly nested hF name pipe registry
      | drop name => exact dropContext_quietly nested hF name
      | count name registry modules =>
          exact quietly_of_aside ((find_aside _ _).bind fun _ => (contextAt_aside _).bind fun _ =>
            (find_aside _ _).bind fun _ => .pure _)
      | removeAll name => exact operate_quietly nested hF name _ hF.removeAll
      | poll name timeout => exact pollContext_quietly nested hF name timeout
      | sameCallback a b =>
          exact quietly_of_aside ((find_aside _ _).bind fun _ =>
            (find_aside _ _).bind fun _ => .pure _)
      | sharedCallbacks => exact .pure _
      | publish registry d =>
          exact (publish_quietly nested registry d).bind fun _ =>
            (quietly_of_aside (checked_aside _)).bind fun _ => .pure _
      | retract registry d =>
          exact (retract_quietly nested registry d).bind fun _ =>
            (quietly_of_aside (checked_aside _)).bind fun _ => .pure _
      | registryState registry keys =>
          exact quietly_of_aside ((find_aside _ _).bind fun _ => .pure _)
      | deliver name module notice => cases hc
      | call subscriber notice => cases hc
      | _ => cases horder

end Lenient

/-! ## Calling nobody -/

theorem quiet_of_aside {act : MachineM α} (hact : Within aside act) : Within quiet act :=
  quiet_of_quietly (quietly_of_aside (F := fun _ => .free) hact)

theorem holdContext_quiet (id : ContextId) :
    Within quiet (updateContext id fun c => { c with holders := c.holders + 1 }) :=
  .modify fun _ hprompt => ⟨hprompt, rfl, rfl⟩

theorem releaseContext_quiet (id : ContextId) : Within quiet (releaseContext nested id) :=
  quiet_of_quietly (releaseContext_quietly nested lenient_free id)

/-- **Other commands call nobody.** -/
theorem runContext_quiet {c : ContextCommand} (hc : c.calls = false) :
    Within quiet (runContext nested c) :=
  quiet_of_quietly (runContext_quietly nested lenient_free hc fun _ _ _ _ _ _ _ _ _ s =>
    Plan.upholds_free s _)

end Machine

end Subscription
