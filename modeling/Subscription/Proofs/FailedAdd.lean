import Subscription.Machine.Contexts
import Subscription.Proofs.SegmentStock

/-!
# A failed add changes nothing

Adding a subscription can fail in many places: its arguments are bad, the subscriptions
of the context are locked, the segment cannot be opened, the registry refuses the
descriptor.  A failure leaves nothing behind (`Workshop.failed_add_changes_nothing`):
neither in the context, nor in the registry, nor in the segment directory.

What makes this more than a look at the exits of an operation is the segment.  It may be
new or not, and while others are at work it may be there without anybody who is
registered for it.

* A file that is made is taken away again, and then the names are what they were, in
  their order (`Host.Stocked.undo`).
* A file that was there is not touched, since it is as long as its header: this is so
  after everything that may have happened before (`Workshop.Stocked.after`).

The registry may refuse whatever an operation asks it for, and is then as it was.
-/

namespace Subscription

open Plan

/-! ## Operations that fail -/

/-- The registry is as it was, and so are the names, and the files with their bytes. -/
structure Shared.Same (w w' : Shared) : Prop where
  registry : w'.2 = w.2
  entries : w'.1.disk.entries = w.1.disk.entries
  files : ∀ file, w.1.disk.IsRegular file → w'.1.disk.file? file = w.1.disk.file? file

section Failures

variable {location : Location} {directory : String} {h h' : Host}

theorem Shared.Same.refl (w : Shared) : Same w w := ⟨rfl, rfl, fun _ _ => rfl⟩

theorem Shared.same_of_untouched (hsame : Host.Untouched h h') (r : Registry) :
    Same (h, r) (h', r) :=
  ⟨rfl, hsame.entries, hsame.files⟩

/-- Where a name was free, giving it and taking it away again leaves the names as they
were. -/
theorem Disk.filter_link {d : Disk} {l : Location} {entry : Entry} (hl : l ≠ [])
    (hfree : d.entryAt l = none) :
    (d.entries ++ [(l, entry)]).filter (fun e => e.1 ≠ l) = d.entries := by
  rw [entryAt, if_neg hl, List.lookup_eq_none_iff] at hfree
  have hkept : d.entries.filter (fun e => e.1 ≠ l) = d.entries := by
    refine List.filter_eq_self.2 fun e he => ?_
    have hne := hfree e he
    simp only [bne_iff_ne, ne_eq] at hne
    simpa using Ne.symm hne
  rw [List.filter_append, hkept]
  simp

/-- **What was made can be undone.** -/
theorem Host.Stocked.undo {key : SegmentKey} (hstocked : h.Stocked directory location)
    (hfree : h.disk.standing directory key = none)
    (hnul : Path.hasNul (Path.join directory key.name) = false)
    (hmade : Made (location ++ [key.name]) key.suffix.header h h')
    (hshelf : h'.disk.IsShelf directory location)
    (hupdate : h'.disk.standing directory =
      Function.update (h.disk.standing directory) key (some h.disk.files.length))
    (r : Registry) :
    ∃ h'', (Segment.removeQuietly (Path.join directory key.name) : HostM Empty Unit) h' =
      .ok () h'' ∧ Shared.Same (h, r) (h'', r) := by
  have hstanding : h'.disk.standing directory key = some h.disk.files.length := by
    rw [hupdate, Function.update_self]
  obtain ⟨hfits, -⟩ := hshelf.standing_eq_some_iff.1 hstanding
  have hnone := (hstocked.shelf.standing_eq_none_of_fits hfits).1 hfree
  refine ⟨_, Segment.removeQuietly_standing hshelf hstanding hnul, rfl, ?_, ?_⟩
  · show (h'.disk.unlinkAt (location ++ [key.name])).entries = h.disk.entries
    rw [Disk.unlinkAt, hmade.entries]
    exact Disk.filter_link (by simp) hnone
  · rintro file ⟨mode, c, hnode⟩
    exact hmade.files file (List.getElem?_eq_some_iff.1 hnode).1

namespace Store

variable {w : Shared} {cfg : Config} {refusal : Option Error} {s : Store} {pipe : UInt32}

/-- If the operation has failed, the subscriptions are what they were, and everything else
is. -/
def Harmless (s : Store) (w : Shared) (ending : Ending) (w' : Shared) : Prop :=
  ∀ f, ending.1 = .error f → ending.2 = s ∧ Shared.Same w w'

theorem harmless_ok (s s' : Store) (w w' : Shared) : Harmless s w (.ok (), s') w' := nofun

theorem harmless_failed {w' : Shared} (e : Error) (hsame : Shared.Same w w') :
    Harmless s w (s.failed e) w' := fun _ _ => ⟨rfl, hsame⟩

/-- **Opening and publishing** that fails leaves nothing behind. -/
theorem openAndPublish_same (hstocked : w.1.Stocked cfg.segmentDir location) (d : Descriptor) :
    Leads ((Handler.refusing refusal).answer cfg) (openAndPublish d) w fun result w' =>
      ∀ e, result = .error e → Shared.Same w w' := by
  unfold openAndPublish
  rw [show d.topic.header = d.key.suffix.header from d.topic.header_eq]
  rcases hstocked.openSubscription d.key cfg.mode.toNat with
    ⟨segment, h', hopen, hfree, hnul, hmade, hshelf, hupdate⟩ | ⟨segment, h', hopen, hsame⟩ |
    ⟨e, h', hopen, hsame⟩
  · refine leads_ask (answer_host refusal (attempt_of_ok hopen)) ?_
    rcases answer_publish cfg refusal (h', w.2) d with hpublish | ⟨e, hpublish⟩
    · exact leads_ask hpublish (leads_pure nofun)
    · obtain ⟨h'', hremove, hundone⟩ :=
        hstocked.undo hfree hnul hmade hshelf hupdate w.2
      exact leads_ask hpublish (leads_ask (answer_host refusal hremove)
        (leads_pure fun _ _ => hundone))
  · refine leads_ask (answer_host refusal (attempt_of_ok hopen)) ?_
    rcases answer_publish cfg refusal (h', w.2) d with hpublish | ⟨e, hpublish⟩
    · exact leads_ask hpublish (leads_pure nofun)
    · exact leads_ask hpublish (leads_pure fun _ _ => Shared.same_of_untouched hsame w.2)
  · refine leads_ask (answer_host refusal (attempt_of_error hopen)) ?_
    exact leads_pure fun _ _ => Shared.same_of_untouched hsame w.2

/-- The same for an operation that opens and publishes first, and cannot fail afterwards. -/
theorem openAndPublish_harmless (hstocked : w.1.Stocked cfg.segmentDir location)
    {d : Descriptor} {next : Except Error Segment → Plan Ending}
    (hfails : ∀ e, next (.error e) = pure (s.failed e))
    (hdone : ∀ segment w', Leads ((Handler.refusing refusal).answer cfg) (next (.ok segment)) w'
      (Harmless s w)) :
    Leads ((Handler.refusing refusal).answer cfg) (openAndPublish d >>= next) w
      (Harmless s w) := by
  refine (openAndPublish_same hstocked d).bind ?_
  rintro (e | segment) w' hsame
  · rw [hfails]
    exact leads_pure (harmless_failed e (hsame e rfl))
  · exact hdone segment w'

/-- The same for an operation that only publishes. -/
theorem publish_harmless {d : Descriptor} {next : Except Error Unit → Plan Ending}
    (hfails : ∀ e, next (.error e) = pure (s.failed e))
    (hdone : ∀ w', Leads ((Handler.refusing refusal).answer cfg) (next (.ok ())) w'
      (Harmless s w)) :
    Leads ((Handler.refusing refusal).answer cfg) (Plan.publish d >>= next) w (Harmless s w) := by
  rcases answer_publish cfg refusal w d with hpublish | ⟨e, hpublish⟩
  · exact leads_ask hpublish (hdone _)
  · refine leads_ask hpublish ?_
    rw [hfails]
    exact leads_pure (harmless_failed e (Shared.Same.refl w))

/-- What only goes to the log cannot fail. -/
theorem note_harmless {s' : Store} {w' : Shared} (level : LogLevel) (text : String) :
    Leads ((Handler.refusing refusal).answer cfg)
      (Plan.note level text >>= fun _ => pure (.ok (), s')) w' (Harmless s w) :=
  leads_ask (answer_host refusal rfl) (leads_pure (harmless_ok s s' w _))

theorem addChange_harmless (hstocked : w.1.Stocked cfg.segmentDir location) (module : String)
    (datastore : Datastore) (sub : ChangeSub) :
    Leads ((Handler.refusing refusal).answer cfg)
      (s.addChange ⟨cfg, pipe⟩ module datastore sub) w (Harmless s w) := by
  unfold addChange
  dsimp only
  split
  · exact publish_harmless (fun _ => rfl) fun _ => note_harmless _ _
  · exact openAndPublish_harmless hstocked (fun _ => rfl) fun _ _ => note_harmless _ _

theorem addService_harmless (hstocked : w.1.Stocked cfg.segmentDir location) (service : Service)
    (module xpath : String) (callback : CallbackId) (data : Option DataId) :
    Leads ((Handler.refusing refusal).answer cfg)
      (s.addService ⟨cfg, pipe⟩ service module xpath callback data) w (Harmless s w) :=
  openAndPublish_harmless hstocked (fun _ => rfl) fun _ _ => note_harmless _ _

theorem addNotification_harmless (hstocked : w.1.Stocked cfg.segmentDir location)
    (module : String) (sub : NotificationSub) :
    Leads ((Handler.refusing refusal).answer cfg)
      (s.addNotification ⟨cfg, pipe⟩ module sub) w (Harmless s w) := by
  unfold addNotification
  dsimp only
  split
  · exact publish_harmless (fun _ => rfl) fun _ => note_harmless _ _
  · exact openAndPublish_harmless hstocked (fun _ => rfl) fun _ _ => note_harmless _ _

end Store

/-- Whether an order is one to add a subscription. -/
def Order.adds : Order → Bool
  | .addChange .. | .addData .. | .addRpc .. | .addNotification .. => true
  | .removeChange .. | .removeData .. | .removeRpc .. | .removeNotification .. => false

/-- **An add that fails** is harmless, whatever is to be added. -/
theorem Order.harmless {order : Order} (hadds : order.adds = true) {work : Order.Work}
    (hplan : order.plan = .ok work) {w : Shared} {cfg : Config} {pipe : UInt32} {s : Store}
    (hstocked : w.1.Stocked cfg.segmentDir location) (refusal : Option Error) :
    Leads ((Handler.refusing refusal).answer cfg) (work ⟨cfg, pipe⟩ s) w (s.Harmless w) := by
  cases order with
  | addChange =>
      obtain ⟨a, rfl⟩ := Order.exists_of_after hplan
      exact Store.addChange_harmless hstocked _ _ _
  | addData =>
      obtain ⟨a, rfl⟩ := Order.exists_of_after hplan
      exact Store.addService_harmless hstocked _ _ _ _ _
  | addRpc =>
      obtain ⟨a, rfl⟩ := Order.exists_of_after hplan
      exact Store.addService_harmless hstocked _ _ _ _ _
  | addNotification =>
      obtain ⟨a, rfl⟩ := Order.exists_of_after hplan
      exact Store.addNotification_harmless hstocked _ _
  | removeChange => cases hadds
  | removeData => cases hadds
  | removeRpc => cases hadds
  | removeNotification => cases hadds

end Failures

/-! ## Everything that goes on -/

theorem Machine.runHost_of_ok {α : Type} {machine : Machine} {act : HostM Failure α} {a : α}
    {host : Host} (hact : act machine.host = .ok a host) :
    runHost act machine = .ok a { machine with host } := by
  have hlift : (act : EStateM Halt Host α) machine.host = .ok a host := mapFailure_of_ok hact
  simp only [runHost, onHost, onPart, hlift]

/-- Whoever asks for the subscriptions of a context that are locked waits for a while, gives
up and says so. -/
theorem Machine.whileLocked_busy {α : Type} {machine : Machine} {id : ContextId}
    (hbusy : (machine.contexts.getD id default).busy = true)
    (hleavers : machine.host.leavers = []) (hwaiters : machine.host.waiters = [])
    (operation : String) (act : Context → MachineM α) :
    ∃ host, (Host.sleep machine.config.loopSpan : HostM Failure Unit) machine.host = .ok () host ∧
      whileLocked id operation act machine =
        .error (.failure (.error (.lockTimeout "subscriptions" operation)))
          { machine with host } := by
  obtain ⟨limit, hsleep⟩ := Host.sleep_unattended (ε := Failure) hleavers hwaiters
    machine.config.loopSpan
  generalize machine.host.waitUntil limit = host at hsleep
  have hcontext : contextAt id machine = .ok (machine.contexts.getD id default) machine := rfl
  refine ⟨host, hsleep, ?_⟩
  unfold whileLocked
  refine (bind_of_ok hcontext).trans ?_
  rw [if_pos hbusy]
  refine get_bind_eq.trans ?_
  exact bind_of_ok (runHost_of_ok hsleep)

/-- What goes on in a workshop besides the steps of operations. -/
inductive Happening where
  /-- A context joins, or goes on with its work. -/
  | move (move : Move)
  /-- A context is told to carry out an order, and nobody comes between. -/
  | call (worker : Nat) (order : Order) (refusal : Option Error)
  | poll (worker : Nat) (timeout : Span)
  /-- Someone uses a segment through a handle, whatever file that is on. -/
  | use (handle : Segment) (kind : HeaderKind) (what : Use) (readTimeout timeout : Span)
  deriving Inhabited

namespace Workshop

/-- The workshop after someone has waited in vain for the subscriptions of a context. -/
def waited (c : Workshop) : Workshop :=
  { c with host := stateAfter ((Host.sleep c.config.loopSpan : HostM Failure Unit) c.host) }

/-- A context is told to carry out an order.  Bad arguments end it at once; a context that
is at work has its subscriptions locked. -/
def call (c : Workshop) (worker : Nat) (order : Order) (refusal : Option Error) :
    Except Failure Unit × Workshop :=
  match order.plan with
  | .error f => (.error f, c)
  | .ok work =>
      match c.workers[worker]? with
      | none => (.ok (), c)
      | some ⟨_, some _⟩ =>
          (.error (.error (.lockTimeout "subscriptions" order.operation)), c.waited)
      | some ⟨m, none⟩ =>
          let ((result, store), host, registry) :=
            (work ⟨c.config, m.pipe⟩ m.store).run ((Handler.refusing refusal).answer c.config)
              (c.host, c.registry)
          (result, { c with
            host, registry
            workers := c.workers.set worker ⟨{ m with store }, none⟩ })

/-- A context polls, unless it is at work. -/
def poll (c : Workshop) (worker : Nat) (timeout : Span) : Workshop :=
  match c.workers[worker]? with
  | none => c
  | some ⟨_, some _⟩ => c.waited
  | some ⟨m, none⟩ =>
      let (_, store, host) := m.store.poll c.config timeout c.host
      { c with host, workers := c.workers.set worker ⟨{ m with store }, none⟩ }

/-- The workshop after something has gone on. -/
def happen (c : Workshop) : Happening → Workshop
  | .move move => c.step move
  | .call worker order refusal => (c.call worker order refusal).2
  | .poll worker timeout => c.poll worker timeout
  | .use handle kind what readTimeout timeout =>
      { c with
        host := (stateAfter (Visit.act kind ⟨0, what, readTimeout, timeout⟩
          ⟨handle, c.host⟩)).host }

/-- The workshop after all that has gone on. -/
def after (c : Workshop) (happenings : List Happening) : Workshop := happenings.foldl happen c

/-- The segments are long enough, and so are those that operations under way will make. -/
structure Stocked (location : Location) (c : Workshop) : Prop where
  host : c.host.Stocked c.config.segmentDir location
  tasks : ∀ w ∈ c.workers, ∀ t ∈ w.task, t.rest.Fitting

variable {location : Location} {c : Workshop}

/-- Where nothing is known of the others, a context that has got somewhere is looked at. -/
theorem Stocked.set (hstocked : c.Stocked location) {host : Host} {registry : Registry}
    (hhost : host.Stocked c.config.segmentDir location) (i : Nat) {w : Worker}
    (hw : ∀ t ∈ w.task, t.rest.Fitting) :
    Stocked location { c with host, registry, workers := c.workers.set i w } := by
  refine ⟨hhost, fun w' hw' => ?_⟩
  rcases List.mem_or_eq_of_mem_set hw' with hold | rfl
  · exact hstocked.tasks w' hold
  · exact hw

theorem Stocked.assign (hstocked : c.Stocked location) (i : Nat) {work : Order.Work}
    (hwork : ∀ site s, (work site s).Fitting) : (c.assign i work).Stocked location := by
  unfold Workshop.assign
  split
  · refine hstocked.set hstocked.host i fun t ht => ?_
    rw [← Option.some.inj ht]
    exact hwork _ _
  · exact hstocked

/-- **A step** of an operation keeps the stock. -/
theorem Stocked.advance (hstocked : c.Stocked location) (i : Nat) (refusal : Option Error) :
    (c.advance i refusal).Stocked location := by
  unfold Workshop.advance
  split
  next m said ending hw => exact hstocked.set hstocked.host i nofun
  next m said r next hw =>
    have hfitting : (Plan.ask r next).Fitting :=
      hstocked.tasks _ (List.mem_of_getElem? hw) _ rfl
    refine hstocked.set (stocked_answer (w := (c.host, c.registry)) hstocked.host refusal
      hfitting.1) i fun t ht => ?_
    rw [← Option.some.inj ht]
    exact hfitting.2 _
  next => exact hstocked

theorem Stocked.step (hstocked : c.Stocked location) (move : Move) :
    (c.step move).Stocked location := by
  cases move with
  | join pipe =>
      refine ⟨hstocked.host, fun w hw => ?_⟩
      rcases List.mem_append.1 hw with hold | hnew
      · exact hstocked.tasks w hold
      · rw [List.mem_singleton.1 hnew]
        exact nofun
  | start i order =>
      unfold Workshop.step
      dsimp only
      split
      next work hplan => exact hstocked.assign i fun site s => Order.fitting hplan site s
      next => exact hstocked
  | startRemoval i => exact hstocked.assign i fun site s => Store.removeAll_fitting s site
  | advance i refusal => exact hstocked.advance i refusal

/-- Waiting changes no file. -/
theorem Stocked.exists_waited (hstocked : c.Stocked location) :
    ∃ limit, c.waited = { c with host := c.host.waitUntil limit } := by
  obtain ⟨limit, hsleep⟩ := Host.sleep_unattended (ε := Failure) hstocked.host.leavers
    hstocked.host.waiters c.config.loopSpan
  exact ⟨limit, by rw [waited, hsleep]; rfl⟩

theorem Stocked.waited (hstocked : c.Stocked location) : c.waited.Stocked location := by
  obtain ⟨limit, hwaited⟩ := hstocked.exists_waited
  rw [hwaited]
  exact ⟨hstocked.host.of_untouched ⟨rfl, rfl, fun _ _ => rfl, rfl, rfl⟩, hstocked.tasks⟩

theorem Stocked.call (hstocked : c.Stocked location) (i : Nat) (order : Order)
    (refusal : Option Error) : (c.call i order refusal).2.Stocked location := by
  unfold Workshop.call
  split
  next => exact hstocked
  next work hplan =>
    split
    next => exact hstocked
    next => exact hstocked.waited
    next m hw =>
      exact hstocked.set (stocked_run (w := (c.host, c.registry)) hstocked.host refusal
        (Order.fitting hplan _ _)) i nofun

theorem Stocked.poll (hstocked : c.Stocked location) (i : Nat) (timeout : Span) :
    (c.poll i timeout).Stocked location := by
  unfold Workshop.poll
  split
  next => exact hstocked
  next => exact hstocked.waited
  next m hw =>
    have hkeeps : ∀ {F : Frame Host}, Host.Admits F → F.keeps c.host
        (Store.pollGroups c.config.readSpan timeout m.store.changes.toList c.host).2.2 :=
      fun hF => Store.pollGroups_within hF _ _ _ _
    exact hstocked.set (hstocked.host.of_frames (hkeeps Host.names_admits)
      (hkeeps Host.lengths_admits) (hkeeps Host.unattended_admits)) i nofun

theorem Stocked.use (hstocked : c.Stocked location) (handle : Segment) (kind : HeaderKind)
    (what : Use) (readTimeout timeout : Span) :
    (c.happen (.use handle kind what readTimeout timeout)).Stocked location := by
  have hkeeps : ∀ {F : Frame Host}, Host.Admits F → F.keeps c.host
      (stateAfter (Visit.act kind ⟨0, what, readTimeout, timeout⟩ ⟨handle, c.host⟩)).host :=
    fun hF => (Visit.act_within hF kind ⟨0, what, readTimeout, timeout⟩ ⟨handle, c.host⟩).2
  exact ⟨hstocked.host.of_frames (hkeeps Host.names_admits) (hkeeps Host.lengths_admits)
    (hkeeps Host.unattended_admits), hstocked.tasks⟩

/-- **Whatever goes on,** the segments stay long enough. -/
theorem Stocked.happen (hstocked : c.Stocked location) (happening : Happening) :
    (c.happen happening).Stocked location := by
  cases happening with
  | move move => exact hstocked.step move
  | call i order refusal => exact hstocked.call i order refusal
  | poll i timeout => exact hstocked.poll i timeout
  | use handle kind what readTimeout timeout => exact hstocked.use _ _ _ _ _

theorem Stocked.after (hstocked : c.Stocked location) (happenings : List Happening) :
    (c.after happenings).Stocked location := by
  induction happenings generalizing c with
  | nil => exact hstocked
  | cons happening rest ih => exact ih (hstocked.happen happening)

/-- Where no file stands yet, none is too short. -/
theorem IsNew.stocked (hnew : c.IsNew) (hleavers : c.host.leavers = [])
    (hwaiters : c.host.waiters = []) : ∃ location, c.Stocked location := by
  obtain ⟨location, hkept⟩ := hnew.kept
  obtain ⟨_, hbooks, -⟩ := Community.IsNew.kept hnew.community
  have hnone : ∀ key file, c.host.disk.standing c.config.segmentDir key ≠ some file := by
    intro key file hfile
    have hstands := (hbooks.stands key).1 (by
      show (c.host.disk.standing c.config.segmentDir key).isSome = true
      rw [hfile]
      rfl)
    simp at hstands
  refine ⟨location, ⟨hkept.drawer, ?_, ?_, hleavers, hwaiters⟩, ?_⟩
  · exact fun key file hfile => absurd hfile (hnone key file)
  · exact fun key file hfile => absurd hfile (hnone key file)
  · rw [hnew.workers]
    exact nofun

/-! ## A failed add -/

/-- Nothing has changed: not the contexts with their subscriptions and their work, not the
registry, not the names, not what stands in the segment directory, and not the bytes of any
file. -/
structure Unchanged (c c' : Workshop) : Prop where
  workers : c'.workers = c.workers
  registry : c'.registry = c.registry
  entries : c'.host.disk.entries = c.host.disk.entries
  found : ∀ key, c'.found key = c.found key
  segments : ∀ key file, c.found key = some file →
    c'.host.disk.file? file = c.host.disk.file? file
  files : ∀ file, c.host.disk.IsRegular file → c'.host.disk.file? file = c.host.disk.file? file

theorem Stocked.unchanged (hstocked : c.Stocked location) {host : Host} {registry : Registry}
    (hsame : Shared.Same (c.host, c.registry) (host, registry)) {workers : List Worker}
    (hworkers : workers = c.workers) :
    Unchanged c { c with host, registry, workers } where
  workers := hworkers
  registry := hsame.registry
  entries := hsame.entries
  found key := congrFun (hstocked.host.shelf.congr hsame.entries).2 key
  segments key file hfile := hsame.files file (hstocked.host.regular key file hfile)
  files := hsame.files

/-- **A failed add changes nothing.**  Contexts join, carry out orders, poll and remove what
they have, some of them at the same time, and the segments are used by anybody; the registry
may refuse whatever it is asked for.  After any of this a context is told to add a
subscription of any kind, and this fails: because of its arguments, because the context is
at work, because the segment cannot be opened, or because the registry refuses.  Then no
context has other subscriptions than before, the registry is what it was, and the names
and the bytes of the files are. -/
theorem failed_add_changes_nothing (hnew : c.IsNew) (hleavers : c.host.leavers = [])
    (hwaiters : c.host.waiters = []) (happenings : List Happening) (worker : Nat)
    {order : Order} (hadds : order.adds = true) (refusal : Option Error) {f : Failure}
    (hfails : ((c.after happenings).call worker order refusal).1 = .error f) :
    Unchanged (c.after happenings) ((c.after happenings).call worker order refusal).2 := by
  obtain ⟨location, hstart⟩ := hnew.stocked hleavers hwaiters
  have hstocked := hstart.after happenings
  generalize c.after happenings = c' at hstocked hfails ⊢
  unfold call at hfails ⊢
  cases hplan : order.plan with
  | error f' => exact hstocked.unchanged (Shared.Same.refl _) rfl
  | ok work =>
      rw [hplan] at hfails
      dsimp only at hfails ⊢
      rcases hworker : c'.workers[worker]? with _ | ⟨m, _ | task⟩
      · rw [hworker] at hfails
        cases hfails
      · -- The plan runs to its end, and what it leaves is what was there.
        rw [hworker] at hfails
        have hharmless : Leads _ (work ⟨c'.config, m.pipe⟩ m.store) (c'.host, c'.registry)
            (m.store.Harmless _) :=
          Order.harmless hadds hplan hstocked.host refusal
        obtain ⟨hstore, hsame⟩ := hharmless f hfails
        refine hstocked.unchanged hsame ?_
        obtain ⟨hlt, hget⟩ := List.getElem?_eq_some_iff.1 hworker
        rw [hstore, ← hget]
        exact List.set_getElem_self hlt
      · obtain ⟨limit, hwaited⟩ := hstocked.exists_waited
        have hsame : Shared.Same (c'.host, c'.registry) (c'.host.waitUntil limit, c'.registry) :=
          ⟨rfl, rfl, fun _ _ => rfl⟩
        dsimp only
        rw [hwaited]
        exact hstocked.unchanged hsame rfl

/-- Two contexts, an event for one of them, and an operation of that one under way. -/
def underWay : List Happening := [.move (.join 7), .move (.join 3),
  .call 0 (.addChange "m" .running none 9 default "first" none) none,
  .use ⟨some 0, some 128⟩ .multi (.publish ⟨.change, 7, 8, 9⟩ [1, 2, 3]) default default,
  .move (.start 0 (.addNotification "n" none none none "first" none)), .move (.advance 0 none)]

/-- The second context adds a service, and the registry refuses: the new segment goes again. -/
theorem failed_add_changes_nothing_refused :
    ((atStart.after underWay).call 1 (.addRpc "/m:reset" "second" none)
        (some (.missing (.descriptor "m")))).1 = .error (.error (.missing (.descriptor "m"))) ∧
      Unchanged (atStart.after underWay)
        ((atStart.after underWay).call 1 (.addRpc "/m:reset" "second" none)
          (some (.missing (.descriptor "m")))).2 := by
  have hfails : ((atStart.after underWay).call 1 (.addRpc "/m:reset" "second" none)
      (some (.missing (.descriptor "m")))).1 = .error (.error (.missing (.descriptor "m"))) := by
    decide +kernel
  exact ⟨hfails, failed_add_changes_nothing atStart_isNew rfl rfl underWay 1 rfl _ hfails⟩

end Workshop

end Subscription
