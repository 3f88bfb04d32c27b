import Subscription.Proofs.Removing

/-!
# Removed subscriptions

A delivery takes its targets first and calls them when nothing is locked any
more.  So a callback may remove a subscription that the delivery which called
it has yet to call, and that one is called nevertheless
(`Record.removed_subscription_is_called`): removing a subscription does not
stop the deliveries that are under way.  It stops all others, from the outside
or from within a callback, at any depth: a call is made for a subscription
that came before the delivery took its targets and had not left by then, and a
delivery calls each of its targets once (`Diary.CallsDue`).  That a
subscription leaves when it is removed is shown in
`Record.leaves_of_removeNotification` and
`Record.leaves_of_removeAll`.
-/

namespace Subscription

namespace Diary

variable {past : Diary}

/-- An entry of a diary in order is due to those before it. -/
theorem Orderly.due_of_entryAt (horderly : past.Orderly) {place : Nat} {incident : Incident}
    (hentry : past.entryAt place = some incident) :
    ∃ recent before : Diary, past = recent ++ before ∧ before.length = place ∧
      incident.Due before ∧ before.Orderly := by
  induction past with
  | nil => cases hentry
  | cons latest past ih =>
      by_cases hplace : place = past.length
      · subst hplace
        rw [entryAt_head] at hentry
        cases hentry
        exact ⟨[_], past, rfl, rfl, horderly⟩
      · have hlt : place < past.length := by
          have hlt := lt_of_entryAt hentry
          rw [List.length_cons] at hlt
          omega
        obtain ⟨recent, before, rfl, hrest⟩ :=
          ih horderly.2 ((entryAt_of_lt [latest] hlt).symm.trans hentry)
        exact ⟨latest :: recent, before, rfl, hrest⟩

/-- The calls of a diary are due: each is made for a subscription that was
there when the delivery took its targets, and it is made once. -/
structure CallsDue (past : Diary) : Prop where
  /-- A delivery calls whom it took. -/
  taken : ∀ place delivery target r, past.entryAt place = some (.called delivery target r) →
    ∃ places came e, delivery < place ∧ past.entryAt delivery = some (.took places) ∧
      places[target]? = some came ∧ past.entryAt came = some (.enrolled e) ∧
      Store.recipientOf e.sub = r
  /-- Who is taken came before and has not left. -/
  standing : ∀ delivery places, past.entryAt delivery = some (.took places) →
    places.Nodup ∧ ∀ came ∈ places, came < delivery ∧
      ∀ place < delivery, past.entryAt place ≠ some (.left came)
  /-- Each target is called once. -/
  once : ∀ place place' delivery target r r',
    past.entryAt place = some (.called delivery target r) →
    past.entryAt place' = some (.called delivery target r') → place = place'
  /-- Who has left is only called by deliveries that had taken it before. -/
  late : ∀ gone place came delivery target r places,
    past.entryAt gone = some (.left came) → gone < place →
    past.entryAt place = some (.called delivery target r) →
    past.entryAt delivery = some (.took places) → places[target]? = some came → delivery < gone

/-- Who is taken came before and has not left. -/
theorem Orderly.stood (horderly : past.Orderly) {delivery : Nat} {places : List Nat}
    (htook : past.entryAt delivery = some (.took places)) :
    places.Nodup ∧ ∀ came ∈ places, came < delivery ∧
      ∀ place < delivery, past.entryAt place ≠ some (.left came) := by
  obtain ⟨recent, before, rfl, hlength, ⟨hnodup, hstanding⟩, hbefore⟩ :=
    horderly.due_of_entryAt htook
  refine ⟨hnodup, fun came hcame => ⟨hlength ▸ lt_of_mem_standing (hstanding hcame), ?_⟩⟩
  intro place hlt hleft
  rw [entryAt_of_lt recent (hlength ▸ hlt)] at hleft
  exact hbefore.not_left came (hstanding hcame) (mem_of_entryAt hleft)

/-- A target that was called is not called again. -/
theorem Orderly.not_again (horderly : past.Orderly) {place place' delivery target : Nat}
    {r r' : Recipient} (hcalled : past.entryAt place = some (.called delivery target r))
    (hagain : past.entryAt place' = some (.called delivery target r')) : ¬place < place' := by
  intro hlt
  obtain ⟨recent, before, rfl, hlength, hdue, -⟩ := horderly.due_of_entryAt hagain
  rw [entryAt_of_lt recent (hlength ▸ hlt)] at hcalled
  exact hdue.2 r (mem_of_entryAt hcalled)

theorem Orderly.callsDue (horderly : past.Orderly) : past.CallsDue where
  taken place delivery target r hcalled := by
    obtain ⟨recent, before, rfl, hlength, hdue, hbefore⟩ := horderly.due_of_entryAt hcalled
    obtain ⟨places, came, e, htook, htarget, hcame, hr⟩ := hdue.1
    exact ⟨places, came, e, hlength ▸ lt_of_entryAt htook, entryAt_append recent htook, htarget,
      entryAt_append recent hcame, hr⟩
  standing delivery places htook := horderly.stood htook
  once place place' delivery target r r' hcalled hagain :=
    Nat.le_antisymm (Nat.not_lt.mp (horderly.not_again hagain hcalled))
      (Nat.not_lt.mp (horderly.not_again hcalled hagain))
  late gone place came delivery target r places hleft _ _ htook htarget := by
    have hcame := ((horderly.stood htook).2 came (List.mem_of_getElem? htarget)).2
    rcases Nat.lt_trichotomy gone delivery with hlt | heq | hgt
    · exact absurd hleft (hcame gone hlt)
    · rw [heq, htook] at hleft
      cases hleft
    · exact hgt

end Diary

namespace Record

/-! ## Commands from the outside -/

/-- The record with which a machine begins. -/
def opening (machine : Machine) : Record := upTo machine []

theorem opening_upToDate (machine : Machine) : (opening machine).UpToDate :=
  have hnone : Diary.Orderly [] := trivial
  ⟨hnone.bringUp _, Diary.standing_bringUp _ _⟩

variable {r : Record}

theorem step_upToDate (hr : r.UpToDate) (c : Command) : (r.step c).UpToDate :=
  (run_within Machine.nestingBound c r.quiet ⟨hr.orderly, hr.present⟩).upToDate

theorem steps_upToDate (hr : r.UpToDate) (commands : List Command) :
    (r.steps commands).UpToDate := by
  induction commands generalizing r with
  | nil => exact hr
  | cons c rest ih => exact ih (step_upToDate hr c)

/-- A step reports the calls that the diary tells of. -/
theorem step_tallies (hprompt : r.machine.Prompt) (c : Command) :
    (r.step c).machine.Prompt ∧ (r.step c).machine.callbacks = r.machine.callbacks ∧
      ∃ more, (r.step c).diary.recipients = r.diary.recipients ++ more ∧
        (r.machine.step c).1.calls.map (fun call => some call.callback) =
          more.map r.machine.voice := by
  obtain ⟨hprompt', hcallbacks, more, hrecipients, hvoices⟩ :=
    run_tallied Machine.nestingBound c r.quiet hprompt
  refine ⟨hprompt', hcallbacks, more, hrecipients, ?_⟩
  rw [Machine.calls_step, ← step_machine]
  exact hvoices

theorem steps_machine (r : Record) (commands : List Command) :
    (r.steps commands).machine = r.machine.after commands := by
  induction commands generalizing r with
  | nil => rfl
  | cons c rest ih =>
      show ((r.step c).steps rest).machine = (r.machine.step c).2.after rest
      rw [ih, step_machine]

theorem steps_tallies (hprompt : r.machine.Prompt) (commands : List Command) :
    ∃ more, (r.steps commands).diary.recipients = r.diary.recipients ++ more ∧
      ((r.machine.steps commands).flatMap Machine.Report.calls).map
        (fun call => some call.callback) = more.map r.machine.voice := by
  induction commands generalizing r with
  | nil => exact ⟨[], (List.append_nil _).symm, rfl⟩
  | cons c rest ih =>
      obtain ⟨hprompt', hcallbacks, more, hrecipients, hcalls⟩ := step_tallies hprompt c
      obtain ⟨more', hrecipients', hcalls'⟩ := ih hprompt'
      have hvoice : (r.step c).machine.voice = r.machine.voice := by
        funext who
        rw [Machine.voice, Machine.voice, hcallbacks]
      refine ⟨more ++ more', ?_, ?_⟩
      · show ((r.step c).steps rest).diary.recipients = _
        rw [hrecipients', hrecipients, List.append_assoc]
      · rw [hvoice, step_machine] at hcalls'
        show ((r.machine.step c).1.calls ++
          ((r.machine.step c).2.steps rest).flatMap Machine.Report.calls).map _ = _
        rw [List.map_append, hcalls, hcalls', List.map_append]

/-- **Removed subscriptions are called by nobody who comes later.**  A
machine is given commands, and the callbacks that are called meanwhile run
commands of their own.  The diary of that tells of every call, in order, and
knows which subscriptions there are.  A call is made for a subscription that
the delivery took when it was there, once for each delivery that took it; and
when a subscription has left, only deliveries that had taken it before still
call it. -/
theorem removed_is_not_taken {machine : Machine} (hprompt : machine.Prompt)
    (commands : List Command) :
    let r := (opening machine).steps commands
    r.machine = machine.after commands ∧
      ((machine.steps commands).flatMap Machine.Report.calls).map
        (fun call => some call.callback) = r.diary.recipients.map machine.voice ∧
      (r.diary.standing.map Prod.snd).Perm r.machine.enrolments ∧
      r.diary.CallsDue := by
  intro r
  have hr : r.UpToDate := steps_upToDate (opening_upToDate machine) commands
  obtain ⟨more, hrecipients, hcalls⟩ := steps_tallies (r := opening machine) hprompt commands
  have hnone : (opening machine).diary.recipients = [] := Diary.recipients_bringUp [] _
  rw [hnone, List.nil_append] at hrecipients
  refine ⟨steps_machine _ commands, ?_, hr.present, hr.orderly.callsDue⟩
  rw [hrecipients]
  exact hcalls

/-! ## A subscription that is removed too late -/

/-- A machine with two callbacks, the first of which removes the subscription
of the second. -/
def gathering : Machine :=
  { Machine.fresh default [] with
    registries := [("registry", .fresh)]
    callbacks :=
      [("first", ⟨"first", some .tree,
          some [.context (.removeNotification "context" "a" none none none ⟨"second", none⟩)]⟩),
        ("second", ⟨"second", some .tree, none⟩)] }

/-- Both callbacks subscribe, and a notification is delivered. -/
def farewell : List Command :=
  [.context (.create "context" 1 "registry"),
    .context (.addNotification "context" "a" none none none ⟨"first", none⟩),
    .context (.addNotification "context" "a" none none none ⟨"second", none⟩),
    .context (.deliver "context" "a" ⟨.realtime, none, 0, default⟩)]

theorem gathering_prompt : gathering.Prompt := by
  intro entry hentry
  obtain rfl := List.mem_singleton.mp hentry
  exact ⟨rfl, rfl⟩

theorem removed_is_not_taken_gathering :
    gathering.Prompt ∧ ((opening gathering).steps farewell).diary.CallsDue ∧
      ((gathering.steps farewell).flatMap Machine.Report.calls).map
        (fun call => some call.callback) = [some "first", some "second"] := by
  obtain ⟨-, hcalls, -, hdue⟩ := removed_is_not_taken gathering_prompt farewell
  have hvoices : ((opening gathering).steps farewell).diary.recipients.map gathering.voice =
      [some "first", some "second"] := by decide +kernel
  exact ⟨gathering_prompt, hdue, hcalls.trans hvoices⟩

/-- **A delivery that is under way calls whom it took**, although the
subscription has been removed before that call, by a callback of the same
delivery. -/
theorem removed_subscription_is_called :
    ∃ gone place came delivery target who places,
      ((opening gathering).steps farewell).diary.entryAt gone = some (.left came) ∧
        gone < place ∧
        ((opening gathering).steps farewell).diary.entryAt place =
          some (.called delivery target who) ∧
        ((opening gathering).steps farewell).diary.entryAt delivery = some (.took places) ∧
        places[target]? = some came :=
  ⟨4, 5, 1, 2, 1, ⟨"second", none⟩, [0, 1], by decide +kernel⟩

end Record

end Subscription
