import Subscription.Proofs.QuietCommands
import Subscription.Proofs.RecordedRuns

/-!
# Every call is told

A diary leaves out no call: as long as registries answer promptly, the
recipients that it says were called are those whose callbacks the machine has
called, one for one and in the same order (`Record.run_tallied`).
-/

namespace Subscription

namespace Diary

/-- Those that were called, in the order of the calls. -/
def recipients : Diary → List Recipient
  | [] => []
  | .called _ _ r :: past => recipients past ++ [r]
  | .asked r :: past => recipients past ++ [r]
  | _ :: past => recipients past

theorem recipients_append (recent past : Diary) :
    recipients (recent ++ past) = past.recipients ++ recent.recipients := by
  induction recent with
  | nil => simp [recipients]
  | cons incident recent ih => cases incident <;> simp [recipients, ih]

theorem recipients_bringUp (past : Diary) (present : List Enrolment) :
    (past.bringUp present).recipients = past.recipients := by
  have hmissing : ∀ es : List Enrolment, recipients (es.map .enrolled) = [] := by
    intro es
    induction es with
    | nil => rfl
    | cons e rest ih => simpa [recipients] using ih
  have hgone : ∀ roll : Roll, recipients (roll.map fun entry => .left entry.1) = [] := by
    intro roll
    induction roll with
    | nil => rfl
    | cons entry rest ih => simpa [recipients] using ih
  simp [bringUp, recipients_append, hmissing, hgone]

end Diary

/-- The callback that is called for a recipient. -/
def Machine.voice (machine : Machine) (r : Recipient) : Option CallbackId :=
  (machine.callbacks.lookup r.callback).map Callback.id

/-- The callbacks of the calls that a machine has noted. -/
def Machine.voices (machine : Machine) : List (Option CallbackId) :=
  machine.calls.map fun call => some call.callback

namespace Record

/-- Whom the diary has told of since, the machine has called since. -/
structure Tallies (r r' : Record) : Prop where
  prompt : r'.machine.Prompt
  callbacks : r'.machine.callbacks = r.machine.callbacks
  calls : ∃ more, r'.diary.recipients = r.diary.recipients ++ more ∧
    r'.machine.voices = r.machine.voices ++ more.map r.machine.voice

theorem Tallies.refl {r : Record} (hprompt : r.machine.Prompt) : Tallies r r :=
  ⟨hprompt, rfl, [], by simp⟩

theorem Tallies.trans {r r' r'' : Record} (hfirst : Tallies r r') (hnext : Tallies r' r'') :
    Tallies r r'' := by
  obtain ⟨more, hrecipients, hvoices⟩ := hfirst.calls
  obtain ⟨more', hrecipients', hvoices'⟩ := hnext.calls
  have hvoice : r'.machine.voice = r.machine.voice := by
    funext x
    rw [Machine.voice, Machine.voice, hfirst.callbacks]
  refine ⟨hnext.prompt, hnext.callbacks.trans hfirst.callbacks, more ++ more', ?_, ?_⟩
  · rw [hrecipients', hrecipients, List.append_assoc]
  · rw [hvoices', hvoices, hvoice, List.map_append, List.append_assoc]

/-- What a command of a machine with prompt registries does to its record. -/
def tallied : Frame Record where
  keeps r r' := r.machine.Prompt → Tallies r r'
  refl _ hprompt := .refl hprompt
  trans hfirst hnext hprompt := (hfirst hprompt).trans (hnext (hfirst hprompt).prompt)

variable {α : Type}

theorem upTo_tallies {r : Record} {machine : Machine} {past : Diary} (hprompt : machine.Prompt)
    (hcallbacks : machine.callbacks = r.machine.callbacks)
    (hvoices : machine.voices = r.machine.voices)
    (hpast : past.recipients = r.diary.recipients) : Tallies r (upTo machine past) := by
  refine ⟨hprompt, hcallbacks, [], ?_, ?_⟩
  · exact ((Diary.recipients_bringUp _ _).trans hpast).trans (List.append_nil _).symm
  · exact hvoices.trans (List.append_nil _).symm

/-- What an action that calls nobody leaves. -/
theorem Tallies.of_quiet {r : Record} {machine : Machine} {past : Diary}
    (hprompt : r.machine.Prompt) (hquiet : Machine.quiet.keeps r.machine machine)
    (hpast : past.recipients = r.diary.recipients) : Tallies r (upTo machine past) := by
  obtain ⟨hprompt', hcallbacks, hcalls⟩ := hquiet hprompt
  refine upTo_tallies hprompt' hcallbacks ?_ hpast
  rw [Machine.voices, Machine.voices, hcalls]

theorem keep_tallied {act : MachineM α} (hact : Within Machine.quiet act) :
    Within tallied (keep act) := by
  intro r hprompt
  have hquiet := hact r.machine
  unfold keep
  cases hrun : act r.machine with
  | ok a machine =>
      rw [hrun] at hquiet
      exact .of_quiet hprompt hquiet rfl
  | error e machine =>
      rw [hrun] at hquiet
      exact .of_quiet hprompt hquiet rfl

theorem keep_aside_tallied {act : MachineM α} (hact : Within Machine.aside act) :
    Within tallied (keep act) := keep_tallied (Machine.quiet_of_aside hact)

/-- What came of the commands of a call does not change whose call it was. -/
theorem endCall_tallied (place : Nat) (reactions : List (Except Halt Answer)) :
    Within tallied (keep (Machine.endCall place reactions)) := fun r hprompt =>
  upTo_tallies hprompt rfl
    (Machine.map_calls_endCall _ (fun _ _ => rfl) place reactions r.machine) rfl

/-- The beginning of a call is told. -/
theorem beginCall_tallied {incident : Incident} {cb : Callback} {who : Recipient} {r : Record}
    (hincident : ∀ past : Diary, Diary.recipients (incident :: past) = past.recipients ++ [who])
    (hcb : r.machine.callbacks.lookup who.callback = some cb) (notice : Notice)
    (payload : Payload) :
    tallied.keeps r (stateAfter (keep (Machine.beginCall cb who notice payload)
      { r with diary := incident :: r.diary })) := by
  intro hprompt
  refine ⟨hprompt, rfl, [who], ?_, ?_⟩
  · exact (Diary.recipients_bringUp _ _).trans (hincident r.diary)
  · have hvoice : r.machine.voice who = some cb.id := by rw [Machine.voice, hcb]; rfl
    rw [List.map_singleton, hvoice]
    exact List.map_append

variable {nested : Command → RecordM Answer}

theorem callBack_tallied (hnested : ∀ c, Within tallied (nested c)) {incident : Incident}
    {who : Recipient}
    (hincident : ∀ past : Diary, Diary.recipients (incident :: past) = past.recipients ++ [who])
    (notice : Notice) : Within tallied (callBack nested incident who notice) := by
  intro r
  have hfind := keep_aside_tallied (Machine.find_aside (·.callbacks) who.callback) r
  unfold callBack
  cases hlookup : r.machine.callbacks.lookup who.callback with
  | none =>
      have hrun : keep (Machine.find (·.callbacks) who.callback) r =
          .error (.unknown who.callback) (upTo r.machine r.diary) := by
        rw [keep, Machine.find_of_none hlookup]
      rw [hrun] at hfind
      rw [bind_of_error hrun]
      exact hfind
  | some cb =>
      have hrun : keep (Machine.find (·.callbacks) who.callback) r =
          .ok cb (upTo r.machine r.diary) := by
        rw [keep, Machine.find_of_some hlookup]
      rw [hrun] at hfind
      rw [bind_of_ok hrun]
      refine tallied.trans hfind ?_
      cases cb.shape with
      | none => exact tallied.refl _
      | some shape =>
          cases hpayload : Payload.ofNode shape notice.tree with
          | error e =>
              simp only [hpayload]
              exact tallied.refl _
          | ok payload =>
              simp only [hpayload]
              have hbegin := beginCall_tallied (r := upTo r.machine r.diary) hincident
                hlookup notice payload
              exact tallied.trans hbegin (attend_within hnested endCall_tallied cb _ _)

theorem callAll_tallied (hnested : ∀ c, Within tallied (nested c)) (module : String)
    (notice : Notice) (delivery before : Nat) (failure : Option Error) (es : List Enrolment) :
    Within tallied (callAll nested module notice delivery before failure es) := by
  induction es generalizing before failure with
  | nil => exact .pure failure
  | cons e rest ih =>
      refine (callBack_tallied hnested (fun _ => rfl) notice).bind fun result => ?_
      cases result with
      | ok done => exact ih (before + 1) failure
      | error error =>
          exact (keep_aside_tallied (Machine.runHost_aside _)).bind fun _ =>
            ih (before + 1) _

theorem take_tallied (id : ContextId) (module : String) (notice : Notice) :
    Within tallied (take id module notice) := by
  intro r hprompt
  have hgather : Within Machine.quiet (Machine.gather id module notice) :=
    Machine.quiet_of_quietly (F := fun _ => .free) (.of_always
      (Machine.whileLocked_quietly id _ fun c machine _ _ hprompt =>
        ⟨hprompt, rfl, rfl, fun _ => trivial⟩))
  have hquiet := hgather r.machine
  cases hrun : Machine.gather id module notice r.machine with
  | ok recipients machine =>
      rw [hrun] at hquiet
      rw [take_of_ok hrun]
      exact .of_quiet hprompt hquiet rfl
  | error e machine =>
      rw [hrun] at hquiet
      rw [take_of_error hrun]
      exact .of_quiet hprompt hquiet rfl

theorem deliver_tallied (hnested : ∀ c, Within tallied (nested c)) (bound : Nat)
    (name module : String) (notice : Notice) :
    Within tallied (deliver bound nested name module notice) := by
  refine (keep_aside_tallied (Machine.find_aside _ name)).bind fun id =>
    (keep_tallied (Machine.holdContext_quiet id)).bind fun _ =>
      (Within.attempt ?_).bind fun result =>
        (keep_tallied (Machine.releaseContext_quiet _ id)).bind fun _ => .ofExcept result
  refine (take_tallied id module notice).bind fun taken =>
    (callAll_tallied hnested module notice taken.1 0 none taken.2).bind fun failure => ?_
  cases failure with
  | none => exact .pure _
  | some e => exact keep_aside_tallied (.throw _)

/-- **Every call is told**, and by nobody but those who call. -/
theorem run_tallied (bound : Nat) (c : Command) : Within tallied (run bound c) := by
  induction bound generalizing c with
  | zero =>
      cases c with
      | segment c => exact keep_aside_tallied (Machine.runSegment_aside c)
      | lock c => exact keep_aside_tallied (Machine.runLock_aside c)
      | file c => exact keep_aside_tallied (Machine.runFile_aside c)
      | context c => exact keep_aside_tallied (.throw _)
  | succ bound ih =>
      cases c with
      | segment c => exact keep_aside_tallied (Machine.runSegment_aside c)
      | lock c => exact keep_aside_tallied (Machine.runLock_aside c)
      | file c => exact keep_aside_tallied (Machine.runFile_aside c)
      | context c =>
          cases c with
          | deliver name module notice => exact deliver_tallied ih bound name module notice
          | call subscriber notice =>
              refine (keep_aside_tallied (Machine.subscriberOf_aside subscriber)).bind fun who =>
                (callBack_tallied ih (fun _ => rfl) notice).bind fun result => ?_
              cases result with
              | ok done => exact .pure _
              | error e => exact keep_aside_tallied (.throw _)
          | _ => exact keep_tallied (Machine.runContext_quiet (Machine.run bound) rfl)

end Record

end Subscription
