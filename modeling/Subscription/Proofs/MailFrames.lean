import Subscription.Proofs.Mailroom
import Subscription.Proofs.Trimming

/-!
# Staying within a frame of the mailroom

What a run does to a mailroom is said by frames, and a frame has to look at three things: at
what calls nobody, at the deliveries that take their recipients, and at the calls.  The first
of them is the same for every run, and so a frame is *tolerant* when it admits that
(`Mailroom.Tolerant`).  A run stays within a tolerant frame when its deliveries and its direct
calls do (`Tolerant.run`), and a call does when its beginning does and the commands of the
callback (`Tolerant.callBack`).
-/

namespace Subscription

/-! ## Kinds of commands -/

/-- Whether a command delivers a notification. -/
def Command.delivers : Command → Bool
  | .context (.deliver ..) => true
  | _ => false

/-- Whether a command calls a callback without a delivery. -/
def Command.asks : Command → Bool
  | .context (.call ..) => true
  | _ => false

/-- No callback runs commands of some kind. -/
def Machine.Refrains (machine : Machine) (kind : Command → Bool) : Prop :=
  ∀ entry ∈ machine.callbacks, ∀ commands, entry.2.commands = some commands →
    ∀ c ∈ commands, kind c = false

theorem Machine.Refrains.of_callbacks {machine machine' : Machine} {kind : Command → Bool}
    (hkind : machine.Refrains kind) (hcallbacks : machine'.callbacks = machine.callbacks) :
    machine'.Refrains kind := by
  rw [Refrains, hcallbacks]
  exact hkind

theorem Machine.Refrains.lookup {machine : Machine} {kind : Command → Bool}
    (hkind : machine.Refrains kind) {name : String} {cb : Callback}
    (hlookup : machine.callbacks.lookup name = some cb) {commands : List Command}
    (hcommands : cb.commands = some commands) : ∀ c ∈ commands, kind c = false := by
  obtain ⟨before, after, hcallbacks, -⟩ := List.lookup_eq_some_iff.1 hlookup
  exact hkind (name, cb) (by simp [hcallbacks]) commands hcommands

namespace Mailroom

variable {m : Mailroom} {F : Frame Mailroom} {nested : Command → MailM Answer} {bound : Nat}
  {α : Type}

/-- A frame within which all stays that calls nobody. -/
structure Tolerant (F : Frame Mailroom) : Prop where
  keep : ∀ {β : Type} {act : MachineM β}, Within Machine.trimming act → Within F (keep act)
  enter : ∀ {order : Order} {work : Order.Work}, order.plan = .ok work →
    ∀ (bound : Nat) (id : ContextId), Within F (enter (·.carriedOut id order)
      (Machine.whileLocked id order.operation fun _ =>
        Machine.runPlan (Machine.run bound) id work))
  endCall : ∀ place reactions, Within F (Mailroom.keep (Machine.endCall place reactions))

theorem react_within {commands : List Command} (hnested : ∀ c ∈ commands, Within F (nested c)) :
    Within F (react nested commands) := by
  induction commands with
  | nil => exact .pure []
  | cons c rest ih =>
      exact (hnested c List.mem_cons_self).attempt.bind fun _ =>
        (ih fun other hother => hnested other (List.mem_cons_of_mem _ hother)).bind fun _ =>
          .pure _

namespace Tolerant

variable (hF : Tolerant F)
include hF

theorem keep_aside {act : MachineM α} (hact : Within Machine.aside act) :
    Within F (Mailroom.keep act) := hF.keep (Machine.trimming_of_aside hact)

/-! ## Calls -/

/-- **A call** stays within a frame when it does so as it begins, and the commands of the
callback are of a kind that does. -/
theorem callBack {letter : Letter} {kind : Command → Bool} (hkind : m.machine.Refrains kind)
    (hnested : ∀ c, kind c = false → Within F (nested c))
    (hbegin : ∀ cb shape payload, m.machine.callbacks.lookup letter.who.callback = some cb →
      cb.shape = some shape → Payload.ofNode shape letter.notice.tree = .ok payload →
      F.keeps (upTo m.machine m) (stateAfter (Mailroom.keep
        (Machine.beginCall cb letter.who letter.notice payload)
        ((upTo m.machine m).send letter)))) :
    F.keeps m (stateAfter (callBack nested letter m)) := by
  have hstart : F.keeps m (upTo m.machine m) := hF.keep_aside (.get : Within _ get) m
  unfold Mailroom.callBack
  cases hlookup : m.machine.callbacks.lookup letter.who.callback with
  | none =>
      have hrun : Mailroom.keep (Machine.find (·.callbacks) letter.who.callback) m =
          .error (.unknown letter.who.callback) (upTo m.machine m) := by
        rw [Mailroom.keep, Machine.find_of_none hlookup]
      rw [bind_of_error hrun]
      exact hstart
  | some cb =>
      have hrun : Mailroom.keep (Machine.find (·.callbacks) letter.who.callback) m =
          .ok cb (upTo m.machine m) := by
        rw [Mailroom.keep, Machine.find_of_some hlookup]
      rw [bind_of_ok hrun]
      cases hshape : cb.shape with
      | none => exact hstart
      | some shape =>
          cases hpayload : Payload.ofNode shape letter.notice.tree with
          | error e =>
              simp only [hpayload]
              exact hstart
          | ok payload =>
              simp only [hpayload]
              have hbegun := hbegin cb shape payload hlookup hshape hpayload
              have hattend : ∀ place, Within F (attend nested cb place) := by
                intro place
                unfold attend
                cases hcommands : cb.commands with
                | none => exact .pure _
                | some commands =>
                    have hrest := hkind.lookup hlookup hcommands
                    exact (react_within fun c hc => hnested c (hrest c hc)).bind fun _ =>
                      (hF.endCall place _).bind fun _ => .pure _
              exact F.trans hstart (F.trans hbegun (hattend _ _))

/-! ## Contexts -/

/-- An action on a context that is held meanwhile. -/
theorem withContext (bound : Nat) (name : String) {act : ContextId → MailM α}
    (hact : ∀ id, Within F (act id)) : Within F (withContext bound name act) := by
  refine (hF.keep_aside (Machine.find_aside _ name)).bind fun id => ?_
  refine .bind (hF.keep (Machine.updateContext_quietly id ?_)) fun _ => ?_
  · exact fun _ => rfl
  · refine (hact id).attempt.bind fun result => ?_
    exact (hF.keep (Machine.releaseContext_quietly _ Store.lenient_trimmed id)).bind fun _ =>
      .ofExcept result

theorem carryOut (name : String) (order : Order) : Within F (carryOut bound name order) := by
  unfold Mailroom.carryOut
  cases hwork : order.plan with
  | error f => exact .throw _
  | ok work =>
      refine hF.withContext bound name fun id => ?_
      refine (hF.enter hwork bound id).bind fun result => ?_
      cases result with
      | ok u => exact .pure _
      | error f => exact .throw _

theorem runQuiet {c : ContextCommand} (hc : c.calls = false) : Within F (runQuiet bound c) := by
  unfold Mailroom.runQuiet
  cases horder : c.order? with
  | some given =>
      obtain ⟨name, subscriber, order⟩ := given
      exact (hF.keep_aside (Machine.subscriberOf_aside subscriber)).bind fun who =>
        hF.carryOut name (order who)
  | none =>
      refine hF.keep (Machine.runContext_quietly _ Store.lenient_trimmed hc ?_)
      intro name subscriber order hsome
      rw [horder] at hsome
      cases hsome

/-! ## Runs -/

/-- **A run of a command of some kind** stays within a frame, when deliveries and direct calls
do that are of this kind and run nothing else. -/
theorem run (kind : Command → Bool)
    (hdeliver : ∀ bound name module notice,
      kind (.context (.deliver name module notice)) = false →
      (∀ c, kind c = false → Within F (run bound c)) →
      Within F (deliver bound (run bound) name module notice))
    (hcall : ∀ bound subscriber who notice, kind (.context (.call subscriber notice)) = false →
      (∀ c, kind c = false → Within F (run bound c)) →
      Within F (Mailroom.callBack (Mailroom.run bound) ⟨none, who, notice⟩))
    (bound : Nat) {c : Command} (hc : kind c = false) : Within F (run bound c) := by
  induction bound generalizing c with
  | zero =>
      cases c with
      | segment c => exact hF.keep_aside (Machine.runSegment_aside c)
      | lock c => exact hF.keep_aside (Machine.runLock_aside c)
      | file c => exact hF.keep_aside (Machine.runFile_aside c)
      | context c => exact hF.keep_aside (.throw _)
  | succ bound ih =>
      cases c with
      | segment c => exact hF.keep_aside (Machine.runSegment_aside c)
      | lock c => exact hF.keep_aside (Machine.runLock_aside c)
      | file c => exact hF.keep_aside (Machine.runFile_aside c)
      | context c =>
          cases c with
          | deliver name module notice => exact hdeliver bound name module notice hc fun _ => ih
          | call subscriber notice =>
              refine (hF.keep_aside (Machine.subscriberOf_aside subscriber)).bind fun who => ?_
              refine (hcall bound subscriber who notice hc fun _ => ih).bind fun result => ?_
              cases result with
              | ok done => exact .pure _
              | error e => exact hF.keep_aside (.throw _)
          | _ =>
              show Within F (runContext bound _ _)
              rw [runContext_of_quiet rfl]
              exact hF.runQuiet rfl

end Tolerant

end Mailroom

end Subscription
