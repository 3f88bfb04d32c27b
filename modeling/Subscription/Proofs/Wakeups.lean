import Subscription.Proofs.PipeCalls

/-!
# Wake-ups

Subscribers listen on pipes, at most one on each, and publishers notify them, in any order and as
often as they like (`Switchboard.call`).  What has come of each call is kept in a history.  A
wake-up is *owed* on a pipe when somebody has been told that it was delivered there, and since
then nobody has been woken up on it and it has not been created anew (`Owed`).

Wake-ups are not counted, since a pipe takes only so many bytes, and all of them are taken out at
once.  What can be said is whether there are any: **something waits in the pipe of a subscriber
just when a wake-up is owed** (`Switchboard.Sound.hears`).  This holds as long as different
numbers stand for different pipes, and every call keeps it (`Switchboard.Sound.call`), since it
changes what is at the end of one path only.
-/

namespace Subscription

/-- A call on an event pipe. -/
inductive PipeCall where
  | create
  | notify
  | wait (timeout : Span)
  | close
  | remove

/-- What has come of a call. -/
inductive PipeEvent where
  | created
  /-- Whether somebody was listening. -/
  | notified (reached : Bool)
  /-- Whether there was a wake-up. -/
  | waited (awake : Bool)
  | closed
  | removed
  | failed (e : Error)

/-- A wake-up has been delivered on a pipe, and since then nobody has been woken up on it and it
has not been created anew. -/
def Owed (history : List (UInt32 × PipeEvent)) (n : UInt32) : Prop :=
  ∃ before after, history = before ++ (n, .notified true) :: after ∧
    ∀ e ∈ after, e ≠ (n, .created) ∧ e ≠ (n, .waited true)

section Owed

variable {history : List (UInt32 × PipeEvent)} {n m : UInt32} {event : PipeEvent}

/-- What is owed after one more call. -/
theorem owed_concat_iff {last : UInt32 × PipeEvent} :
    Owed (history ++ [last]) n ↔
      last = (n, .notified true) ∨
        Owed history n ∧ last ≠ (n, .created) ∧ last ≠ (n, .waited true) := by
  constructor
  · rintro ⟨before, after, hsplit, hsince⟩
    rcases List.eq_nil_or_concat after with rfl | ⟨rest, final, rfl⟩
    · obtain ⟨-, hlast⟩ := List.append_inj' hsplit rfl
      exact .inl (List.singleton_inj.1 hlast)
    · rw [List.concat_eq_append] at hsplit hsince
      rw [← List.cons_append, ← List.append_assoc] at hsplit
      obtain ⟨hhistory, hlast⟩ := List.append_inj' hsplit rfl
      rw [List.singleton_inj.1 hlast]
      refine .inr ⟨⟨before, rest, hhistory, fun e he => ?_⟩, ?_⟩
      · exact hsince e (List.mem_append_left _ he)
      · exact hsince final (List.mem_append_right _ (List.mem_singleton.2 rfl))
  · rintro (hdelivered | ⟨⟨before, after, rfl, hsince⟩, hother⟩)
    · exact ⟨history, [], by rw [hdelivered], nofun⟩
    · refine ⟨before, after ++ [last], by simp, fun e he => ?_⟩
      rcases List.mem_append.1 he with hold | hlast
      · exact hsince e hold
      · rw [List.mem_singleton.1 hlast]
        exact hother

/-- What happens on another pipe does not matter. -/
theorem owed_concat_of_ne (hne : m ≠ n) : Owed (history ++ [(m, event)]) n ↔ Owed history n := by
  simp [owed_concat_iff, hne]

theorem owed_concat_notified : Owed (history ++ [(n, .notified true)]) n :=
  owed_concat_iff.2 (.inl rfl)

theorem not_owed_concat_created : ¬ Owed (history ++ [(n, .created)]) n := by
  simp [owed_concat_iff]

theorem not_owed_concat_waited : ¬ Owed (history ++ [(n, .waited true)]) n := by
  simp [owed_concat_iff]

/-- Who has waited in vain was owed nothing, and still is. -/
theorem owed_concat_waited_false :
    Owed (history ++ [(n, .waited false)]) n ↔ Owed history n := by
  simp [owed_concat_iff]

end Owed

/-- Nobody has any of the pipes open, and no file is that of two pipes. -/
structure Disk.PipesAtRest (d : Disk) (cfg : Config) : Prop where
  idle : ∀ n, d.IsIdle (cfg.pipePath n)
  apart : ∀ n m id, d.fileAt (cfg.pipePath n) = some id →
    d.fileAt (cfg.pipePath m) = some id → n = m

theorem Disk.pipesAtRest_of_no_names {d : Disk} {cfg : Config} (hnames : d.entries = []) :
    d.PipesAtRest cfg := by
  have hnone (path : String) (id : FileId) : d.fileAt path ≠ some id := by
    intro hfile
    obtain ⟨l, hleads, hentry⟩ := fileAt_eq_some_iff.1 hfile
    rw [entryAt, if_neg hleads.ne_root, hnames] at hentry
    cases hentry
  exact ⟨fun _ id hfile => absurd hfile (hnone _ id),
    fun _ _ id hfile _ => absurd hfile (hnone _ id)⟩

/-- The pipes of a host with those who listen on them, and what has come of the calls so far, the
first one first. -/
structure Switchboard where
  host : Host
  listeners : UInt32 → Option Pipe
  history : List (UInt32 × PipeEvent)

namespace Switchboard

/-- Nobody listens yet. -/
def opening (h : Host) : Switchboard := ⟨h, fun _ => none, []⟩

/-- A call on a pipe has left a host, and somebody or nobody who listens on the pipe. -/
def after (b : Switchboard) (n : UInt32) (listener : Option Pipe) (event : PipeEvent)
    (h : Host) : Switchboard :=
  ⟨h, Function.update b.listeners n listener, b.history ++ [(n, event)]⟩

/-- What a call on a pipe leaves behind.  A pipe that has a listener does not get another one,
and without a listener nobody waits, closes or removes anything. -/
def call (cfg : Config) (b : Switchboard) (n : UInt32) (c : PipeCall) : Switchboard :=
  match c, b.listeners n with
  | .create, none =>
      match Pipe.create cfg n b.host with
      | .ok p h => b.after n (some p) .created h
      | .error e h => b.after n none (.failed e) h
  | .notify, listener =>
      match Pipe.notify cfg n b.host with
      | .ok reached h => b.after n listener (.notified reached) h
      | .error e h => b.after n listener (.failed e) h
  | .wait timeout, some p =>
      match p.wait timeout b.host with
      | .ok awake h => b.after n (some p) (.waited awake) h
      | .error e h => b.after n (some p) (.failed e) h
  | .close, some p =>
      match (p.close : HostM Error Unit) b.host with
      | .ok () h => b.after n none .closed h
      | .error e h => b.after n none (.failed e) h
  | .remove, some p =>
      match p.remove b.host with
      | .ok () h => b.after n none .removed h
      | .error e h => b.after n none (.failed e) h
  | _, _ => b

/-- What a run of calls leaves behind. -/
def run (cfg : Config) (b : Switchboard) (calls : List (UInt32 × PipeCall)) : Switchboard :=
  calls.foldl (fun b c => b.call cfg c.1 c.2) b

/-- On a pipe that nobody listens on nothing waits, on any other one something does just when a
wake-up is owed; and no file is that of two pipes. -/
structure Sound (cfg : Config) (b : Switchboard) : Prop where
  idle : ∀ n, b.listeners n = none → b.host.disk.IsIdle (cfg.pipePath n)
  hears : ∀ n p, b.listeners n = some p → p.path = cfg.pipePath n ∧
    ∃ waiting, b.host.disk.Hears p waiting ∧ (0 < waiting ↔ Owed b.history n)
  apart : ∀ n m id, b.host.disk.fileAt (cfg.pipePath n) = some id →
    b.host.disk.fileAt (cfg.pipePath m) = some id → n = m

variable {cfg : Config} {b : Switchboard} {n m : UInt32} {p : Pipe} {h : Host}
  {listener : Option Pipe} {event : PipeEvent} {id : FileId}

namespace Sound

/-- What the path of a pipe leads to is there. -/
theorem exists_file (hb : b.Sound cfg) (hfile : b.host.disk.fileAt (cfg.pipePath n) = some id) :
    b.host.disk.file? id ≠ none := by
  cases hlistener : b.listeners n with
  | none =>
      obtain ⟨mode, hthere⟩ := hb.idle n hlistener id hfile
      rw [hthere]
      exact nofun
  | some p =>
      obtain ⟨hp, waiting, hears, -⟩ := hb.hears n p hlistener
      obtain ⟨mode, -, hthere⟩ := hears.opened
      rw [← hp, hears.found] at hfile
      cases hfile
      rw [hthere]
      exact nofun

/-- A call on one pipe keeps all others as they should be. -/
theorem after (hb : b.Sound cfg) (honly : Disk.OnlyPipe cfg n b.host.disk h.disk)
    (hidle : listener = none → h.disk.IsIdle (cfg.pipePath n))
    (hhears : ∀ p, listener = some p → p.path = cfg.pipePath n ∧ ∃ waiting,
      h.disk.Hears p waiting ∧ (0 < waiting ↔ Owed (b.history ++ [(n, event)]) n)) :
    (b.after n listener event h).Sound cfg := by
  have hother {m : UInt32} (hm : m ≠ n) {id : FileId}
      (hfile : b.host.disk.fileAt (cfg.pipePath m) = some id) :
      b.host.disk.fileAt (cfg.pipePath n) ≠ some id :=
    fun hsame => hm (hb.apart m n id hfile hsame)
  have hnew {m : UInt32} (hm : m ≠ n) {id : FileId}
      (hfile : h.disk.fileAt (cfg.pipePath m) = some id) :
      h.disk.fileAt (cfg.pipePath n) ≠ some id := by
    intro hhere
    rw [honly.others m hm] at hfile
    rcases honly.here id hhere with hold | hnone
    · exact hother hm hfile hold
    · exact hb.exists_file hfile hnone
  constructor
  · intro m hm
    by_cases hsame : m = n
    · subst hsame
      exact hidle (by simpa [Switchboard.after] using hm)
    · have hbefore : b.listeners m = none := by simpa [Switchboard.after, hsame] using hm
      exact honly.isIdle hsame (fun _ => hother hsame) (hb.idle m hbefore)
  · intro m p hm
    by_cases hsame : m = n
    · subst hsame
      exact hhears p (by simpa [Switchboard.after] using hm)
    · have hbefore : b.listeners m = some p := by simpa [Switchboard.after, hsame] using hm
      obtain ⟨hp, waiting, hears, howed⟩ := hb.hears m p hbefore
      refine ⟨hp, waiting, honly.hears hsame (fun _ => hother hsame) hp hears, howed.trans ?_⟩
      exact (owed_concat_of_ne (Ne.symm hsame)).symm
  · intro k m id hk hm
    by_cases hkn : k = n <;> by_cases hmn : m = n
    · rw [hkn, hmn]
    · rw [hkn] at hk
      exact absurd hk (hnew hmn hm)
    · rw [hmn] at hm
      exact absurd hm (hnew hkn hk)
    · refine hb.apart k m id ?_ ?_
      · rw [← honly.others k hkn]
        exact hk
      · rw [← honly.others m hmn]
        exact hm

theorem after_idle (hb : b.Sound cfg) (hleaves : Pipe.LeavesIdle cfg n b.host h) :
    (b.after n none event h).Sound cfg :=
  hb.after hleaves.only (fun _ => hleaves.idle) nofun

theorem after_open {waiting : Nat} (hb : b.Sound cfg) (hp : p.path = cfg.pipePath n)
    (hleaves : Pipe.LeavesOpen cfg n p waiting b.host h)
    (howed : 0 < waiting ↔ Owed (b.history ++ [(n, event)]) n) :
    (b.after n (some p) event h).Sound cfg := by
  refine hb.after hleaves.only nofun fun q hq => ?_
  cases hq
  exact ⟨hp, waiting, hleaves.hears, howed⟩

/-- **Every call keeps what waits in step with what is owed.** -/
theorem call (hb : b.Sound cfg) (n : UInt32) (c : PipeCall) : (b.call cfg n c).Sound cfg := by
  cases hlistener : b.listeners n with
  | none =>
      have hidle := hb.idle n hlistener
      cases c with
      | create =>
          simp only [Switchboard.call, hlistener]
          obtain ⟨p, h, hrun, hp, hleaves⟩ | ⟨e, h, hrun, hleaves⟩ := Pipe.create_idle hidle
          · simp only [hrun]
            exact hb.after_open hp hleaves (by simp [not_owed_concat_created])
          · simp only [hrun]
            exact hb.after_idle hleaves
      | notify =>
          simp only [Switchboard.call, hlistener]
          obtain hrun | ⟨e, hrun⟩ := Pipe.notify_idle hidle
          · simp only [hrun]
            exact hb.after_idle (.refl hidle)
          · simp only [hrun]
            exact hb.after_idle (.refl hidle)
      | wait timeout => simpa only [Switchboard.call, hlistener] using hb
      | close => simpa only [Switchboard.call, hlistener] using hb
      | remove => simpa only [Switchboard.call, hlistener] using hb
  | some p =>
      obtain ⟨hp, waiting, hears, howed⟩ := hb.hears n p hlistener
      cases c with
      | create => simpa only [Switchboard.call, hlistener] using hb
      | notify =>
          obtain ⟨left, h, hrun, hleft, hleaves⟩ := Pipe.notify_hears hears hp
          simp only [Switchboard.call, hlistener, hrun]
          exact hb.after_open hp hleaves (iff_of_true hleft owed_concat_notified)
      | wait timeout =>
          obtain ⟨h, hrun, hleaves⟩ := Pipe.wait_hears hears hp timeout
          simp only [Switchboard.call, hlistener, hrun]
          refine hb.after_open hp hleaves (iff_of_false (Nat.lt_irrefl 0) ?_)
          by_cases hwaits : 0 < waiting
          · rw [decide_eq_true hwaits]
            exact not_owed_concat_waited
          · rw [decide_eq_false hwaits, owed_concat_waited_false]
            exact mt howed.2 hwaits
      | close =>
          obtain ⟨h, hrun, hleaves⟩ := Pipe.close_hears hears hp
          simp only [Switchboard.call, hlistener, hrun]
          exact hb.after_idle hleaves
      | remove =>
          obtain ⟨h, hrun, hleaves⟩ := Pipe.remove_hears hears hp
          simp only [Switchboard.call, hlistener, hrun]
          exact hb.after_idle hleaves

theorem run (hb : b.Sound cfg) (calls : List (UInt32 × PipeCall)) : (b.run cfg calls).Sound cfg := by
  induction calls generalizing b with
  | nil => exact hb
  | cons c rest ih => exact ih (hb.call c.1 c.2)

end Sound

/-- **No wake-up is lost or made up.**  At first nobody has any of the pipes open; then there is
any run of calls on any of them.  Notifying a pipe reaches somebody just when somebody listens on
it.  Whoever listens on it and waits is told that there is a wake-up just when one is owed, and
then the pipe is empty; for draining it comes to an end, however many bytes wait in it. -/
theorem no_wakeup_lost_or_made_up (cfg : Config) (h : Host) (hrest : h.disk.PipesAtRest cfg)
    (calls : List (UInt32 × PipeCall)) (n : UInt32) :
    let b := (opening h).run cfg calls
    ((∃ h', Pipe.notify cfg n b.host = .ok true h') ↔ ∃ p, b.listeners n = some p) ∧
    (∀ p, b.listeners n = some p → ∀ timeout, ∃ awake h', p.wait timeout b.host = .ok awake h' ∧
      (awake = true ↔ Owed b.history n) ∧ (awake = true → h'.disk.pending p.file = 0)) ∧
    ∀ (p : Pipe) (host : Host) (mode waiting readers : Nat),
      host.disk.file? p.file = some (.fifo mode waiting readers) →
        ∃ host', p.drain host = .ok () host' ∧ host'.disk.pending p.file = 0 := by
  intro b
  have hopening : (opening h).Sound cfg := ⟨fun n _ => hrest.idle n, nofun, hrest.apart⟩
  have hb : b.Sound cfg := hopening.run calls
  refine ⟨⟨?_, ?_⟩, ?_, ?_⟩
  · rintro ⟨h', hreached⟩
    cases hlistener : b.listeners n with
    | some p => exact ⟨p, rfl⟩
    | none =>
        obtain hnobody | ⟨e, hfailed⟩ := Pipe.notify_idle (hb.idle n hlistener)
        · rw [hnobody] at hreached
          cases hreached
        · rw [hfailed] at hreached
          cases hreached
  · rintro ⟨p, hlistener⟩
    obtain ⟨hp, waiting, hears, -⟩ := hb.hears n p hlistener
    obtain ⟨left, h', hreached, -⟩ := Pipe.notify_hears hears hp
    exact ⟨h', hreached⟩
  · intro p hlistener timeout
    obtain ⟨hp, waiting, hears, howed⟩ := hb.hears n p hlistener
    obtain ⟨h', hrun, hleaves⟩ := Pipe.wait_hears hears hp timeout
    exact ⟨_, h', hrun, decide_eq_true_iff.trans howed, fun _ => hleaves.hears.pending_eq⟩
  · intro p host mode waiting readers hfile
    obtain ⟨host', hdrain, hdisk⟩ := Pipe.drain_pipe hfile
    refine ⟨host', hdrain, ?_⟩
    rw [hdisk, Disk.pending, Disk.file?_modifyFile_same, hfile]
    rfl

/-- Two notifications are one wake-up. -/
theorem no_wakeup_lost_or_made_up_twice_notified :
    ∃ b : Switchboard, b = (opening Host.fresh).run (.withRoot "")
        [(7, .create), (7, .notify), (7, .notify)] ∧
      ∃ p h', b.listeners 7 = some p ∧ p.wait (.ofMillis 1000) b.host = .ok true h' ∧
        h'.disk.pending p.file = 0 := by
  refine ⟨_, rfl, ?_⟩
  obtain ⟨-, hwaits, -⟩ := no_wakeup_lost_or_made_up (.withRoot "") Host.fresh
    (Disk.pipesAtRest_of_no_names rfl) [(7, .create), (7, .notify), (7, .notify)] 7
  generalize hb : (opening Host.fresh).run (.withRoot "")
    [(7, .create), (7, .notify), (7, .notify)] = b at hwaits ⊢
  have hpath : (Config.withRoot "").pipePath 7 = "sr_evpipe7" := by decide +kernel
  have hplain : Path.hasNul "sr_evpipe7" = false := by decide
  simp only [run, List.foldl, Switchboard.call, opening, Pipe.create, Pipe.notify, hpath,
    Pipe.requirePath, hplain, if_neg Bool.false_ne_true, pure_bind] at hb
  have hlistener : b.listeners 7 = some ⟨0, "sr_evpipe7"⟩ := by
    rw [← hb]
    with_unfolding_all rfl
  have howed : Owed b.history 7 := by
    refine ⟨[(7, .created), (7, .notified true)], [], ?_, List.forall_mem_nil _⟩
    rw [← hb]
    with_unfolding_all rfl
  obtain ⟨awake, h', hrun, hawake, hempty⟩ := hwaits _ hlistener (.ofMillis 1000)
  obtain rfl : awake = true := hawake.2 howed
  exact ⟨_, h', hlistener, hrun, hempty rfl⟩

end Switchboard

end Subscription
