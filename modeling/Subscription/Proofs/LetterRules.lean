import Subscription.Proofs.Mailroom

/-!
# The letters of one subscription

What a subscription is sent follows rules (`ReplayProtocol`): the end of its replay is
announced once at most and nothing is replayed afterwards, neither comes without a start
time, times are within its window, and trees pass its filter.

All but the first two rules are about one notification at a time, and every notification
that is wanted obeys them.  Those two are about what was sent before, and the code
remembers nothing of that but the flag of the subscription.  So a mailroom is in order
(`Mailroom.InOrder`) when the flag of every subscription in a roster is up wherever its
ticket has got the end of the replay: then the rules hold for one more notification
(`ReplayProtocol.concat`).

The flag goes up before the letters are sent.  In between a delivery owes letters
(`Mailroom.Owes`), and it may send them as long as nobody else writes to the same tickets
and no flag goes down (`Mailroom.Owes.of_spares`).
-/

namespace Subscription

open scoped List

/-- The rules for the notifications that a subscription is sent, in their order. -/
structure ReplayProtocol (sub : NotificationSub) (notices : List Notice) : Prop where
  /-- The end of the replay is announced once at most. -/
  once : (notices.countP fun n => n.type = .replayComplete) ≤ 1
  /-- Nothing is replayed after it. -/
  closed : notices.Pairwise fun earlier later =>
    earlier.type = .replayComplete → later.type ≠ .replay
  /-- Without a start time there is no replay and no end of one. -/
  started : ∀ n ∈ notices, n.type = .replay ∨ n.type = .replayComplete → sub.start.isSome = true
  /-- What is replayed is not from before the start time. -/
  afterStart : ∀ n ∈ notices, n.type = .replay → ∃ start, sub.start = some start ∧ start ≤ n.time
  /-- What comes is not from after the stop time. -/
  beforeStop : ∀ n ∈ notices, n.type = .replay ∨ n.type = .realtime →
    ∀ stop, sub.stop = some stop → n.time ≤ stop
  /-- Trees pass the filter. -/
  selected : ∀ n ∈ notices, ∀ node, n.tree = some node → ∀ filter, sub.filter = some filter →
    filter.selects node = true

namespace ReplayProtocol

variable {sub : NotificationSub} {notices : List Notice} {n : Notice}

theorem nil (sub : NotificationSub) : ReplayProtocol sub [] := by
  constructor <;> simp

/-- The rules are not about the flag. -/
theorem congr (h : ReplayProtocol sub notices) (sub' : NotificationSub)
    (hfilter : sub'.filter = sub.filter) (hstart : sub'.start = sub.start)
    (hstop : sub'.stop = sub.stop) : ReplayProtocol sub' notices := by
  refine ⟨h.once, h.closed, ?_, ?_, ?_, ?_⟩
  · rw [hstart]
    exact h.started
  · rw [hstart]
    exact h.afterStart
  · rw [hstop]
    exact h.beforeStop
  · rw [hfilter]
    exact h.selected

/-- A single notification that is wanted obeys the rules. -/
theorem single (hwants : sub.wants n.type n.tree n.time = true) : ReplayProtocol sub [n] := by
  obtain ⟨hselects, hwindow⟩ : sub.selects n.tree = true ∧ sub.inWindow n.type n.time = true := by
    simpa [NotificationSub.wants] using hwants
  constructor
  · exact List.countP_le_length
  · simp
  · intro x hx htype
    rw [List.mem_singleton.1 hx] at htype
    rcases htype with htype | htype
    · rw [htype] at hwindow
      cases hstart : sub.start <;> simp_all [NotificationSub.inWindow]
    · rw [htype] at hwindow
      simp_all [NotificationSub.inWindow]
  · intro x hx htype
    rw [List.mem_singleton.1 hx] at htype ⊢
    rw [htype] at hwindow
    cases hstart : sub.start <;> simp_all [NotificationSub.inWindow]
  · intro x hx htype stop hstop
    rw [List.mem_singleton.1 hx] at htype ⊢
    rcases htype with htype | htype
    · rw [htype] at hwindow
      simp_all [NotificationSub.inWindow, NotificationSub.beforeStop]
    · rw [htype] at hwindow
      simp_all [NotificationSub.inWindow, NotificationSub.beforeStop]
  · intro x hx node hnode filter hfilter
    rw [List.mem_singleton.1 hx] at hnode
    simpa [NotificationSub.selects, hnode, hfilter] using hselects

/-- What is wanted of a replay is wanted before its end was announced. -/
theorem not_replayed (hwants : sub.wants n.type n.tree n.time = true)
    (htype : n.type = .replay ∨ n.type = .replayComplete) : sub.replayed = false := by
  rcases htype with htype | htype <;> simp_all [NotificationSub.wants, NotificationSub.inWindow]

/-- **One more notification** that is wanted, when the flag tells that the replay is over. -/
theorem concat (h : ReplayProtocol sub notices)
    (hwants : sub.wants n.type n.tree n.time = true)
    (hheard : ∀ x ∈ notices, x.type = .replayComplete → sub.replayed = true) :
    ReplayProtocol sub (notices ++ [n]) := by
  have hone := single hwants
  have hopen : n.type = .replay ∨ n.type = .replayComplete →
      ∀ x ∈ notices, x.type ≠ .replayComplete := by
    intro htype x hx hcomplete
    rw [not_replayed hwants htype] at hheard
    cases hheard x hx hcomplete
  have hboth : ∀ {P : Notice → Prop}, (∀ x ∈ notices, P x) → (∀ x ∈ [n], P x) →
      ∀ x ∈ notices ++ [n], P x := by
    intro P hold hnew x hx
    rcases List.mem_append.1 hx with hx | hx
    · exact hold x hx
    · exact hnew x hx
  refine ⟨?_, ?_, hboth h.started hone.started, hboth h.afterStart hone.afterStart,
    hboth h.beforeStop hone.beforeStop, hboth h.selected hone.selected⟩
  · rw [List.countP_append]
    by_cases hcomplete : n.type = .replayComplete
    · have hnone : (notices.countP fun n => n.type = .replayComplete) = 0 :=
        List.countP_eq_zero.2 fun x hx => by simpa using hopen (.inr hcomplete) x hx
      rw [hnone, Nat.zero_add]
      exact hone.once
    · simpa [hcomplete] using h.once
  · refine List.pairwise_append.2 ⟨h.closed, List.pairwise_singleton _ _, ?_⟩
    intro x hx y hy hcomplete hreplay
    rw [List.mem_singleton.1 hy] at hreplay
    exact hopen (.inl hreplay) x hx hcomplete

end ReplayProtocol

namespace Mailroom

variable {m m' : Mailroom} {id : ContextId} {module : String} {notice : Notice}

/-- What was sent to the subscription of a ticket. -/
def noticesTo (m : Mailroom) (ticket : Nat) : List Notice :=
  (m.letters.filter fun letter => letter.ticket = some ticket).map Letter.notice

/-- A mailroom in order. -/
structure InOrder (m : Mailroom) : Prop where
  /-- It is known how the subscriptions in the rosters were made. -/
  known : ∀ id, ∀ x ∈ (m.rosters id).entries, m.made[x.2.1]? = some (Store.enrol id x.1 x.2.2)
  /-- No two subscriptions have the same ticket. -/
  apart : ∀ id, (m.rosters id).tickets.Nodup
  /-- A letter with a ticket goes to the callback of its subscription. -/
  addressed : ∀ letter ∈ m.letters, ∀ ticket, letter.ticket = some ticket →
    ∃ e, m.made[ticket]? = some e ∧ letter.who = Store.recipientOf e.sub
  /-- Every subscription is sent what the rules say. -/
  lawful : ∀ ticket e, m.made[ticket]? = some e → ReplayProtocol e.sub (m.noticesTo ticket)
  /-- The flag of a subscription is up when the end of its replay was announced. -/
  heard : ∀ id, ∀ x ∈ (m.rosters id).entries, ∀ n ∈ m.noticesTo x.2.1,
    n.type = .replayComplete → x.2.2.replayed = true

/-! ## Subscriptions come and go -/

/-- Subscriptions may go. -/
theorem InOrder.thin (h : m.InOrder) {rosters : ContextId → Roster} (machine : Machine)
    (hthin : ∀ id, (rosters id).entries <+~ (m.rosters id).entries) :
    InOrder { m with machine, rosters } where
  known id x hx := h.known id x ((hthin id).subset hx)
  apart id := by
    obtain ⟨entries, hperm, hsub⟩ := hthin id
    exact (hperm.map fun x => x.2.1).nodup_iff.1 ((h.apart id).sublist (hsub.map fun x => x.2.1))
  addressed := h.addressed
  lawful := h.lawful
  heard id x hx := h.heard id x ((hthin id).subset hx)

theorem InOrder.upTo (h : m.InOrder) (machine : Machine) : (upTo machine m).InOrder :=
  h.thin machine fun _ => (Roster.sublist_keepFirst _ _).subperm

theorem lt_of_made {ticket : Nat} {e : Enrolment} (he : m.made[ticket]? = some e) :
    ticket < m.made.length := (List.getElem?_eq_some_iff.1 he).1

theorem mem_entries_join {sub : NotificationSub} {other : ContextId}
    {x : String × Nat × NotificationSub}
    (hx : x ∈ ((m.join id module sub).rosters other).entries) :
    x ∈ (m.rosters other).entries ∨ other = id ∧ x = (module, m.made.length, sub) := by
  by_cases hother : other = id
  · subst hother
    simp only [Mailroom.join, Function.update_self] at hx
    rcases List.mem_cons.1 ((Roster.perm_join _ module _ sub).mem_iff.1 hx) with hx | hx
    · exact .inr ⟨rfl, hx⟩
    · exact .inl hx
  · simp only [Mailroom.join, Function.update_of_ne hother] at hx
    exact .inl hx

theorem subperm_leave (m : Mailroom) (id : ContextId) (module : String)
    (q : Store.NotificationQuery) (other : ContextId) :
    ((m.leave id module q).rosters other).entries <+~ (m.rosters other).entries := by
  by_cases hother : other = id
  · subst hother
    simp only [Mailroom.leave, Function.update_self]
    exact Roster.subperm_leave _ module q
  · simp only [Mailroom.leave, Function.update_of_ne hother]
    exact List.Subperm.refl _

theorem InOrder.leave (h : m.InOrder) (id : ContextId) (module : String)
    (q : Store.NotificationQuery) : (m.leave id module q).InOrder :=
  h.thin m.machine (subperm_leave m id module q)

theorem InOrder.join (h : m.InOrder) (id : ContextId) (module : String) (sub : NotificationSub) :
    (m.join id module sub).InOrder := by
  have hnew : ∀ n, n ∉ m.noticesTo m.made.length := by
    intro n hn
    obtain ⟨letter, hletter, -⟩ := List.mem_map.1 hn
    obtain ⟨hletter, hticket⟩ := List.mem_filter.1 hletter
    obtain ⟨e, he, -⟩ := h.addressed letter hletter _ (by simpa using hticket)
    exact Nat.lt_irrefl _ (lt_of_made he)
  have hmade : ∀ {ticket : Nat} {e : Enrolment}, m.made[ticket]? = some e →
      (m.made ++ [Store.enrol id module sub])[ticket]? = some e :=
    fun he => (List.getElem?_append_left (lt_of_made he)).trans he
  refine ⟨?_, ?_, ?_, ?_, ?_⟩
  · intro other x hx
    rcases mem_entries_join hx with hold | ⟨rfl, rfl⟩
    · exact hmade (h.known other x hold)
    · exact List.getElem?_concat_length
  · intro other
    by_cases hother : other = id
    · subst hother
      simp only [Mailroom.join, Function.update_self]
      have hperm := (Roster.perm_join (m.rosters other) module m.made.length sub).map
        fun x => x.2.1
      refine hperm.nodup_iff.2 (List.nodup_cons.2 ⟨fun hmem => ?_, h.apart other⟩)
      obtain ⟨x, hx, hticket⟩ := List.mem_map.1 hmem
      have hlt := lt_of_made (h.known other x hx)
      rw [hticket] at hlt
      exact Nat.lt_irrefl _ hlt
    · simp only [Mailroom.join, Function.update_of_ne hother]
      exact h.apart other
  · intro letter hletter ticket hticket
    obtain ⟨e, he, hwho⟩ := h.addressed letter hletter ticket hticket
    exact ⟨e, hmade he, hwho⟩
  · intro ticket e he
    by_cases hold : ticket < m.made.length
    · exact h.lawful ticket e ((List.getElem?_append_left hold).symm.trans he)
    · have hlast : ticket = m.made.length := by
        have hlt := (List.getElem?_eq_some_iff.1 he).1
        simp only [Mailroom.join, List.length_append, List.length_singleton] at hlt
        omega
      have hnone : m.noticesTo ticket = [] :=
        List.eq_nil_iff_forall_not_mem.2 fun n hn => hnew n (hlast ▸ hn)
      show ReplayProtocol e.sub (m.noticesTo ticket)
      rw [hnone]
      exact .nil _
  · intro other x hx n hn hcomplete
    rcases mem_entries_join hx with hold | ⟨rfl, rfl⟩
    · exact h.heard other x hold n hn hcomplete
    · exact absurd hn (hnew n)

/-! ## Letters that are owed -/

/-- A letter that may be sent: by the rules its subscription wants it, and the flag of the
subscription is up already when the end of the replay is announced. -/
def Owes (m : Mailroom) (notice : Notice) (x : Nat × Recipient) : Prop :=
  ∃ e, m.made[x.1]? = some e ∧ x.2 = Store.recipientOf e.sub ∧
    ReplayProtocol e.sub (m.noticesTo x.1 ++ [notice]) ∧
    (notice.type = .replayComplete → ∀ id, ∀ y ∈ (m.rosters id).entries, y.2.1 = x.1 →
      y.2.2.replayed = true)

theorem noticesTo_send (m : Mailroom) (letter : Letter) (ticket : Nat) :
    (m.send letter).noticesTo ticket =
      m.noticesTo ticket ++ if letter.ticket = some ticket then [letter.notice] else [] := by
  by_cases hticket : letter.ticket = some ticket <;>
    simp [noticesTo, send, List.filter_append, hticket]

/-- **A letter that is owed** is sent. -/
theorem InOrder.send (h : m.InOrder) {letter : Letter}
    (howes : ∀ ticket, letter.ticket = some ticket → m.Owes letter.notice (ticket, letter.who)) :
    (m.send letter).InOrder where
  known := h.known
  apart := h.apart
  addressed other hother ticket hticket := by
    rcases List.mem_append.1 hother with hold | hnew
    · exact h.addressed other hold ticket hticket
    · obtain rfl := List.mem_singleton.1 hnew
      obtain ⟨e, he, hwho, -⟩ := howes ticket hticket
      exact ⟨e, he, hwho⟩
  lawful ticket e he := by
    rw [noticesTo_send]
    by_cases hticket : letter.ticket = some ticket
    · obtain ⟨e', he', -, hrules, -⟩ := howes ticket hticket
      obtain rfl : e' = e := Option.some.inj (he'.symm.trans he)
      rw [if_pos hticket]
      exact hrules
    · rw [if_neg hticket, List.append_nil]
      exact h.lawful ticket e he
  heard id x hx n hn hcomplete := by
    rw [noticesTo_send] at hn
    rcases List.mem_append.1 hn with hold | hnew
    · exact h.heard id x hx n hold hcomplete
    · by_cases hticket : letter.ticket = some x.2.1
      · rw [if_pos hticket] at hnew
        obtain rfl := List.mem_singleton.1 hnew
        obtain ⟨e, -, -, -, hflags⟩ := howes _ hticket
        exact hflags hcomplete id x hx rfl
      · rw [if_neg hticket] at hnew
        cases hnew

/-- Subscriptions keep their flags, and only some of those that there are get letters. -/
structure Spares (mayGet : Nat → Prop) (m m' : Mailroom) : Prop where
  made : m.made <+: m'.made
  letters : ∃ more, m'.letters = m.letters ++ more ∧
    ∀ letter ∈ more, ∀ ticket, letter.ticket = some ticket → mayGet ticket
  flags : ∀ id, ∀ x ∈ (m'.rosters id).entries, x.2.1 < m.made.length → x ∈ (m.rosters id).entries

variable {mayGet : Nat → Prop} {m'' : Mailroom}

/-- Nobody gets a letter. -/
theorem Spares.of_letters (hmade : m.made <+: m'.made) (hletters : m'.letters = m.letters)
    (hflags : ∀ id, ∀ x ∈ (m'.rosters id).entries, x.2.1 < m.made.length →
      x ∈ (m.rosters id).entries) : Spares mayGet m m' := by
  refine ⟨hmade, ⟨[], by rw [hletters, List.append_nil], ?_⟩, hflags⟩
  intro letter hletter
  exact absurd hletter List.not_mem_nil

theorem Spares.refl (m : Mailroom) : Spares mayGet m m :=
  .of_letters (List.prefix_refl _) rfl fun _ _ hx _ => hx

theorem Spares.trans (hfirst : Spares mayGet m m') (hnext : Spares mayGet m' m'') :
    Spares mayGet m m'' := by
  obtain ⟨more, hmore, htickets⟩ := hfirst.letters
  obtain ⟨more', hmore', htickets'⟩ := hnext.letters
  refine ⟨hfirst.made.trans hnext.made, ⟨more ++ more', ?_, ?_⟩, ?_⟩
  · rw [hmore', hmore, List.append_assoc]
  · intro letter hletter
    rcases List.mem_append.1 hletter with hold | hnew
    · exact htickets letter hold
    · exact htickets' letter hnew
  · intro id x hx hlt
    exact hfirst.flags id x (hnext.flags id x hx (Nat.lt_of_lt_of_le hlt hfirst.made.length_le)) hlt

/-- Only new subscriptions come, and others go. -/
theorem join_spares (m : Mailroom) (id : ContextId) (module : String) (sub : NotificationSub) :
    Spares mayGet m (m.join id module sub) := by
  refine .of_letters (List.prefix_append _ _) rfl fun other x hx hlt => ?_
  rcases mem_entries_join hx with hold | ⟨-, rfl⟩
  · exact hold
  · exact absurd hlt (Nat.lt_irrefl _)

theorem leave_spares (m : Mailroom) (id : ContextId) (module : String)
    (q : Store.NotificationQuery) : Spares mayGet m (m.leave id module q) :=
  .of_letters (List.prefix_refl _) rfl
    fun other _ hx _ => (subperm_leave m id module q other).subset hx

theorem upTo_spares (machine : Machine) (m : Mailroom) :
    Spares mayGet m (Mailroom.upTo machine m) :=
  .of_letters (List.prefix_refl _) rfl
    fun _ _ hx _ => (Roster.sublist_keepFirst _ _).subset hx

theorem Spares.mono {mayGet' : Nat → Prop} (h : Spares mayGet m m')
    (hmay : ∀ ticket, mayGet ticket → mayGet' ticket) : Spares mayGet' m m' := by
  obtain ⟨more, hmore, htickets⟩ := h.letters
  exact ⟨h.made, ⟨more, hmore, fun letter hletter ticket hticket =>
    hmay ticket (htickets letter hletter ticket hticket)⟩, h.flags⟩

theorem Spares.noticesTo (h : Spares mayGet m m') {ticket : Nat} (hticket : ¬mayGet ticket) :
    m'.noticesTo ticket = m.noticesTo ticket := by
  obtain ⟨more, hmore, htickets⟩ := h.letters
  have hnone : (more.filter fun letter => letter.ticket = some ticket) = [] :=
    List.filter_eq_nil_iff.2 fun letter hletter hsame =>
      hticket (htickets letter hletter ticket (by simpa using hsame))
  rw [Mailroom.noticesTo, hmore, List.filter_append, hnone, List.append_nil]
  rfl

theorem Spares.made_of (h : Spares mayGet m m') {ticket : Nat} {e : Enrolment}
    (he : m.made[ticket]? = some e) : m'.made[ticket]? = some e := by
  obtain ⟨later, hlater⟩ := h.made
  rw [← hlater, List.getElem?_append_left (lt_of_made he)]
  exact he

/-- What is owed is owed as long as it was not sent. -/
theorem Owes.of_spares {x : Nat × Recipient} (howes : m.Owes notice x)
    (h : Spares mayGet m m') (hticket : ¬mayGet x.1) : m'.Owes notice x := by
  obtain ⟨e, he, hwho, hrules, hflags⟩ := howes
  refine ⟨e, h.made_of he, hwho, ?_, fun hcomplete id y hy hsame => ?_⟩
  · rw [h.noticesTo hticket]
    exact hrules
  · have hlt : y.2.1 < m.made.length := hsame ▸ lt_of_made he
    exact hflags hcomplete id y (h.flags id y hy hlt) hsame

/-! ## Deliveries -/

theorem enrol_noteReplay (id : ContextId) (module : String) (notice : Notice)
    (sub : NotificationSub) :
    Store.enrol id module (Store.noteReplay notice.type notice.tree notice.time sub) =
      Store.enrol id module sub := by
  unfold Store.noteReplay
  split <;> rfl

theorem exists_of_mem_note {other : ContextId} {y : String × Nat × NotificationSub}
    (hy : y ∈ ((m.note id module notice).rosters other).entries) :
    ∃ x ∈ (m.rosters other).entries, y.2.1 = x.2.1 ∧
      Store.enrol other y.1 y.2.2 = Store.enrol other x.1 x.2.2 ∧
      (x.2.2.replayed = true → y.2.2.replayed = true) := by
  by_cases hother : other = id
  · subst hother
    simp only [Mailroom.note, Function.update_self] at hy
    obtain ⟨x, hx, rfl | rfl⟩ := Roster.exists_of_mem_note hy
    · exact ⟨y, hx, rfl, rfl, fun hreplayed => hreplayed⟩
    · refine ⟨x, hx, rfl, enrol_noteReplay _ _ _ _, fun hreplayed => ?_⟩
      simp only [Prod.map_snd, Roster.noted, Store.noteReplay]
      split
      · rfl
      · exact hreplayed
  · simp only [Mailroom.note, Function.update_of_ne hother] at hy
    exact ⟨y, hy, rfl, rfl, fun hreplayed => hreplayed⟩

/-- **A delivery** leaves the mailroom in order, and owes a letter to each of its targets. -/
theorem InOrder.note (h : m.InOrder) (id : ContextId) (module : String) (notice : Notice) :
    (m.note id module notice).InOrder ∧
      ∀ x ∈ (m.rosters id).targets module notice,
        (m.note id module notice).Owes notice (x.1, Store.recipientOf x.2) := by
  constructor
  · refine ⟨?_, ?_, h.addressed, h.lawful, ?_⟩
    · intro other y hy
      obtain ⟨x, hx, hticket, hmade, -⟩ := exists_of_mem_note hy
      rw [hticket, hmade]
      exact h.known other x hx
    · intro other
      by_cases hother : other = id
      · subst hother
        simp only [Mailroom.note, Function.update_self, Roster.tickets_note]
        exact h.apart other
      · simp only [Mailroom.note, Function.update_of_ne hother]
        exact h.apart other
    · intro other y hy n hn hcomplete
      obtain ⟨x, hx, hticket, -, hreplayed⟩ := exists_of_mem_note hy
      rw [hticket] at hn
      exact hreplayed (h.heard other x hx n hn hcomplete)
  · intro x hx
    obtain ⟨hmem, htarget⟩ := Roster.mem_of_target hx
    have hmade := h.known id (module, x) hmem
    refine ⟨Store.enrol id module x.2, hmade, rfl, ?_, ?_⟩
    · have hrules := (h.lawful x.1 _ hmade).congr x.2 rfl rfl rfl
      exact (hrules.concat htarget (h.heard id (module, x) hmem)).congr _ rfl rfl rfl
    · intro hcomplete other y hy hsame
      have hother : other = id := by
        obtain ⟨z, hz, hticket, -, -⟩ := exists_of_mem_note hy
        have hthere := h.known other z hz
        rw [← hticket, hsame] at hthere
        exact congrArg Enrolment.context (Option.some.inj (hthere.symm.trans hmade))
      subst hother
      simp only [Mailroom.note, Function.update_self] at hy
      exact Roster.replayed_of_target (h.apart other) hcomplete hx hy hsame

end Mailroom

end Subscription
