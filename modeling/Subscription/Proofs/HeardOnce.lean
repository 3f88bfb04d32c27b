import Subscription.Proofs.Watching

/-!
# Events are heard exactly once

Every operation that has to do with changes leaves a watcher who is right about a
community right about it (`Broadcast.Sound.step`), and so does every run:

* polling reads one segment after the other, and finds in each what was published last
  (`Broadcast.pollGroups_aired`, `Broadcast.Sound.poll`);
* a use of a segment is a use of the cell that its past leaves, and does not reach any
  other segment (`Broadcast.Sound.use`).

As every listener follows the past of its segment, every listener is served
(`Broadcast.Fair`): events are heard exactly once
(`Broadcast.events_are_heard_once`).
-/

namespace Subscription

open Plan Shared

namespace Broadcast

variable {b : Broadcast} {i : Nat} {m : Member} {a : Audience} {location : Location}
variable {chronicles : FileId → Option Chronicle} {h : Host} {file : FileId} {t : Chronicle}

/-! ## Polling -/

/-- What the segment of a group shows. -/
def cellOf (chronicles : FileId → Option Chronicle) (s : Station) : Snapshot :=
  ((s.file.bind chronicles).getD .blank).cell

/-- What one can see of a group whose subscribers were shown an event. -/
def seenShown (chronicles : FileId → Option Chronicle) (v : Group Station ChangeSub) :
    Group Station ChangeSub :=
  { v with subs := v.subs.map fun sub => sub.take (cellOf chronicles v.shared) }

/-- What one can see that a group has to report. -/
def seenNews (chronicles : FileId → Option Chronicle) (v : Group Station ChangeSub) :
    List ChangeNews :=
  match (v.subs.toList.filter fun sub => sub.isDue (cellOf chronicles v.shared)).map
      ChangeSub.xpath with
  | [] => []
  | xpaths => [⟨v.shared.module, v.shared.datastore, cellOf chronicles v.shared, xpaths⟩]

/-- **Polling channels** succeeds, and shows everybody what was published. -/
theorem pollGroups_aired (chronicles : FileId → Option Chronicle) (readTimeout timeout : Span)
    (groups : List (Group ChangeChannel ChangeSub))
    (hgroups : ∀ g ∈ groups, ∃ file t, g.shared.segment.file = some file ∧
      chronicles file = some t) (haired : Aired chronicles h) :
    ∃ groups' h', Store.pollGroups readTimeout timeout groups h =
        (.ok ((groups.map (Groups.viewOf ChangeChannel.station id)).flatMap
          (seenNews chronicles)), groups', h') ∧
      groups'.map (Groups.viewOf ChangeChannel.station id) =
        (groups.map (Groups.viewOf ChangeChannel.station id)).map (seenShown chronicles) ∧
      Aired chronicles h' := by
  induction groups generalizing h with
  | nil => exact ⟨[], h, rfl, rfl, haired⟩
  | cons g rest ih =>
      obtain ⟨file, t, hfile, ht⟩ := hgroups g List.mem_cons_self
      obtain ⟨h₁, hread, hch, hspares⟩ :=
        Segment.readEvent_channel (haired file t ht) hfile readTimeout timeout
      have haired₁ : Aired chronicles h₁ := by
        intro f t' ht'
        by_cases hf : f = file
        · subst hf
          rw [ht] at ht'
          cases ht'
          exact hch
        · exact (haired f t' ht').of_file? (hspares.only.others f hf)
      obtain ⟨groups', h', hpoll, hview, haired'⟩ :=
        ih (fun g' hg' => hgroups g' (List.mem_cons_of_mem _ hg')) haired₁
      have hcell : cellOf chronicles g.shared.station = t.cell := by
        simp [cellOf, ChangeChannel.station, hfile, ht]
      refine ⟨Store.showEvent (Store.withSegment g (h₁.fitted file).segment) t.cell :: groups',
        h', ?_, ?_, haired'⟩
      · have hnews : Store.newsOf g t.cell =
            seenNews chronicles (Groups.viewOf ChangeChannel.station id g) := by
          simp only [seenNews, Groups.viewOf, SwapSet.view, List.map_id, hcell]
          rfl
        unfold Store.pollGroups
        rw [hread]
        dsimp only
        rw [show Store.pollGroups readTimeout timeout rest (h₁.fitted file).host = _ from hpoll,
          hnews]
        rfl
      · have hshown : Groups.viewOf ChangeChannel.station id
            (Store.showEvent (Store.withSegment g (h₁.fitted file).segment) t.cell) =
            seenShown chronicles (Groups.viewOf ChangeChannel.station id g) := by
          have hstation : ({ g.shared with segment := (h₁.fitted file).segment } :
              ChangeChannel).station = g.shared.station := by
            simp [ChangeChannel.station, Host.fitted, hfile]
          simp only [seenShown, Groups.viewOf, hcell, Store.showEvent, Store.withSegment, hstation,
            SwapSet.view, SwapSet.map, List.map_id]
        rw [List.map_cons, hshown, hview]
        rfl

/-- What listeners are told is what their subscribers take. -/
theorem viewOf_shown (b : Broadcast) (g : Group Station Listener) :
    Groups.viewOf id Listener.sub (b.shown g) =
      seenShown b.chronicles (Groups.viewOf id Listener.sub g) := by
  have htake : ∀ l : Listener, (l.told (b.chronicle g.shared)).sub =
      l.sub.take (cellOf b.chronicles g.shared) := fun l => l.sub_told _
  simp [Groups.viewOf, shown, seenShown, SwapSet.view, SwapSet.map, Function.comp_def, htake]

/-- What is reported is who is told. -/
theorem report_eq (b : Broadcast) (g : Group Station Listener) :
    b.report g = seenNews b.chronicles (Groups.viewOf id Listener.sub g) := by
  simp only [report, seenNews, Groups.viewOf, SwapSet.view, List.filter_map, List.map_map]
  rfl

theorem chronicle_eq {s : Station} (hfile : s.file = some file)
    (ht : b.chronicles file = some t) : b.chronicle s = t := by
  simp [chronicle, hfile, ht]

/-- **A poll** succeeds; its news are what the listeners are told. -/
theorem Sound.poll_eq (hsound : b.Sound location) (hm : b.community.members[i]? = some m)
    (ha : b.audiences[i]? = some a) (timeout : Span) :
    ∃ c' m', b.community.poll i timeout = (.ok (a.toList.flatMap b.report), c') ∧
      c'.members = b.community.members.set i m' ∧
      m'.subscribers = Audience.subscribers (SwapSet.map a b.shown) ∧
      Aired b.chronicles c'.host := by
  obtain ⟨a', ha', hsame⟩ := hsound.exists_audience hm
  rw [ha] at ha'
  cases ha'
  have hmem := List.mem_of_getElem? hm
  have hviews : m.store.changes.toList.map (Groups.viewOf ChangeChannel.station id) =
      a.toList.map (Groups.viewOf id Listener.sub) := congrArg SwapSet.toList hsame
  obtain ⟨groups', h', hpoll, hview, haired⟩ := pollGroups_aired b.chronicles
    b.community.config.readSpan timeout m.store.changes.toList (fun g hg => by
      obtain ⟨sub, hsub⟩ := List.exists_mem_of_ne_nil _
        ((hsound.kept.tidy m hmem).changes.nonempty g hg)
      exact hsound.exists_chronicle hmem
        (Groups.mem_entries.2 ⟨g, hg, rfl, hsub⟩ : (g.shared, sub) ∈ _)) hsound.aired
  have hnews : (m.store.changes.toList.map (Groups.viewOf ChangeChannel.station id)).flatMap
      (seenNews b.chronicles) = a.toList.flatMap b.report := by
    rw [hviews, List.flatMap_map]
    exact List.flatMap_congr fun g _ => (report_eq b g).symm
  rw [hnews] at hpoll
  let m' : Member := { m with store := { m.store with changes := ⟨groups'⟩ } }
  refine ⟨{ b.community with host := h', members := b.community.members.set i m' }, m', ?_, rfl,
    ?_, haired⟩
  · simp only [Community.poll, hm, Store.poll, hpoll]
    rfl
  · refine congrArg SwapSet.mk ?_
    show groups'.map (Groups.viewOf ChangeChannel.station id) =
      (a.toList.map b.shown).map (Groups.viewOf id Listener.sub)
    rw [hview, hviews, List.map_map, List.map_map]
    exact List.map_congr_left fun g _ => (viewOf_shown b g).symm

theorem Sound.poll (hsound : b.Sound location) (i : Nat) (timeout : Span) :
    (b.noted (b.community.poll i timeout) (b.polled i)).Sound location := by
  have hkept := hsound.kept.poll i timeout
  cases hm : b.community.members[i]? with
  | none =>
      have hnobody : b.community.poll i timeout = (.ok [], b.community) := by
        simp only [Community.poll, hm]
      rw [hnobody]
      show (b.polled i b.community).Sound location
      rw [polled, hsound.modify_none hm]
      exact hsound
  | some m =>
      obtain ⟨a, ha, -⟩ := hsound.exists_audience hm
      obtain ⟨c', m', hpoll, hmembers, hsame, haired⟩ := hsound.poll_eq hm ha timeout
      rw [hpoll] at hkept ⊢
      refine hsound.update ha hkept hmembers haired (Grows.refl _) hsame fun x hx => ?_
      obtain ⟨g, hg, hstation, hl⟩ := Groups.mem_entries.1 hx
      obtain ⟨g₀, hg₀, rfl⟩ := List.mem_map.1 hg
      obtain ⟨l₀, hl₀, hl⟩ := List.mem_map.1 hl
      obtain ⟨file, t, hfile, ht, hfollows⟩ := hsound.heeds a (List.mem_of_getElem? ha)
        (g₀.shared, l₀) (Groups.mem_entries.2 ⟨g₀, hg₀, rfl, hl₀⟩)
      refine ⟨file, t, by rw [hstation]; exact hfile, ht, ?_⟩
      rw [← hl, chronicle_eq hfile ht]
      exact hfollows.told

/-! ## Using segments -/

/-- What has no room for its length is not published. -/
theorem Segment.act_of_not_fits {use : Use} (hfits : ¬ use.Fits) (kind : HeaderKind)
    (readTimeout timeout : Span) (t : Segment) (h : Host) :
    ∃ f, Visit.act kind ⟨0, use, readTimeout, timeout⟩ ⟨t, h⟩ = .error f ⟨t, h⟩ := by
  cases use with
  | publish record payload =>
      have hlong : UInt32.size ≤ payload.length := Nat.le_of_not_lt hfits
      refine ⟨.error (.invalid (.payloadTooLarge payload.length)), bind_of_error ?_⟩
      unfold Segment.writeEvent
      rw [if_pos hlong]
      rfl
  | consume => exact absurd trivial hfits
  | read => exact absurd trivial hfits

/-- **A use** of a segment is noted in its past. -/
theorem Sound.use (hsound : b.Sound location) {handle : Segment} {what : Use}
    (hfile : handle.file = some file) (ht : b.chronicles file = some t)
    (readTimeout timeout : Span) :
    (b.noted (b.community.use handle .multi what readTimeout timeout)
      (b.used handle what)).Sound location := by
  have hkept := hsound.kept.use handle .multi what readTimeout timeout
  unfold Community.use at hkept ⊢
  by_cases hfits : what.Fits
  · obtain ⟨h', hact, hch, hspares⟩ := Visit.act_channel (hsound.aired file t ht) hfile
      ⟨0, what, readTimeout, timeout⟩ hfits
    rw [hact] at hkept ⊢
    obtain ⟨haired, hgrows⟩ := aired_used hsound.aired ht hch hspares.only
    show (b.used handle what { b.community with host := h' }).Sound location
    simp only [used, hfile]
    refine ⟨hkept, haired, hsound.alike, fun a ha x hx => ?_⟩
    exact (hsound.heeds a ha x hx).mono hgrows
  · obtain ⟨f, hact⟩ := Segment.act_of_not_fits hfits .multi readTimeout timeout handle
      b.community.host
    rw [hact] at hkept ⊢
    exact hsound

/-! ## Steps and runs -/

/-- **No operation that has to do with changes makes the watcher wrong.** -/
theorem Sound.step (hsound : b.Sound location) {operation : Operation}
    (hallowed : b.Allows operation) : (b.step operation).Sound location := by
  cases operation with
  | join pipe =>
      refine ⟨hsound.kept.step (.join pipe), hsound.aired, ?_, ?_⟩
      · show (b.community.members ++ [(⟨pipe, .empty⟩ : Member)]).map Member.subscribers =
          (b.audiences ++ [(SwapSet.empty : Audience)]).map Audience.subscribers
        rw [List.map_append, List.map_append, hsound.alike]
        rfl
      · intro a ha x hx
        rcases List.mem_append.1 ha with hold | hlast
        · exact hsound.heeds a hold x hx
        · rw [List.mem_singleton.1 hlast] at hx
          cases hx
  | carryOut member order refusal =>
      cases order with
      | addChange module datastore xpath priority options callback data =>
          simp only [Broadcast.step, Community.carryOut, Order.plan, Order.after]
          cases hcheck : checkOptionalXPath xpath with
          | error e => exact hsound
          | ok u => exact hsound.addChange member refusal module datastore rfl rfl
      | removeChange module datastore xpath priority options callback data =>
          exact hsound.removeChange member refusal module datastore _
      | addData => cases hallowed
      | removeData => cases hallowed
      | addRpc => cases hallowed
      | removeRpc => cases hallowed
      | addNotification => cases hallowed
      | removeNotification => cases hallowed
  | removeAll member => cases hallowed
  | leave member => cases hallowed
  | poll member timeout => exact hsound.poll member timeout
  | use handle kind what readTimeout timeout =>
      obtain ⟨rfl, file, t, hfile, ht⟩ := hallowed
      exact hsound.use hfile ht readTimeout timeout

theorem Sound.run (hsound : b.Sound location) {operations : List Operation}
    (hallowed : b.AllowsAll operations) : (b.run operations).Sound location := by
  induction operations generalizing b with
  | nil => exact hsound
  | cons operation rest ih => exact ih (hsound.step hallowed.1) hallowed.2

theorem sound_start {c : Community} (hkept : c.Kept location) (hmembers : c.members = []) :
    (start c).Sound location where
  kept := hkept
  aired _ _ ht := by cases ht
  alike := by
    show c.members.map Member.subscribers = []
    rw [hmembers]
    rfl
  heeds _ ha := by cases ha

/-! ## A first event -/

/-- A subscription that was added is noted. -/
theorem step_addChange {refusal : Option Error}
    {module : String} {datastore : Datastore} {xpath : Option String} {priority : UInt32}
    {options : SubscribeOptions} {callback : CallbackId} {data : Option DataId} {s : Store}
    {w : Shared} (hcheck : checkOptionalXPath xpath = .ok ())
    (hm : b.community.members[i]? = some m)
    (hplan : (m.store.addChange ⟨b.community.config, m.pipe⟩ module datastore
      { xpath, priority, options, callback, data }).run
        ((Handler.refusing refusal).answer b.community.config)
        (b.community.host, b.community.registry) = ((.ok (), s), w)) :
    b.step (.carryOut i (.addChange module datastore xpath priority options callback data)
        refusal) =
      b.subscribed i module datastore { xpath, priority, options, callback, data }
        { b.community with
          host := w.1
          registry := w.2
          members := b.community.members.set i { m with store := s } } := by
  have hperform := Community.perform_eq hm refusal (fun site s =>
    s.addChange site module datastore { xpath, priority, options, callback, data }) hplan
  simp only [step, Community.carryOut, Order.plan, Order.after, hcheck, hperform]
  rfl

/-- A member joins, and subscribes. -/
def firstSubscription : List Operation :=
  [.join 7, .carryOut 0 (.addChange "m" .running none 9 default "callback" none) none]

/-- The first subscription of all succeeds, and so there is a segment to use. -/
theorem exists_chronicle_of_first :
    ∃ file t, ((start .atStart).run firstSubscription).chronicles file = some t := by
  have hopen : Segment.openFile "sr_m.running" 0o600 Host.fresh =
      .ok (0, true) (Host.fresh.withNewFile ["sr_m.running"] (grantedMode 0o600)) := by
    with_unfolding_all rfl
  obtain ⟨segment, h', hmade, -⟩ := Segment.openSubscription_made .multi (by decide) hopen
  have hpath : Community.atStart.config.segmentPath ⟨"m", .running, none⟩ = "sr_m.running" := by
    decide +kernel
  let sub : ChangeSub := ⟨none, 9, default, "callback", none, 0, .none⟩
  have hopened : (Handler.refusing none).answer Community.atStart.config
      (.openSegment ⟨"m", .running, none⟩ .multi) (Host.fresh, Registry.empty) =
      (.ok (segment, true), (h', Registry.empty)) :=
    Store.answer_host none (attempt_of_ok (hpath ▸ hmade))
  have hadd : Leads ((Handler.refusing none).answer Community.atStart.config)
      (Store.empty.addChange ⟨Community.atStart.config, 7⟩ "m" .running sub)
      (Host.fresh, Registry.empty) fun ending _ => ending.1 = .ok () := by
    refine Leads.bind (Q := fun result _ => result = .ok segment) ?_ ?_
    · exact leads_ask hopened (leads_ask (a := .ok ()) rfl (leads_pure rfl))
    · rintro result w rfl
      exact leads_ask (Store.answer_host none rfl) (leads_pure rfl)
  obtain ⟨location, hkept⟩ := Community.atStart_isNew.kept
  have hsound := (sound_start hkept rfl).run (b := start .atStart)
    (show (start .atStart).AllowsAll firstSubscription from ⟨trivial, trivial, trivial⟩)
  have hjoined : ((start .atStart).step (.join 7)).community.members[0]? = some ⟨7, .empty⟩ := rfl
  unfold Leads at hadd
  rcases hplan : (Store.empty.addChange ⟨Community.atStart.config, 7⟩ "m" .running sub).run
    ((Handler.refusing none).answer Community.atStart.config) (Host.fresh, Registry.empty)
    with ⟨⟨result, s⟩, w⟩
  rw [hplan] at hadd
  have hresult : result = .ok () := hadd
  subst hresult
  simp only [run, firstSubscription, List.foldl] at hsound ⊢
  rw [step_addChange rfl hjoined hplan] at hsound ⊢
  obtain ⟨file, t, -, ht, -⟩ := hsound.heeds _ List.mem_cons_self _ List.mem_cons_self
  exact ⟨file, t, ht⟩

/-- Then an event is published in that segment, and the member polls. -/
def firstEvent (file : FileId) : List Operation :=
  firstSubscription ++
    [.use ⟨some file, none⟩ .multi (.publish ⟨.change, 7, 8, 9⟩ [1, 2, 3]) default default,
      .poll 0 default]

/-! ## What listeners hear -/

/-- How the listeners of a community are served, now and by the next poll. -/
structure Fair (b : Broadcast) : Prop where
  /-- The listeners are the subscribers of the members, in the same groups. -/
  subscribers : b.community.members.map Member.subscribers =
    b.audiences.map Audience.subscribers
  /-- The segments hold what was published in them last. -/
  segments : ∀ file t, b.chronicles file = some t →
    b.community.host.Channel file .multi t.cell
  /-- Every listener listens to one of these segments, and has heard of what it has
  heard of once, ... -/
  listeners : ∀ a ∈ b.audiences, ∀ x ∈ a.entries,
    (∃ file, x.1.file = some file ∧ b.chronicles file = some (b.chronicle x.1)) ∧
      x.2.Follows (b.chronicle x.1)
  /-- ... and a poll tells it what it has to be told. -/
  served : ∀ a ∈ b.audiences, ∀ x ∈ a.entries, x.2.IsServed (b.chronicle x.1)
  /-- A poll of a member succeeds, and reports what its listeners are told. -/
  polls : ∀ i a timeout, b.audiences[i]? = some a →
    (b.community.poll i timeout).1 = .ok (a.toList.flatMap b.report)

/-- A watcher who is right sees that all listeners are served. -/
theorem Sound.fair (hsound : b.Sound location) : b.Fair where
  subscribers := hsound.alike
  segments := hsound.aired
  listeners a ha x hx := by
    obtain ⟨file, t, hfile, ht, hfollows⟩ := hsound.heeds a ha x hx
    rw [chronicle_eq hfile ht]
    exact ⟨⟨file, hfile, ht⟩, hfollows⟩
  served a ha x hx := by
    obtain ⟨file, t, hfile, ht, hfollows⟩ := hsound.heeds a ha x hx
    rw [chronicle_eq hfile ht]
    exact hfollows.isServed
  polls i a timeout ha := by
    cases hm : b.community.members[i]? with
    | none =>
        have hnone := hsound.audiences_none hm
        rw [ha] at hnone
        cases hnone
    | some m =>
        obtain ⟨c', m', hpoll, -⟩ := hsound.poll_eq hm ha timeout
        rw [hpoll]

/-- **Events are heard exactly once.**  In a new community, contexts join, add and remove
subscriptions to changes, and poll, while events are published in their segments and
marked as consumed, through any handles, in any order.  Then every poll succeeds.  It
tells a subscriber about an event only if the event is of its priority and the
subscriber has not been told about it yet; and it tells everybody whom the event that a
segment shows is for, with what was published, unless as many events have been published
as there are request ids since the subscriber was told about one.  Nothing changes for
subscribers of other priorities. -/
theorem events_are_heard_once {c : Community} (hnew : c.IsNew) {operations : List Operation}
    (hallowed : (start c).AllowsAll operations) :
    ((start c).run operations).community = c.run operations ∧
      ((start c).run operations).Fair := by
  obtain ⟨location, hkept⟩ := hnew.kept
  have hsound := (sound_start hkept hnew.members).run hallowed
  exact ⟨community_run (start c) operations, hsound.fair⟩

/-- The statement where a first subscriber hears of a first event. -/
theorem events_are_heard_once_by_first :
    ∃ file, (start .atStart).AllowsAll (firstEvent file) ∧
      ((start .atStart).run (firstEvent file)).Fair := by
  obtain ⟨file, t, ht⟩ := exists_chronicle_of_first
  have hallowed : (start .atStart).AllowsAll (firstEvent file) :=
    ⟨trivial, trivial, ⟨rfl, file, t, rfl, ht⟩, trivial, trivial⟩
  exact ⟨file, hallowed, (events_are_heard_once Community.atStart_isNew hallowed).2⟩

end Broadcast

end Subscription
