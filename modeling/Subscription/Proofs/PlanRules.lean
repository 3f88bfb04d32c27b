import Subscription.Proofs.StoreRows

/-!
# What plans may count on

While a context works on its subscriptions others do too, and whoever runs its plan may
refuse what it asks for.  What the context has got so far is then what it has been
answered, and nothing else: the descriptors that it has in the registry, and the files
that it has opened (`Assets`).  A plan abides by the rules (`Plan.Abides`) when,
whatever it is answered,

* it removes a segment with a warrant only (`Warranted`): it has been told that a
  descriptor was the last one there, or it has made the file itself and the registry
  has refused the descriptor;
* it retracts nothing but what it has published;
* the subscriptions that it leaves, at the end and whenever it settles, are covered by
  what it has then (`Assets.Cover`).

One thing is believed of the answers: a descriptor that is called the last one was the
last one of this context, too (`Assets.Believes`).  Under the key of a segment that is
removed, nothing is counted on any more, whatever file may have stood there.

All orders abide by the rules (`Order.abides`), and so does removing everything
(`Store.removeAll_abides`).
-/

namespace Subscription

open scoped List

/-- A request and its answer. -/
structure Exchange where
  request : Request
  answer : request.Answer

/-- The file of a handle, and the key of the segment that it was opened as. -/
abbrev Opening := SegmentKey × Option FileId

/-- The handles of the subscriptions of a context. -/
def Store.openings (s : Store) (pipe : UInt32) : List Opening :=
  (s.rows pipe).map fun row => (row.1.key, row.2)

/-- What a context has got. -/
structure Assets where
  /-- The descriptors that it has in the registry. -/
  published : List Descriptor
  /-- The files that it has opened. -/
  opened : List Opening
  /-- The files that it had opened under a key where later none stood. -/
  lost : List Opening

/-- There is a warrant for removing a segment. -/
inductive Warranted (said : List Exchange) (key : SegmentKey) : Prop
  /-- The registry has said that a descriptor was the last one. -/
  | last (d : Descriptor) (hkey : d.key = key)
      (htold : ⟨.retract d, (.ok true : Except Error Bool)⟩ ∈ said)
  /-- The file is a new one, and the registry has refused the descriptor. -/
  | refused (d : Descriptor) (kind : HeaderKind) (segment : Segment) (e : Error)
      (hkey : d.key = key)
      (hmade : ⟨.openSegment key kind,
        (.ok (segment, true) : Except Error (Segment × Bool))⟩ ∈ said)
      (hrefused : ⟨.publish d, (.error e : Except Error Unit)⟩ ∈ said)

theorem Warranted.mono {said said' : List Exchange} {key : SegmentKey}
    (hwarranted : Warranted said key) (hsub : said ⊆ said') : Warranted said' key := by
  cases hwarranted with
  | last d hkey htold => exact .last d hkey (hsub htold)
  | refused d kind segment e hkey hmade hrefused =>
      exact .refused d kind segment e hkey (hsub hmade) (hsub hrefused)

namespace Assets

/-- What is there for a handle. -/
def Has (a : Assets) (o : Opening) : Prop := o ∈ a.opened ∨ o ∈ a.lost

/-- The subscriptions of a context are in order, and what it has is enough for them. -/
structure Cover (a : Assets) (pipe : UInt32) (s : Store) : Prop where
  published : s.descriptors pipe <+~ a.published
  has : ∀ o ∈ s.openings pipe, a.Has o
  tidy : s.Tidy

/-- What a context has after an answer. -/
def after (a : Assets) (pipe : UInt32) : (r : Request) → r.Answer → Assets
  | .openSegment key _, answer =>
      match answer with
      | .ok (segment, true) =>
          { a with
            opened := (key, segment.file) :: a.opened.filter fun o => o.1 ≠ key
            lost := (a.opened.filter fun o => o.1 = key) ++ a.lost }
      | .ok (segment, false) => { a with opened := (key, segment.file) :: a.opened }
      | .error _ => a
  | .removeSegment key, _ => { a with opened := a.opened.filter fun o => o.1 ≠ key }
  | .publish d, answer =>
      match answer with
      | .ok _ => { a with published := d :: a.published }
      | .error _ => a
  | .retract d, answer =>
      match answer with
      | .ok _ => { a with published := a.published.erase d }
      | .error _ => a
  | .settle s, _ => { a with opened := s.openings pipe }
  | .note _, _ => a

/-- What a context may ask for. -/
def Allows (a : Assets) (pipe : UInt32) (said : List Exchange) : Request → Prop
  | .removeSegment key => Warranted said key
  | .retract d => d ∈ a.published
  | .settle s => a.Cover pipe s
  | .openSegment _ _ | .publish _ | .note _ => True

/-- What is believed of an answer. -/
def Believes (a : Assets) : (r : Request) → r.Answer → Prop
  | .retract d, answer => answer = .ok true → ∀ d' ∈ a.published.erase d, d'.key ≠ d.key
  | _, _ => True

variable {a : Assets} {pipe : UInt32} {s s' : Store} {row : BookRow} {said : List Exchange}
variable {key : SegmentKey}

theorem Cover.mem_published (hcover : a.Cover pipe s) {row : BookRow} (hrow : row ∈ s.rows pipe) :
    row.1 ∈ a.published := by
  refine hcover.published.subset ?_
  rw [← Store.map_fst_rows]
  exact List.mem_map_of_mem hrow

theorem Cover.has_row (hcover : a.Cover pipe s) {row : BookRow} (hrow : row ∈ s.rows pipe) :
    a.Has (row.1.key, row.2) :=
  hcover.has _ (List.mem_map_of_mem hrow)

/-- A subscription that has been published, and that has a handle. -/
theorem Cover.gains (hcover : a.Cover pipe s) (hgains : Store.Gains pipe s s' row)
    (hhas : a.Has (row.1.key, row.2)) :
    (a.after pipe (.publish row.1) (.ok ())).Cover pipe s' where
  published := by
    rw [← Store.map_fst_rows]
    refine (hgains.rows.map Prod.fst).subperm.trans ?_
    rw [List.map_cons, Store.map_fst_rows]
    exact (List.subperm_cons _).2 hcover.published
  has o ho := by
    obtain ⟨r, hr, rfl⟩ := List.mem_map.1 ho
    rcases List.mem_cons.1 (hgains.rows.mem_iff.1 hr) with rfl | hold
    · exact hhas
    · exact hcover.has_row hold
  tidy := hgains.tidy

/-- A subscription that has been retracted. -/
theorem Cover.loses (hcover : a.Cover pipe s) (hloses : Store.Loses pipe s s' row) (last : Bool) :
    (a.after pipe (.retract row.1) (.ok last)).Cover pipe s' where
  published := by
    have hperm := (hloses.rows.map Prod.fst).subperm.trans
      (Store.map_fst_rows s pipe ▸ hcover.published)
    rw [List.map_cons, Store.map_fst_rows] at hperm
    have herased := hperm.erase row.1
    rwa [List.erase_cons_head] at herased
  has o ho := by
    obtain ⟨r, hr, rfl⟩ := List.mem_map.1 ho
    exact hcover.has_row (hloses.rows.mem_iff.1 (List.mem_cons_of_mem _ hr))
  tidy := hloses.tidy

/-- What has been opened is had, and nothing else is had any less. -/
theorem has_after_open (a : Assets) (pipe : UInt32) (key : SegmentKey) (kind : HeaderKind)
    (segment : Segment) (made : Bool) :
    (a.after pipe (.openSegment key kind) (.ok (segment, made))).Has (key, segment.file) ∧
      ∀ o, a.Has o → (a.after pipe (.openSegment key kind) (.ok (segment, made))).Has o := by
  cases made with
  | false =>
      refine ⟨.inl List.mem_cons_self, fun o ho => ?_⟩
      exact ho.imp_left (List.mem_cons_of_mem _)
  | true =>
      refine ⟨.inl List.mem_cons_self, fun o ho => ?_⟩
      rcases ho with hopened | hlost
      · by_cases hkey : o.1 = key
        · exact .inr (List.mem_append_left _ (List.mem_filter.2 ⟨hopened, by simpa using hkey⟩))
        · exact .inl (List.mem_cons_of_mem _ (List.mem_filter.2 ⟨hopened, by simpa using hkey⟩))
      · exact .inr (List.mem_append_right _ hlost)

theorem Cover.of_has (hcover : a.Cover pipe s) {a' : Assets}
    (hpublished : a'.published = a.published) (hhas : ∀ o, a.Has o → a'.Has o) :
    a'.Cover pipe s :=
  ⟨hpublished ▸ hcover.published, fun o ho => hhas o (hcover.has o ho), hcover.tidy⟩

/-- A segment goes that none of the subscriptions is about. -/
theorem has_after_remove (hhas : ∀ o ∈ s.openings pipe, a.Has o)
    (hpublished : s.descriptors pipe ⊆ a.published) (hnone : ∀ d ∈ a.published, d.key ≠ key) :
    ∀ o ∈ s.openings pipe, (a.after pipe (.removeSegment key) ()).Has o := by
  intro o ho
  refine (hhas o ho).imp_left fun hopened => List.mem_filter.2 ⟨hopened, ?_⟩
  obtain ⟨row, hrow, rfl⟩ := List.mem_map.1 ho
  have hmem : row.1 ∈ s.descriptors pipe := by
    rw [← Store.map_fst_rows]
    exact List.mem_map_of_mem hrow
  simpa using hnone row.1 (hpublished hmem)

/-- A new file goes again; handles that were there before are lost under its key. -/
theorem Cover.unmake (hcover : a.Cover pipe s) (kind : HeaderKind) (segment : Segment) :
    ((a.after pipe (.openSegment key kind) (.ok (segment, true))).after pipe
      (.removeSegment key) ()).Cover pipe s := by
  refine hcover.of_has rfl fun o ho => ?_
  rcases ho with hopened | hlost
  · by_cases hkey : o.1 = key
    · exact .inr (List.mem_append_left _ (List.mem_filter.2 ⟨hopened, by simpa using hkey⟩))
    · refine .inl (List.mem_filter.2 ⟨List.mem_cons_of_mem _ (List.mem_filter.2 ⟨hopened, ?_⟩), ?_⟩)
        <;> simpa using hkey
  · exact .inr (List.mem_append_right _ hlost)

/-- The subscriptions that are settled are what the handles are for from then on. -/
theorem Cover.settle (hcover : a.Cover pipe s) :
    (a.after pipe (.settle s) ()).Cover pipe s :=
  ⟨hcover.published, fun _ ho => .inl ho, hcover.tidy⟩

end Assets

/-! ## Abiding by the rules -/

namespace Plan

variable {α β : Type} {pipe : UInt32} {a : Assets} {said : List Exchange}

/-- A plan abides by the rules, whatever it is answered, and something holds at its end. -/
def Abides (pipe : UInt32) (Q : α → Assets → List Exchange → Prop) :
    Plan α → Assets → List Exchange → Prop
  | done result, a, said => Q result a said
  | ask r next, a, said => a.Allows pipe said r ∧ ∀ answer, a.Believes r answer →
      (next answer).Abides pipe Q (a.after pipe r answer) (said ++ [⟨r, answer⟩])

/-- A plan that abides by the rules, and leaves subscriptions that are covered. -/
def Faithful (pipe : UInt32) (p : Plan Store.Ending) (a : Assets) (said : List Exchange) : Prop :=
  p.Abides pipe (fun ending a' _ => a'.Cover pipe ending.2) a said

theorem abides_pure {Q : α → Assets → List Exchange → Prop} {x : α} (h : Q x a said) :
    (pure x : Plan α).Abides pipe Q a said := h

theorem Abides.bind {p : Plan α} {next : α → Plan β} {Q : α → Assets → List Exchange → Prop}
    {R : β → Assets → List Exchange → Prop} (hp : p.Abides pipe Q a said)
    (hnext : ∀ x a' said', Q x a' said' → (next x).Abides pipe R a' said') :
    (p >>= next).Abides pipe R a said := by
  induction p generalizing a said with
  | done x => exact hnext x a said hp
  | ask r rest ih => exact ⟨hp.1, fun answer hanswer => ih answer (hp.2 answer hanswer)⟩

/-- A plan that asks for something goes on with the answer. -/
theorem abides_ask {r : Request} {next : r.Answer → Plan β}
    {R : β → Assets → List Exchange → Prop} (hallowed : a.Allows pipe said r)
    (hnext : ∀ answer, a.Believes r answer →
      (next answer).Abides pipe R (a.after pipe r answer) (said ++ [⟨r, answer⟩])) :
    (request r >>= next).Abides pipe R a said := ⟨hallowed, hnext⟩

end Plan

/-! ## The plans of a context -/

namespace Store

open Plan

variable {pipe : UInt32} {a : Assets} {said : List Exchange} {s : Store}

/-- **Opening and publishing** leave the subscriptions covered, with the new one or
without it. -/
theorem openAndPublish_abides (hcover : a.Cover pipe s) (d : Descriptor) :
    (openAndPublish d).Abides pipe (fun result a' _ =>
      match result with
      | .ok segment => ∀ s', Gains pipe s s' (d, segment.file) → a'.Cover pipe s'
      | .error _ => a'.Cover pipe s) a said := by
  unfold openAndPublish
  refine abides_ask trivial ?_
  rintro (e | ⟨segment, made⟩) -
  · exact abides_pure hcover
  · obtain ⟨hnew, hold⟩ := a.has_after_open pipe d.key d.topic.header segment made
    have hcover' := hcover.of_has (by cases made <;> rfl) hold
    refine abides_ask trivial ?_
    rintro (e | ⟨⟩) -
    · cases made with
      | false => exact abides_pure hcover'
      | true =>
          refine abides_ask ?_ fun _ _ => abides_pure (hcover.unmake d.topic.header segment)
          exact .refused d d.topic.header segment e rfl (by simp) (by simp)
    · exact abides_pure fun s' hgains => hcover'.gains hgains hnew

/-- Publishing for a segment that is open already. -/
theorem publish_abides {α : Type} {next : Except Error Unit → Plan α}
    {R : α → Assets → List Exchange → Prop} {d : Descriptor}
    (hdone : ∀ said', (next (.ok ())).Abides pipe R (a.after pipe (.publish d) (.ok ())) said')
    (hrefused : ∀ e said', (next (.error e)).Abides pipe R a said') :
    (Plan.publish d >>= next).Abides pipe R a said := by
  refine abides_ask trivial ?_
  rintro (e | ⟨⟩) -
  · exact hrefused e _
  · exact hdone _

theorem addChange_abides (hcover : a.Cover pipe s) (cfg : Config) (module : String)
    (datastore : Datastore) (sub : ChangeSub) :
    (s.addChange ⟨cfg, pipe⟩ module datastore sub).Faithful pipe a said := by
  unfold addChange
  cases hplace : s.changes.position? (isChanges module datastore) with
  | some place =>
      obtain ⟨d, file, hrow, hkey, hgains⟩ := gains_joinChange hcover.tidy pipe hplace sub
      have hhas := hcover.has_row hrow
      rw [hkey] at hhas
      refine publish_abides (fun said' => ?_) fun e said' => abides_pure hcover
      exact abides_ask trivial fun _ _ => abides_pure (hcover.gains hgains hhas)
  | none =>
      refine (openAndPublish_abides hcover ⟨module, sub.topic datastore, pipe⟩).bind ?_
      rintro (e | segment) a' said' hresult
      · exact abides_pure hresult
      · refine abides_ask trivial fun _ _ => abides_pure (hresult _ ?_)
        exact gains_foundChange hcover.tidy pipe hplace segment sub

theorem addService_abides (hcover : a.Cover pipe s) (cfg : Config) (service : Service)
    (module xpath : String) (callback : CallbackId) (data : Option DataId) :
    (s.addService ⟨cfg, pipe⟩ service module xpath callback data).Faithful pipe a said := by
  unfold addService
  refine (openAndPublish_abides hcover ⟨module, service.topic xpath, pipe⟩).bind ?_
  rintro (e | segment) a' said' hresult
  · exact abides_pure hresult
  · refine abides_ask trivial fun _ _ => abides_pure (hresult _ ?_)
    exact gains_service hcover.tidy pipe service module ⟨xpath, callback, data, segment⟩

theorem addNotification_abides (hcover : a.Cover pipe s) (cfg : Config) (module : String)
    (sub : NotificationSub) :
    (s.addNotification ⟨cfg, pipe⟩ module sub).Faithful pipe a said := by
  unfold addNotification
  cases hplace : s.notifications.position? fun c => c.module = module with
  | some place =>
      obtain ⟨d, file, hrow, hkey, hgains⟩ := gains_joinNotification hcover.tidy pipe hplace sub
      have hhas := hcover.has_row hrow
      rw [hkey] at hhas
      refine publish_abides (fun said' => ?_) fun e said' => abides_pure hcover
      exact abides_ask trivial fun _ _ => abides_pure (hcover.gains hgains hhas)
  | none =>
      refine (openAndPublish_abides hcover ⟨module, .notifications, pipe⟩).bind ?_
      rintro (e | segment) a' said' hresult
      · exact abides_pure hresult
      · refine abides_ask trivial fun _ _ => abides_pure (hresult _ ?_)
        exact gains_foundNotification hcover.tidy pipe hplace segment sub

/-- **Retracting** leaves the subscriptions covered, without the one or with it. -/
theorem retractOne_abides (hcover : a.Cover pipe s) {d : Descriptor} {file : Option FileId}
    {without : Store} (hloses : Loses pipe s without (d, file)) :
    (s.retractOne d without).Faithful pipe a said := by
  unfold retractOne
  refine abides_ask ?_ ?_
  · exact hcover.mem_published (hloses.rows.mem_iff.1 List.mem_cons_self)
  · rintro (e | last) hbelieved
    · exact abides_pure hcover
    · have hcover' := hcover.loses hloses last
      cases last with
      | false => exact abides_pure hcover'
      | true =>
          refine abides_ask (.last d rfl (by simp)) fun _ _ => abides_pure ?_
          exact ⟨hcover'.published, Assets.has_after_remove hcover'.has
            hcover'.published.subset (hbelieved rfl), hcover'.tidy⟩

theorem removeChange_abides (hcover : a.Cover pipe s) (cfg : Config) (module : String)
    (datastore : Datastore) (sub : ChangeSub) :
    (s.removeChange ⟨cfg, pipe⟩ module datastore sub).Faithful pipe a said := by
  unfold removeChange
  cases hlocate : s.changes.locate? (isChanges module datastore)
      fun other => sameChange other sub with
  | none => exact abides_pure hcover
  | some found =>
      obtain ⟨file, hloses⟩ := loses_change hcover.tidy pipe hlocate
      exact retractOne_abides hcover hloses

theorem removeService_abides (hcover : a.Cover pipe s) (cfg : Config) (service : Service)
    (module xpath : String) (callback : CallbackId) (data : Option DataId) :
    (s.removeService ⟨cfg, pipe⟩ service module xpath callback data).Faithful pipe a said := by
  unfold removeService
  dsimp only
  cases hlocate : (s.services service).locate? (fun c => c.module = module) fun sub =>
      sub.xpath = xpath && sub.callback = callback && sub.data = data with
  | none => exact abides_pure hcover
  | some found =>
      obtain ⟨file, hloses⟩ := loses_service hcover.tidy pipe hlocate
      exact retractOne_abides hcover hloses

theorem removeNotification_abides (hcover : a.Cover pipe s) (cfg : Config) (module : String)
    (q : NotificationQuery) :
    (s.removeNotification ⟨cfg, pipe⟩ module q).Faithful pipe a said := by
  unfold removeNotification
  cases hlocate : s.notifications.locate? (fun c => c.module = module) q.isOf with
  | none => exact abides_pure hcover
  | some found =>
      obtain ⟨file, hloses⟩ := loses_notification hcover.tidy pipe hlocate
      exact retractOne_abides hcover hloses

/-! ## Removing everything -/

/-- The registry has said that nothing is left under a key. -/
def Deserted (a : Assets) (said : List Exchange) (key : SegmentKey) : Prop :=
  Warranted said key ∧ ∀ d ∈ a.published, d.key ≠ key

/-- Nothing comes back when other descriptors are retracted. -/
theorem Deserted.later {a a' : Assets} {said : List Exchange} {key : SegmentKey}
    (hdeserted : Deserted a said key) (hpublished : a'.published ⊆ a.published)
    (exchange : Exchange) : Deserted a' (said ++ [exchange]) key :=
  ⟨hdeserted.1.mono (List.subset_append_left _ _), fun d hd => hdeserted.2 d (hpublished hd)⟩

/-- **The descriptors of one segment** are retracted one by one; when one of them is called
the last one, nothing is left under the key, neither then nor after the others. -/
theorem retractBatch_abides {key : SegmentKey} (keep : List Descriptor)
    (batch : List Descriptor) (last : Bool) (failure : Option Error)
    (hkeys : ∀ d ∈ batch, d.key = key) {a : Assets} {said : List Exchange}
    (hpublished : batch ++ keep <+~ a.published)
    (hlast : last = true → Deserted a said key) :
    (retractBatch batch (last, failure)).Abides pipe (fun result a' said' =>
      (∀ o, a.Has o → a'.Has o) ∧ keep <+~ a'.published ∧
        (result.1 = true → Deserted a' said' key)) a said := by
  induction batch generalizing last failure a said with
  | nil => exact abides_pure ⟨fun _ ho => ho, hpublished, hlast⟩
  | cons d rest ih =>
      have hrest := fun x hx => hkeys x (List.mem_cons_of_mem d hx)
      unfold retractBatch
      refine abides_ask (hpublished.subset List.mem_cons_self) ?_
      rintro (e | answer) hbelieved
      · refine abides_ask trivial fun _ _ => ih _ _ hrest ?_ fun htrue => ?_
        · exact (List.sublist_cons_self d _).subperm.trans hpublished
        · exact ((hlast htrue).later (List.Subset.refl _) _).later (List.Subset.refl _) _
      · have herased := hpublished.erase d
        rw [List.cons_append, List.erase_cons_head] at herased
        refine ih (a := a.after pipe (.retract d) (.ok answer)) (last || answer) failure hrest
          herased fun htrue => ?_
        rcases (Bool.or_eq_true _ _).mp htrue with hbefore | rfl
        · exact (hlast hbefore).later (List.erase_subset) _
        · refine ⟨.last d (hkeys d List.mem_cons_self) (by simp), ?_⟩
          rw [← hkeys d List.mem_cons_self]
          exact hbelieved rfl

/-- The descriptors of several segments are retracted, one segment after the other; what
the context keeps stays covered. -/
theorem retractBatches_abides (left : Store) (htidy : left.Tidy)
    (batches : List (List Descriptor)) (failure : Option Error)
    (hkeys : ∀ batch ∈ batches, ∃ key, ∀ d ∈ batch, d.key = key) {a : Assets}
    {said : List Exchange}
    (hpublished : batches.flatten ++ left.descriptors pipe <+~ a.published)
    (hhas : ∀ o ∈ left.openings pipe, a.Has o) :
    (retractBatches batches failure).Abides pipe (fun _ a' _ => a'.Cover pipe left) a said := by
  induction batches generalizing failure a said with
  | nil => exact abides_pure ⟨hpublished, hhas, htidy⟩
  | cons batch rest ih =>
      have hrest := fun b hb => hkeys b (List.mem_cons_of_mem _ hb)
      obtain ⟨key, hkey⟩ := hkeys batch List.mem_cons_self
      rw [List.flatten_cons, List.append_assoc] at hpublished
      unfold retractBatches
      refine (retractBatch_abides _ batch false failure hkey hpublished (by simp)).bind ?_
      rintro ⟨last, failure'⟩ a' said' ⟨hkept, hpublished', hlast⟩
      have hhas' := fun o ho => hkept o (hhas o ho)
      cases batch with
      | nil => exact ih failure' hrest hpublished' hhas'
      | cons d more =>
          cases last with
          | false => exact ih failure' hrest hpublished' hhas'
          | true =>
              obtain ⟨hwarranted, hnone⟩ := hlast rfl
              rw [← hkey d List.mem_cons_self] at hwarranted hnone
              refine abides_ask hwarranted fun _ _ => ih failure' hrest hpublished' ?_
              refine Assets.has_after_remove hhas' ?_ hnone
              exact fun x hx => hpublished'.subset (List.mem_append_right _ hx)

/-- The groups are taken out one after the other; what is left then is covered each time. -/
theorem retractGroups_abides (groups : List (Store × List (List Descriptor)))
    (failure : Option Error) {s : Store} (hgroups : s.removals pipe = groups) {a : Assets}
    {said : List Exchange} (hcover : a.Cover pipe s) :
    (retractGroups groups failure).Abides pipe (fun _ _ _ => True) a said := by
  induction groups generalizing failure s a said with
  | nil => exact abides_pure trivial
  | cons g rest ih =>
      rcases removals_eq s pipe with hnone | ⟨left, batches, hfirst, hrows, htidy⟩
      · rw [hnone] at hgroups
        cases hgroups
      · have hbatches : ∀ g ∈ s.removals pipe, ∀ batch ∈ g.2,
            batch ≠ [] ∧ ∃ key, ∀ d ∈ batch, d.key = key := removals_batches hcover.tidy
        have hperm := perm_removals s pipe
        rw [hfirst] at hgroups hbatches hperm
        obtain ⟨rfl, rfl⟩ := List.cons.inj hgroups
        have hpublished : batches.flatten ++ left.descriptors pipe <+~ a.published := by
          refine List.Subperm.trans ?_ hcover.published
          exact (((perm_removals left pipe).symm.append_left _).trans hperm).subperm
        have hleft : a.Cover pipe left := by
          refine ⟨?_, ?_, htidy hcover.tidy⟩
          · exact (List.sublist_append_right _ _).subperm.trans hpublished
          · exact fun o ho => hcover.has o ((hrows.map _).subset ho)
        unfold retractGroups
        refine abides_ask hleft fun _ _ => ?_
        refine (retractBatches_abides (a := a.after pipe (.settle left) ()) left hleft.tidy
          batches failure ?_ hpublished hleft.settle.has).bind
            fun failure' a' said' hcover' => ih _ rfl hcover'
        exact fun batch hbatch => (hbatches _ List.mem_cons_self batch hbatch).2

theorem cover_empty (a : Assets) (pipe : UInt32) : a.Cover pipe empty :=
  ⟨List.nil_subperm, fun _ ho => absurd ho (by simp [openings, rows_empty]), tidy_empty⟩

/-- **Removing everything** abides by the rules. -/
theorem removeAll_abides (hcover : a.Cover pipe s) (cfg : Config) :
    (s.removeAll ⟨cfg, pipe⟩).Faithful pipe a said := by
  unfold removeAll
  refine (retractGroups_abides _ none rfl hcover).bind ?_
  rintro (_ | e) a' said' -
  · exact abides_pure (cover_empty a' pipe)
  · exact abides_pure (cover_empty a' pipe)

end Store

/-- **Every order** abides by the rules. -/
theorem Order.abides {cfg : Config} {order : Order} {work : Order.Work}
    (hplan : order.plan = .ok work) {pipe : UInt32} {s : Store} {a : Assets}
    {said : List Exchange} (hcover : a.Cover pipe s) :
    (work ⟨cfg, pipe⟩ s).Faithful pipe a said := by
  exact Order.work_induction (P := fun work => (work ⟨cfg, pipe⟩ s).Faithful pipe a said)
    (fun _ _ _ => Store.addChange_abides hcover _ _ _ _)
    (fun _ _ _ => Store.removeChange_abides hcover _ _ _ _)
    (fun _ _ _ _ _ => Store.addService_abides hcover _ _ _ _ _ _)
    (fun _ _ _ _ _ => Store.removeService_abides hcover _ _ _ _ _ _)
    (fun _ _ => Store.addNotification_abides hcover _ _ _)
    (fun _ _ => Store.removeNotification_abides hcover _ _ _) hplan

end Subscription
