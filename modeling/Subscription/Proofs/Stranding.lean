import Mathlib.Data.List.Induction
import Subscription.Proofs.Agreement
import Subscription.Proofs.Workshop

/-!
# Subscribers that are left behind

A subscriber listens on the file that it has opened, and a publisher writes to the file
that it finds at the path of the segment.  These are the same file unless it has been
removed in between, and the file is found there no more once it has been.

While contexts work at the same time, this happens in one way and no other
(`Workshop.reached_iff_not_robbed`): some other context removes the segment while the
subscriber has it open already (`Workshop.Robs`).  It does so with a warrant: the
registry has told it that its descriptor was the last one, before the subscriber was
published; or the file is one that it has made itself, and its own descriptor has been
refused.

What a context removes on its own account is never what one of its subscribers listens
on: this is what plans abide by (`Plan.Faithful`).  So every context has what it takes
to cover its subscriptions (`Worker.Keeps`), whatever the others do, and each of its
handles is on the file that is found there or has been taken away
(`Workshop.Kept`).  Every move keeps it so (`Workshop.Kept.step`).
-/

namespace Subscription

open scoped List
open Plan

/-! ## What answers do to the segment directory -/

/-- The segment directory: nothing but files lies in it, under names that can be spoken
of, and each of them is one that has been made. -/
structure Host.Drawer (directory : String) (location : Location) (h : Host) : Prop where
  shelf : h.disk.IsShelf directory location
  speakable : ∀ key, (h.disk.standing directory key).isSome = true →
    Path.hasNul (Path.join directory key.name) = false
  made : ∀ key file, h.disk.standing directory key = some file → file < h.disk.files.length

/-- A handle that comes with an answer is on the file that stands there. -/
def Granted (directory : String) (w : Shared) : (r : Request) → r.Answer × Shared → Prop
  | .openSegment key _, (answer, w') => ∀ segment made, answer = .ok (segment, made) →
      ∃ file, segment.file = some file ∧ w'.1.disk.standing directory key = some file ∧
        (made = true → w.1.disk.standing directory key = none)
  | _, _ => True

/-- What an answer may do to the files that stand in the directory: new ones appear, and
one goes that is to be removed. -/
structure Served (directory : String) (location : Location) (w : Shared) (r : Request)
    (x : r.Answer × Shared) : Prop where
  drawer : x.2.1.Drawer directory location
  grows : w.1.disk.files.length ≤ x.2.1.disk.files.length
  stays : ∀ key file, w.1.disk.standing directory key = some file → r ≠ .removeSegment key →
    x.2.1.disk.standing directory key = some file
  fresh : ∀ key file, x.2.1.disk.standing directory key = some file →
    w.1.disk.standing directory key = some file ∨ w.1.disk.files.length ≤ file
  removed : ∀ key, r = .removeSegment key → x.2.1.disk.standing directory key = none
  granted : Granted directory w r x

section Answers

variable {directory : String} {location : Location} {w : Shared} {cfg : Config}
variable {refusal : Option Error}

/-- Where no name changes, everything stands as it did. -/
theorem Host.Drawer.congr {h h' : Host} (hdrawer : h.Drawer directory location)
    (hentries : h'.disk.entries = h.disk.entries)
    (hcount : h'.disk.files.length = h.disk.files.length) :
    h'.Drawer directory location ∧ h'.disk.standing directory = h.disk.standing directory := by
  obtain ⟨hshelf, hstanding⟩ := hdrawer.shelf.congr hentries
  refine ⟨⟨hshelf, ?_, ?_⟩, hstanding⟩
  · rw [hstanding]
    exact hdrawer.speakable
  · rw [hstanding, hcount]
    exact hdrawer.made

/-- An answer that changes no name. -/
theorem served_of_entries {r : Request} {x : r.Answer × Shared}
    (hdrawer : w.1.Drawer directory location)
    (hentries : x.2.1.disk.entries = w.1.disk.entries)
    (hcount : x.2.1.disk.files.length = w.1.disk.files.length)
    (hremoved : ∀ key, r = .removeSegment key → w.1.disk.standing directory key = none)
    (hgranted : Granted directory w r x) : Served directory location w r x := by
  obtain ⟨hdrawer', hstanding⟩ := hdrawer.congr hentries hcount
  refine ⟨hdrawer', Nat.le_of_eq hcount.symm, ?_, ?_, ?_, hgranted⟩
  · intro key file hfile _
    rw [hstanding, hfile]
  · intro key file hfile
    rw [hstanding] at hfile
    exact .inl hfile
  · intro key hkey
    rw [hstanding, hremoved key hkey]

/-- An answer that changes what stands under one key: a file that is new, or none. -/
theorem served_of_update {r : Request} {x : r.Answer × Shared} {key : SegmentKey}
    {entry : Option FileId} (hdrawer : w.1.Drawer directory location)
    (hshelf : x.2.1.disk.IsShelf directory location)
    (hupdate : x.2.1.disk.standing directory =
      Function.update (w.1.disk.standing directory) key entry)
    (hgrows : w.1.disk.files.length ≤ x.2.1.disk.files.length)
    (hentry : ∀ file, entry = some file → Path.hasNul (Path.join directory key.name) = false ∧
      w.1.disk.files.length ≤ file ∧ file < x.2.1.disk.files.length)
    (hstays : w.1.disk.standing directory key = none ∨ r = .removeSegment key)
    (hremoved : ∀ k, r = .removeSegment k → k = key ∧ entry = none)
    (hgranted : Granted directory w r x) : Served directory location w r x := by
  have hhere : x.2.1.disk.standing directory key = entry := by
    rw [hupdate, Function.update_self]
  have hother : ∀ k, k ≠ key →
      x.2.1.disk.standing directory k = w.1.disk.standing directory k := by
    intro k hk
    rw [hupdate, Function.update_of_ne hk]
  refine ⟨⟨hshelf, ?_, ?_⟩, hgrows, ?_, ?_, ?_, hgranted⟩
  · intro k hk
    obtain ⟨file, hfile⟩ := Option.isSome_iff_exists.1 hk
    by_cases hsame : k = key
    · subst hsame
      exact (hentry file (hhere ▸ hfile)).1
    · rw [hother k hsame] at hk
      exact hdrawer.speakable k hk
  · intro k file hfile
    by_cases hsame : k = key
    · subst hsame
      exact (hentry file (hhere ▸ hfile)).2.2
    · rw [hother k hsame] at hfile
      exact Nat.lt_of_lt_of_le (hdrawer.made k file hfile) hgrows
  · intro k file hfile hkept
    have hne : k ≠ key := by
      rintro rfl
      rcases hstays with hnone | hremoves
      · simp [hnone] at hfile
      · exact hkept hremoves
    exact (hother k hne).trans hfile
  · intro k file hfile
    by_cases hsame : k = key
    · subst hsame
      exact .inr (hentry file (hhere ▸ hfile)).2.1
    · exact .inl ((hother k hsame).symm.trans hfile)
  · intro k hremoves
    obtain ⟨rfl, rfl⟩ := hremoved k hremoves
    exact hhere

/-- Opening a segment. -/
theorem served_openSegment (hdrawer : w.1.Drawer cfg.segmentDir location) (key : SegmentKey)
    (kind : HeaderKind) :
    Served cfg.segmentDir location w (.openSegment key kind)
      ((Handler.refusing refusal).answer cfg (.openSegment key kind) w) := by
  rcases Segment.openSubscription_shelf hdrawer.shelf key kind cfg.mode.toNat with
    ⟨s, h', hopen, hfile, hnul, hfree, hmade, hshelf, hupdate⟩ |
    ⟨file, s, h', hopen, hfile, hstanding, hfound⟩ | ⟨e, h', hopen, huntouched⟩
  · rw [show (Handler.refusing refusal).answer cfg (.openSegment key kind) w = _ from
      Store.answer_host refusal (attempt_of_ok hopen)]
    have hcount : h'.disk.files.length = w.1.disk.files.length + 1 := hmade.count
    refine served_of_update hdrawer hshelf hupdate ?_ ?_ (.inl hfree) nofun ?_
    · show _ ≤ h'.disk.files.length
      rw [hcount]
      exact Nat.le_succ _
    · rintro file ⟨⟩
      refine ⟨hnul, Nat.le_refl _, ?_⟩
      show _ < h'.disk.files.length
      rw [hcount]
      exact Nat.lt_succ_self _
    · intro segment made hanswer
      cases hanswer
      refine ⟨_, hfile, ?_, fun _ => hfree⟩
      show h'.disk.standing cfg.segmentDir key = _
      rw [hupdate, Function.update_self]
  · rw [show (Handler.refusing refusal).answer cfg (.openSegment key kind) w = _ from
      Store.answer_host refusal (attempt_of_ok hopen)]
    refine served_of_entries hdrawer hfound.only.entries hfound.only.count nofun ?_
    intro segment made hanswer
    cases hanswer
    obtain ⟨-, hsame⟩ := hdrawer.congr hfound.only.entries hfound.only.count
    refine ⟨file, hfile, ?_, nofun⟩
    show h'.disk.standing cfg.segmentDir key = some file
    rw [hsame, hstanding]
  · rw [show (Handler.refusing refusal).answer cfg (.openSegment key kind) w = _ from
      Store.answer_host refusal (attempt_of_error hopen)]
    exact served_of_entries hdrawer huntouched.entries huntouched.count nofun nofun

/-- Removing a segment. -/
theorem served_removeSegment (hdrawer : w.1.Drawer cfg.segmentDir location) (key : SegmentKey) :
    Served cfg.segmentDir location w (.removeSegment key)
      ((Handler.refusing refusal).answer cfg (.removeSegment key) w) := by
  cases hstanding : w.1.disk.standing cfg.segmentDir key with
  | none =>
      obtain ⟨h', hremove, hdisk, -, -⟩ :=
        Segment.removeQuietly_absent (ε := Empty) hdrawer.shelf hstanding
      rw [show (Handler.refusing refusal).answer cfg (.removeSegment key) w = _ from
        Store.answer_host refusal hremove]
      refine served_of_entries hdrawer (by rw [hdisk]) (by rw [hdisk]) ?_ trivial
      rintro _ ⟨⟩
      exact hstanding
  | some file =>
      obtain ⟨h', hremove, hfiles, -, -, hshelf, hupdate⟩ := Segment.removeQuietly_shelf
        (ε := Empty) hdrawer.shelf hstanding (hdrawer.speakable key (by rw [hstanding]; rfl))
      rw [show (Handler.refusing refusal).answer cfg (.removeSegment key) w = _ from
        Store.answer_host refusal hremove]
      refine served_of_update hdrawer hshelf hupdate (Nat.le_of_eq (by rw [hfiles])) nofun (.inr rfl)
        ?_ trivial
      rintro _ ⟨⟩
      exact ⟨rfl, rfl⟩

/-- **How requests change the segment directory.** -/
theorem served (hdrawer : w.1.Drawer cfg.segmentDir location) (refusal : Option Error)
    (r : Request) :
    Served cfg.segmentDir location w r ((Handler.refusing refusal).answer cfg r w) := by
  cases r with
  | openSegment key kind => exact served_openSegment hdrawer key kind
  | removeSegment key => exact served_removeSegment hdrawer key
  | publish d =>
      rcases Store.answer_publish cfg refusal w d with hanswer | ⟨e, hanswer⟩ <;>
        · rw [hanswer]
          exact served_of_entries hdrawer rfl rfl (by simp) trivial
  | retract d =>
      have hhost : ((Handler.refusing refusal).answer cfg (.retract d) w).2.1 = w.1 := by
        cases refusal with
        | some e => rfl
        | none =>
            simp only [Handler.answer, Handler.refusing, Handler.shared]
            split <;> rfl
      refine served_of_entries hdrawer (by rw [hhost]) (by rw [hhost]) (by simp) trivial
  | note line =>
      rw [show (Handler.refusing refusal).answer cfg (.note line) w = _ from
        Store.answer_host refusal rfl]
      exact served_of_entries hdrawer rfl rfl (by simp) trivial
  | settle s =>
      cases refusal <;> exact served_of_entries hdrawer rfl rfl (by simp) trivial

/-! ## What answers do to the registry -/

/-- **How requests change the registry:** it goes on having what this context has, besides
what the others have, and what it says of last descriptors can be believed. -/
theorem registered {a : Assets} {pipe : UInt32} {said : List Exchange}
    {others : List Descriptor} (cfg : Config) (hordered : w.2.InOrder)
    (hpublished : a.published ++ others <+~ w.2.all) (refusal : Option Error) (r : Request)
    (hallowed : a.Allows pipe said r) :
    ((Handler.refusing refusal).answer cfg r w).2.2.InOrder ∧
      (a.after pipe r ((Handler.refusing refusal).answer cfg r w).1).published ++ others <+~
        ((Handler.refusing refusal).answer cfg r w).2.2.all ∧
      a.Believes r ((Handler.refusing refusal).answer cfg r w).1 := by
  have hhost : ∀ {α : Type} (act : HostM Empty α),
      ((Handler.refusing refusal).host act w).2.2 = w.2 := by
    intro α act
    cases hact : act w.1 with
    | ok b h' => rw [Store.answer_host refusal hact]
    | error e h' => exact e.elim
  cases r with
  | openSegment key kind =>
      have hsame : ((Handler.refusing refusal).answer cfg (.openSegment key kind) w).2.2 = w.2 :=
        hhost _
      rw [hsame]
      refine ⟨hordered, ?_, trivial⟩
      rcases ((Handler.refusing refusal).answer cfg (.openSegment key kind) w).1 with
        e | ⟨segment, _ | _⟩ <;> exact hpublished
  | removeSegment key =>
      have hsame : ((Handler.refusing refusal).answer cfg (.removeSegment key) w).2.2 = w.2 :=
        hhost _
      rw [hsame]
      exact ⟨hordered, hpublished, trivial⟩
  | publish d =>
      rcases Store.answer_publish cfg refusal w d with hanswer | ⟨e, hanswer⟩
      · rw [hanswer]
        obtain ⟨hordered', hall⟩ := Registry.publish_all hordered d
        exact ⟨hordered', ((List.subperm_cons d).2 hpublished).trans hall.symm.subperm, trivial⟩
      · rw [hanswer]
        exact ⟨hordered, hpublished, trivial⟩
  | retract d =>
      have hmem : d ∈ w.2.all := hpublished.subset (List.mem_append_left _ hallowed)
      obtain ⟨last, r', hretract, hordered', hall, hlast⟩ := Registry.retract_all hordered hmem
      rcases Store.answer_retract hretract cfg refusal with hanswer | ⟨-, e, hanswer⟩
      · rw [hanswer]
        have herased := hpublished.erase d
        rw [List.erase_append_left _ hallowed] at herased
        have hrest := (hall.symm.erase d).subperm
        rw [List.erase_cons_head] at hrest
        refine ⟨hordered', herased.trans hrest, fun htold d' hd' => ?_⟩
        refine hlast.1 (Except.ok.inj htold) d' ?_
        exact (herased.trans hrest).subset (List.mem_append_left _ hd')
      · rw [hanswer]
        exact ⟨hordered, hpublished, nofun⟩
  | note line =>
      have hsame : ((Handler.refusing refusal).answer cfg (.note line) w).2.2 = w.2 := hhost _
      rw [hsame]
      exact ⟨hordered, hpublished, trivial⟩
  | settle s => cases refusal <;> exact ⟨hordered, hpublished, trivial⟩

/-- What a context has open after an answer: what has just been opened is found there, and
what is removed is not counted on. -/
theorem opened_after {a : Assets} {pipe : UInt32} {said : List Exchange} {r : Request}
    {x : r.Answer × Shared} (hgranted : Granted directory w r x)
    (hallowed : a.Allows pipe said r) {o : Opening} (ho : o ∈ (a.after pipe r x.1).opened) :
    (a.Has o ∧ r ≠ .removeSegment o.1) ∨
      ∃ file, o.2 = some file ∧ x.2.1.disk.standing directory o.1 = some file := by
  obtain ⟨answer, w'⟩ := x
  cases r with
  | openSegment key kind =>
      rcases answer with e | ⟨segment, made⟩
      · exact .inl ⟨.inl ho, nofun⟩
      · have hcases : o = (key, segment.file) ∨ o ∈ a.opened := by
          cases made with
          | false => exact List.mem_cons.1 ho
          | true => exact (List.mem_cons.1 ho).imp_right List.mem_of_mem_filter
        rcases hcases with rfl | hold
        · obtain ⟨file, hfile, hstanding, -⟩ := hgranted segment made rfl
          exact .inr ⟨file, hfile, hstanding⟩
        · exact .inl ⟨.inl hold, nofun⟩
  | removeSegment key =>
      obtain ⟨hold, hne⟩ := List.mem_filter.1 ho
      refine .inl ⟨.inl hold, fun hsame => ?_⟩
      cases hsame
      simp at hne
  | publish d => cases answer <;> exact .inl ⟨.inl ho, nofun⟩
  | retract d => cases answer <;> exact .inl ⟨.inl ho, nofun⟩
  | note line => exact .inl ⟨.inl ho, nofun⟩
  | settle s => exact .inl ⟨hallowed.has o ho, nofun⟩

/-- What is lost with an answer is what was open where nothing stood. -/
theorem lost_after {a : Assets} {pipe : UInt32} {r : Request} {x : r.Answer × Shared}
    (hgranted : Granted directory w r x) {o : Opening} (ho : o ∈ (a.after pipe r x.1).lost) :
    o ∈ a.lost ∨ o ∈ a.opened ∧ w.1.disk.standing directory o.1 = none := by
  obtain ⟨answer, w'⟩ := x
  cases r with
  | openSegment key kind =>
      rcases answer with e | ⟨segment, _ | _⟩
      · exact .inl ho
      · exact .inl ho
      · rcases List.mem_append.1 ho with hnew | hold
        · obtain ⟨hopened, hkey⟩ := List.mem_filter.1 hnew
          obtain ⟨-, -, -, hfree⟩ := hgranted segment true rfl
          have hsame : o.1 = key := by simpa using hkey
          exact .inr ⟨hopened, hsame ▸ hfree rfl⟩
        · exact .inl hold
  | publish d => cases answer <;> exact .inl ho
  | retract d => cases answer <;> exact .inl ho
  | removeSegment key => exact .inl ho
  | note line => exact .inl ho
  | settle s => exact .inl ho

end Answers

/-! ## What a context has open -/

namespace Worker

/-- A context has a file open as the segment with a key: one of its subscriptions has it,
or the operation that it is about has opened it. -/
def HasOpen (w : Worker) (key : SegmentKey) (file : FileId) : Prop :=
  (key, some file) ∈ w.store.openings w.pipe ∨
    ∃ t, w.task = some t ∧ ∃ kind segment made, segment.file = some file ∧
      ⟨.openSegment key kind, (.ok (segment, made) : Except Error (Segment × Bool))⟩ ∈ t.said

/-- A context has what it takes for its subscriptions, and, when it is at work, goes on
abiding by the rules. -/
structure Keeps (w : Worker) (a : Assets) : Prop where
  faithful : match w.task with
    | none => a.Cover w.pipe w.store
    | some t => t.rest.Faithful w.pipe a t.said
  handles : ∀ key file, (key, some file) ∈ a.opened → w.HasOpen key file

variable {m : Member} {a : Assets} {said : List Exchange}

/-- An operation begins. -/
theorem Keeps.begin {work : Plan Store.Ending} (hkeeps : Keeps ⟨m, none⟩ a)
    (hfaithful : work.Faithful m.pipe a []) : Keeps ⟨m, some ⟨[], work⟩⟩ a where
  faithful := hfaithful
  handles key file ho := by
    rcases hkeeps.handles key file ho with hstore | ⟨t, ht, -⟩
    · exact .inl hstore
    · cases ht

/-- An operation returns. -/
theorem Keeps.finish {ending : Store.Ending} (hkeeps : Keeps ⟨m, some ⟨said, .done ending⟩⟩ a) :
    Keeps ⟨{ m with store := ending.2 }, none⟩ (a.after m.pipe (.settle ending.2) ()) where
  faithful := Assets.Cover.settle hkeeps.faithful
  handles _ _ ho := .inl ho

/-- An operation goes on. -/
theorem Keeps.answer {r : Request} {next : r.Answer → Plan Store.Ending}
    (hkeeps : Keeps ⟨m, some ⟨said, .ask r next⟩⟩ a) {answer : r.Answer}
    (hbelieved : a.Believes r answer) :
    Keeps ⟨{ m with store := r.settled m.store }, some ⟨said ++ [⟨r, answer⟩], next answer⟩⟩
      (a.after m.pipe r answer) where
  faithful := hkeeps.faithful.2 answer hbelieved
  handles key file ho := by
    have hbefore : r.settled m.store = m.store → (key, some file) ∈ a.opened →
        HasOpen ⟨{ m with store := r.settled m.store },
          some ⟨said ++ [⟨r, answer⟩], next answer⟩⟩ key file := by
      intro hsame hopened
      rcases hkeeps.handles key file hopened with
        hstore | ⟨t, ht, kind, segment, made, hfile, hsaid⟩
      · refine .inl ?_
        show _ ∈ (r.settled m.store).openings m.pipe
        rw [hsame]
        exact hstore
      · cases ht
        exact .inr ⟨_, rfl, kind, segment, made, hfile, List.mem_append_left _ hsaid⟩
    cases r with
    | openSegment k kind =>
        rcases answer with e | ⟨segment, made⟩
        · exact hbefore rfl ho
        · have hcases : (key, some file) = (k, segment.file) ∨ (key, some file) ∈ a.opened := by
            cases made with
            | false => exact List.mem_cons.1 ho
            | true => exact (List.mem_cons.1 ho).imp_right List.mem_of_mem_filter
          rcases hcases with hnew | hold
          · obtain ⟨rfl, hfile⟩ := Prod.mk.inj hnew
            exact .inr ⟨_, rfl, kind, segment, made, hfile.symm, by simp⟩
          · exact hbefore rfl hold
    | removeSegment k => exact hbefore rfl (List.mem_of_mem_filter ho)
    | publish d => cases answer <;> exact hbefore rfl ho
    | retract d => cases answer <;> exact hbefore rfl ho
    | note line => exact hbefore rfl ho
    | settle s => exact .inl ho

end Worker

/-! ## Segments that are taken away -/

namespace Workshop

/-- When it goes on, one context takes a segment away from another one: it has a warrant
for removing the segment and is about to do so, and the file that is found there is one
that the other one has open. -/
structure Robs (c : Workshop) (thief victim : Nat) (key : SegmentKey) (file : FileId) : Prop where
  other : thief ≠ victim
  removes : ∃ m said next,
    c.workers[thief]? = some ⟨m, some ⟨said, .ask (.removeSegment key) next⟩⟩ ∧
      Warranted said key
  found : c.found key = some file
  opened : ∃ v, c.workers[victim]? = some v ∧ v.HasOpen key file

/-- In the course of some moves, a segment has been taken away from a context. -/
def Robbed (c : Workshop) (moves : List Move) (victim : Nat) (key : SegmentKey)
    (file : FileId) : Prop :=
  ∃ before thief refusal after, moves = before ++ .advance thief refusal :: after ∧
    (c.run before).Robs thief victim key file

/-- Every context has what it takes for its subscriptions, and each of its handles is on
the file that is found there, or has been taken away. -/
structure Kept (location : Location) (Gone : Nat → SegmentKey → FileId → Prop)
    (crew : List (Worker × Assets)) (c : Workshop) : Prop where
  workers : crew.map Prod.fst = c.workers
  drawer : c.host.Drawer c.config.segmentDir location
  ordered : c.registry.InOrder
  /-- The registry has all that the contexts have published. -/
  published : crew.flatMap (fun x => x.2.published) <+~ c.registry.all
  keeps : ∀ x ∈ crew, x.1.Keeps x.2
  /-- What has been taken away is found no more. -/
  gone : ∀ i key file, Gone i key file →
    file < c.host.disk.files.length ∧ c.found key ≠ some file
  opened : ∀ i x, crew[i]? = some x → ∀ o ∈ x.2.opened,
    ∃ file, o.2 = some file ∧ (c.found o.1 = some file ∨ Gone i o.1 file)
  lost : ∀ i x, crew[i]? = some x → ∀ o ∈ x.2.lost, ∃ file, o.2 = some file ∧ Gone i o.1 file

variable {c : Workshop} {location : Location} {Gone : Nat → SegmentKey → FileId → Prop}
variable {crew : List (Worker × Assets)} {i : Nat} {m : Member}

theorem Kept.exists_assets (hkept : Kept location Gone crew c) {w : Worker}
    (hw : c.workers[i]? = some w) : ∃ a, crew[i]? = some (w, a) := by
  rw [← hkept.workers, List.getElem?_map] at hw
  obtain ⟨⟨w', a⟩, hcrew, rfl⟩ := Option.map_eq_some_iff.1 hw
  exact ⟨a, hcrew⟩

/-- What covers a subscription tells where its handle is. -/
theorem Kept.reaches (hkept : Kept location Gone crew c) {x : Worker × Assets}
    (hx : crew[i]? = some x) {o : Opening} (hhas : x.2.Has o) :
    ∃ file, o.2 = some file ∧ (c.found o.1 = some file ∨ Gone i o.1 file) := by
  rcases hhas with hopened | hlost
  · exact hkept.opened i x hx o hopened
  · obtain ⟨file, hfile, hgone⟩ := hkept.lost i x hx o hlost
    exact ⟨file, hfile, .inr hgone⟩

/-- One context is replaced; nothing else happens. -/
theorem Kept.set (hkept : Kept location Gone crew c) {w : Worker} {a : Assets}
    (hx : crew[i]? = some (w, a)) {w' : Worker} {a' : Assets} (hkeeps : w'.Keeps a')
    (hpublished : a'.published = a.published) (hopened : ∀ o ∈ a'.opened, a.Has o)
    (hlost : a'.lost = a.lost) :
    Kept location Gone (crew.set i (w', a')) { c with workers := c.workers.set i w' } where
  workers := by rw [List.map_set, hkept.workers]
  drawer := hkept.drawer
  ordered := hkept.ordered
  published := by
    obtain ⟨others, hperm, hset, -⟩ := exists_others (fun x : Worker × Assets => x.2.published) hx
    refine ((hset (w', a')).trans ?_).subperm.trans hkept.published
    rw [hpublished]
    exact hperm.symm
  keeps x hmem := by
    rcases List.mem_or_eq_of_mem_set hmem with hold | rfl
    · exact hkept.keeps x hold
    · exact hkeeps
  gone := hkept.gone
  opened := forall_set hx (fun o ho => hkept.reaches hx (hopened o ho))
    fun j x _ hj => hkept.opened j x hj
  lost := forall_set hx (fun o ho => hkept.lost i _ hx o (hlost ▸ ho))
    fun j x _ hj => hkept.lost j x hj

/-- A context begins with work that abides by the rules. -/
theorem Kept.assign (hkept : Kept location Gone crew c) (i : Nat) {work : Order.Work}
    (hwork : ∀ (m : Member) (a : Assets), a.Cover m.pipe m.store →
      (work ⟨c.config, m.pipe⟩ m.store).Faithful m.pipe a []) :
    ∃ crew', Kept location Gone crew' (c.assign i work) := by
  unfold Workshop.assign
  split
  · rename_i m hw
    obtain ⟨a, hx⟩ := hkept.exists_assets hw
    have hkeeps := hkept.keeps _ (List.mem_of_getElem? hx)
    exact ⟨_, hkept.set hx (hkeeps.begin (hwork m a hkeeps.faithful)) rfl
      (fun _ ho => .inl ho) rfl⟩
  · exact ⟨crew, hkept⟩

/-- An operation returns. -/
theorem Kept.finish (hkept : Kept location Gone crew c) {said : List Exchange}
    {ending : Store.Ending} (hw : c.workers[i]? = some ⟨m, some ⟨said, .done ending⟩⟩) :
    ∃ crew', Kept location Gone crew'
      { c with workers := c.workers.set i ⟨{ m with store := ending.2 }, none⟩ } := by
  obtain ⟨a, hx⟩ := hkept.exists_assets hw
  have hkeeps := hkept.keeps _ (List.mem_of_getElem? hx)
  have hcover : a.Cover m.pipe ending.2 := hkeeps.faithful
  exact ⟨_, hkept.set hx hkeeps.finish rfl hcover.has rfl⟩

section Answer

variable {said : List Exchange} {r : Request} {next : r.Answer → Plan Store.Ending}
variable {x : r.Answer × Shared} {a : Assets}

/-- What has been taken away, be it before or now, is found no more. -/
theorem Kept.gone_after (hkept : Kept location Gone crew c)
    (hw : c.workers[i]? = some ⟨m, some ⟨said, .ask r next⟩⟩)
    (hserved : Served c.config.segmentDir location (c.host, c.registry) r x) {victim : Nat}
    {key : SegmentKey} {file : FileId}
    (hgone : Gone victim key file ∨ c.Robs i victim key file) :
    file < x.2.1.disk.files.length ∧ x.2.1.disk.standing c.config.segmentDir key ≠ some file := by
  rcases hgone with hgone | hrobs
  · obtain ⟨hlt, hne⟩ := hkept.gone victim key file hgone
    refine ⟨Nat.lt_of_lt_of_le hlt hserved.grows, fun hfound => ?_⟩
    rcases hserved.fresh key file hfound with hold | hnew
    · exact hne hold
    · exact absurd hlt (Nat.not_lt.2 hnew)
  · refine ⟨Nat.lt_of_lt_of_le (hkept.drawer.made key file hrobs.found) hserved.grows, ?_⟩
    obtain ⟨m', said', next', hthief, -⟩ := hrobs.removes
    rw [hw] at hthief
    cases hthief
    rw [hserved.removed key rfl]
    exact nofun

/-- The handles of the context that has been answered are on what is found there; it has no
handle any more on what it has removed. -/
theorem Kept.opened_here (hkept : Kept location Gone crew c) {w : Worker}
    (hx : crew[i]? = some (w, a))
    (hserved : Served c.config.segmentDir location (c.host, c.registry) r x)
    (hallowed : a.Allows w.pipe said r) {o : Opening}
    (ho : o ∈ (a.after w.pipe r x.1).opened) :
    ∃ file, o.2 = some file ∧
      (x.2.1.disk.standing c.config.segmentDir o.1 = some file ∨ Gone i o.1 file) := by
  rcases opened_after hserved.granted hallowed ho with ⟨hhas, hr⟩ | ⟨file, hfile, hfound⟩
  · obtain ⟨file, hfile, hfound | hgone⟩ := hkept.reaches hx hhas
    · exact ⟨file, hfile, .inl (hserved.stays _ _ hfound hr)⟩
    · exact ⟨file, hfile, .inr hgone⟩
  · exact ⟨file, hfile, .inl hfound⟩

theorem Kept.lost_here (hkept : Kept location Gone crew c) {w : Worker}
    (hx : crew[i]? = some (w, a))
    (hserved : Served c.config.segmentDir location (c.host, c.registry) r x) {o : Opening}
    (ho : o ∈ (a.after w.pipe r x.1).lost) : ∃ file, o.2 = some file ∧ Gone i o.1 file := by
  rcases lost_after hserved.granted ho with hold | ⟨hopened, hfree⟩
  · exact hkept.lost i _ hx o hold
  · -- What was open there is gone already, since nothing stands there.
    obtain ⟨file, hfile, hfound | hgone⟩ := hkept.opened i _ hx o hopened
    · cases hfree.symm.trans hfound
    · exact ⟨file, hfile, hgone⟩

/-- The handles of other contexts are where they were, except for those that the context
robs them of. -/
theorem Kept.opened_elsewhere (hkept : Kept location Gone crew c)
    (hw : c.workers[i]? = some ⟨m, some ⟨said, .ask r next⟩⟩)
    (hserved : Served c.config.segmentDir location (c.host, c.registry) r x)
    (hallowed : a.Allows m.pipe said r) {j : Nat} {y : Worker × Assets} (hij : i ≠ j)
    (hy : crew[j]? = some y) {o : Opening} (ho : o ∈ y.2.opened) :
    ∃ file, o.2 = some file ∧ (x.2.1.disk.standing c.config.segmentDir o.1 = some file ∨
      (Gone j o.1 file ∨ c.Robs i j o.1 file)) := by
  obtain ⟨file, hfile, hfound | hgone⟩ := hkept.opened j y hy o ho
  · by_cases hr : r = .removeSegment o.1
    · subst hr
      have hworker : c.workers[j]? = some y.1 := by
        rw [← hkept.workers, List.getElem?_map, hy]
        rfl
      have hopen : y.1.HasOpen o.1 file := by
        refine (hkept.keeps y (List.mem_of_getElem? hy)).handles o.1 file ?_
        rw [← hfile]
        exact ho
      exact ⟨file, hfile,
        .inr (.inr ⟨hij, ⟨m, said, next, hw, hallowed⟩, hfound, y.1, hworker, hopen⟩)⟩
    · exact ⟨file, hfile, .inl (hserved.stays _ _ hfound hr)⟩
  · exact ⟨file, hfile, .inr (.inl hgone)⟩

/-- **A request is answered.**  What others have open is taken away from them with the
segment that is removed; the context itself counts on it no more. -/
theorem Kept.answer (hkept : Kept location Gone crew c)
    (hw : c.workers[i]? = some ⟨m, some ⟨said, .ask r next⟩⟩) (refusal : Option Error) :
    ∃ crew', Kept location (fun victim key file => Gone victim key file ∨
      c.Robs i victim key file) crew' (c.advance i refusal) := by
  obtain ⟨a, hx⟩ := hkept.exists_assets hw
  have hkeeps := hkept.keeps _ (List.mem_of_getElem? hx)
  have hallowed : a.Allows m.pipe said r := hkeeps.faithful.1
  obtain ⟨others, hperm, hset, -⟩ := exists_others (fun y : Worker × Assets => y.2.published) hx
  obtain ⟨hordered, hpublished, hbelieved⟩ := registered (w := (c.host, c.registry)) c.config
    hkept.ordered (hperm.symm.subperm.trans hkept.published) refusal r hallowed
  have hserved : Served c.config.segmentDir location (c.host, c.registry) r _ :=
    served hkept.drawer refusal r
  rw [advance_ask hw refusal]
  generalize (Handler.refusing refusal).answer c.config r (c.host, c.registry) = x at *
  refine ⟨crew.set i (⟨{ m with store := r.settled m.store },
    some ⟨said ++ [⟨r, x.1⟩], next x.1⟩⟩, a.after m.pipe r x.1), ?_, hserved.drawer, hordered,
    ?_, ?_, fun _ _ _ hgone => hkept.gone_after hw hserved hgone, ?_, ?_⟩
  · rw [List.map_set, hkept.workers]
  · exact (hset _).subperm.trans hpublished
  · intro y hmem
    rcases List.mem_or_eq_of_mem_set hmem with hold | rfl
    · exact hkept.keeps y hold
    · exact hkeeps.answer hbelieved
  · refine forall_set hx (fun o ho => ?_) fun j y hij hy o ho =>
      hkept.opened_elsewhere hw hserved hallowed hij hy ho
    obtain ⟨file, hfile, hfound | hgone⟩ := hkept.opened_here hx hserved hallowed ho
    · exact ⟨file, hfile, .inl hfound⟩
    · exact ⟨file, hfile, .inr (.inl hgone)⟩
  · refine forall_set hx (fun o ho => ?_) fun j y _ hy o ho => ?_
    · obtain ⟨file, hfile, hgone⟩ := hkept.lost_here hx hserved ho
      exact ⟨file, hfile, .inl hgone⟩
    · obtain ⟨file, hfile, hgone⟩ := hkept.lost j y hy o ho
      exact ⟨file, hfile, .inl hgone⟩

end Answer

/-- A context is made, and has nothing. -/
theorem Kept.join (hkept : Kept location Gone crew c) (pipe : UInt32) :
    ∃ crew', Kept location Gone crew' (c.step (.join pipe)) := by
  have hlast : ∀ {i : Nat} {x : Worker × Assets},
      (crew ++ [(⟨⟨pipe, .empty⟩, none⟩, ⟨[], [], []⟩)])[i]? = some x →
      crew[i]? = some x ∨ x.2 = ⟨[], [], []⟩ := by
    intro i x hi
    rcases Nat.lt_or_ge i crew.length with hlt | hge
    · rw [List.getElem?_append_left hlt] at hi
      exact .inl hi
    · rw [List.getElem?_append_right hge] at hi
      have hx := List.mem_of_getElem? hi
      rw [List.mem_singleton] at hx
      exact .inr (by rw [hx])
  refine ⟨crew ++ [(⟨⟨pipe, .empty⟩, none⟩, ⟨[], [], []⟩)], ?_, hkept.drawer, hkept.ordered, ?_, ?_,
    hkept.gone, ?_, ?_⟩
  · rw [List.map_append, hkept.workers]
    rfl
  · rw [List.flatMap_append, List.flatMap_singleton, List.append_nil]
    exact hkept.published
  · intro x hx
    rcases List.mem_append.1 hx with hold | hnew
    · exact hkept.keeps x hold
    · rw [List.mem_singleton.1 hnew]
      exact ⟨Store.cover_empty _ _, nofun⟩
  · intro i x hi o ho
    rcases hlast hi with hold | hnew
    · exact hkept.opened i x hold o ho
    · rw [hnew] at ho
      cases ho
  · intro i x hi o ho
    rcases hlast hi with hold | hnew
    · exact hkept.lost i x hold o ho
    · rw [hnew] at ho
      cases ho

theorem Kept.congr (hkept : Kept location Gone crew c) {Gone' : Nat → SegmentKey → FileId → Prop}
    (hgone : ∀ i key file, Gone' i key file ↔ Gone i key file) : Kept location Gone' crew c := by
  have hsame : Gone' = Gone := by
    funext i key file
    exact propext (hgone i key file)
  rwa [hsame]

/-- **Every move** leaves each handle on the file that is found there, except for what it
takes away. -/
theorem Kept.step (hkept : Kept location Gone crew c) (move : Move) :
    ∃ crew', Kept location (fun victim key file => Gone victim key file ∨
      ∃ thief refusal, move = .advance thief refusal ∧ c.Robs thief victim key file) crew'
      (c.step move) := by
  cases move with
  | join pipe =>
      obtain ⟨crew', hkept'⟩ := hkept.join pipe
      exact ⟨crew', hkept'.congr (by simp)⟩
  | start i order =>
      simp only [Workshop.step]
      split
      · rename_i work hplan
        obtain ⟨crew', hkept'⟩ := hkept.assign i fun m a hcover => Order.abides hplan hcover
        exact ⟨crew', hkept'.congr (by simp)⟩
      · exact ⟨crew, hkept.congr (by simp)⟩
  | startRemoval i =>
      obtain ⟨crew', hkept'⟩ : ∃ crew', Kept location Gone crew'
          (c.assign i fun site s => s.removeAll site) :=
        hkept.assign i fun m a hcover => Store.removeAll_abides hcover c.config
      exact ⟨crew', hkept'.congr (by simp)⟩
  | advance i refusal =>
      show ∃ crew', Kept _ _ crew' (c.advance i refusal)
      -- Whoever is not about to remove anything takes nothing away.
      have hidle : (∀ m said key next,
          c.workers[i]? ≠ some ⟨m, some ⟨said, .ask (.removeSegment key) next⟩⟩) →
          ∀ victim key file, (Gone victim key file ∨ ∃ thief refusal',
            Move.advance i refusal = .advance thief refusal' ∧ c.Robs thief victim key file) ↔
            Gone victim key file := by
        intro hnot victim key file
        refine or_iff_left ?_
        rintro ⟨thief, refusal', hmove, hrobs⟩
        cases hmove
        obtain ⟨m, said, next, hw, -⟩ := hrobs.removes
        exact hnot m said key next hw
      rcases hw : c.workers[i]? with _ | ⟨m, _ | ⟨said, ending | ⟨r, next⟩⟩⟩
      · refine ⟨crew, Kept.congr ?_ (hidle (by simp [hw]))⟩
        simpa only [advance, hw] using hkept
      · refine ⟨crew, Kept.congr ?_ (hidle (by simp [hw]))⟩
        simpa only [advance, hw] using hkept
      · obtain ⟨crew', hkept'⟩ := hkept.finish hw
        rw [← advance_done hw refusal] at hkept'
        exact ⟨crew', hkept'.congr (hidle (by simp [hw]))⟩
      · obtain ⟨crew', hkept'⟩ := hkept.answer hw refusal
        refine ⟨crew', hkept'.congr fun victim key file => or_congr_right ?_⟩
        constructor
        · rintro ⟨thief, refusal', hmove, hrobs⟩
          cases hmove
          exact hrobs
        · exact fun hrobs => ⟨i, refusal, rfl, hrobs⟩

/-! ## Whole runs -/

/-- One move more. -/
theorem robbed_concat (c : Workshop) (moves : List Move) (move : Move) (victim : Nat)
    (key : SegmentKey) (file : FileId) :
    c.Robbed (moves ++ [move]) victim key file ↔ c.Robbed moves victim key file ∨
      ∃ thief refusal, move = .advance thief refusal ∧
        (c.run moves).Robs thief victim key file := by
  constructor
  · rintro ⟨before, thief, refusal, after, hmoves, hrobs⟩
    rcases List.eq_nil_or_concat after with rfl | ⟨front, last, rfl⟩
    · obtain ⟨rfl, hlast⟩ := List.append_inj' hmoves rfl
      exact .inr ⟨thief, refusal, List.head_eq_of_cons_eq hlast, hrobs⟩
    · rw [List.concat_eq_append, ← List.cons_append, ← List.append_assoc] at hmoves
      obtain ⟨hfront, -⟩ := List.append_inj' hmoves rfl
      exact .inl ⟨before, thief, refusal, front, hfront, hrobs⟩
  · rintro (⟨before, thief, refusal, after, rfl, hrobs⟩ | ⟨thief, refusal, rfl, hrobs⟩)
    · exact ⟨before, thief, refusal, after ++ [move], by simp, hrobs⟩
    · exact ⟨moves, thief, refusal, [], rfl, hrobs⟩

/-- In a new workshop there is nothing to keep. -/
theorem IsNew.kept (hnew : c.IsNew) : ∃ location, Kept location (fun _ _ _ => False) [] c := by
  obtain ⟨hworkers, hcommunity⟩ := hnew
  obtain ⟨location, hbooks, -⟩ := hcommunity.kept
  have hnone : ∀ key file, c.host.disk.standing c.config.segmentDir key = some file → False := by
    intro key file hfile
    have hstands := (hbooks.stands key).1 (by
      show (c.host.disk.standing c.config.segmentDir key).isSome = true
      rw [hfile]
      rfl)
    simp at hstands
  refine ⟨location, hworkers.symm, ⟨hbooks.shelf, hbooks.speakable, ?_⟩, hbooks.ordered, ?_, ?_,
    nofun, ?_, ?_⟩
  · exact fun key file hfile => (hnone key file hfile).elim
  · exact List.nil_subperm
  · simp
  · simp
  · simp

theorem IsNew.run_kept (hnew : c.IsNew) (moves : List Move) :
    ∃ location crew, Kept location (c.Robbed moves) crew (c.run moves) := by
  obtain ⟨location, hkept⟩ := hnew.kept
  refine ⟨location, ?_⟩
  -- The last move comes after all others: what it takes away is taken from their outcome.
  induction moves using List.reverseRecOn with
  | nil =>
      refine ⟨[], hkept.congr fun victim key file => ?_⟩
      simp [Robbed]
  | append_singleton moves move ih =>
      obtain ⟨crew, hbefore⟩ := ih
      obtain ⟨crew', hafter⟩ := hbefore.step move
      refine ⟨crew', ?_⟩
      rw [run, List.foldl_append]
      exact hafter.congr (robbed_concat c moves move)

/-- **Who is left behind.**  Contexts work at the same time, in any order of their steps:
they open segments, publish, retract and remove, and the registry may refuse whatever it
is asked for.  Take a context that is not at work, and one of its subscriptions.  Its
handle is on a file, and this is the file that is found at the path of its segment,
unless and only unless at some point another context removed the segment while this one
had that file open: an operation of the other one that the registry had told that its
descriptor was the last one, or that had made the file and whose descriptor was
refused. -/
theorem reached_iff_not_robbed {c : Workshop} (hnew : c.IsNew) (moves : List Move) {i : Nat}
    {w : Worker} (hw : (c.run moves).workers[i]? = some w) (hrest : w.task = none)
    {x : Descriptor × Segment} (hx : x ∈ w.store.listed w.pipe) :
    ∃ file, x.2.file = some file ∧
      ((c.run moves).found x.1.key = some file ↔ ¬ c.Robbed moves i x.1.key file) := by
  obtain ⟨location, crew, hkept⟩ := hnew.run_kept moves
  obtain ⟨a, hcrew⟩ := hkept.exists_assets hw
  have hfaithful := (hkept.keeps _ (List.mem_of_getElem? hcrew)).faithful
  simp only [hrest] at hfaithful
  have hhas : a.Has (x.1.key, x.2.file) :=
    hfaithful.has_row (List.mem_map_of_mem (f := Store.bareRow) hx)
  obtain ⟨file, hfile, hreach⟩ := hkept.reaches hcrew hhas
  refine ⟨file, hfile, fun hfound hrobbed => ?_, fun hnot => hreach.resolve_right hnot⟩
  exact (hkept.gone i x.1.key file hrobbed).2 hfound

/-- A workshop whose segments go into an empty working directory. -/
def atStart : Workshop := ⟨.withRoot "", .fresh, .empty, []⟩

theorem atStart_isNew : atStart.IsNew := ⟨rfl, Community.atStart_isNew⟩

/-- The subscription of the second one of two contexts, which has found the segment made by
the first one. -/
def secondRow : Descriptor × Segment :=
  (⟨"m", .changes none .running 5 default, 3⟩, ⟨some 0, some 128⟩)

/-- The first context is told that its subscription was the last one; before it removes
the segment, the second one opens it. -/
def deserted : List Move := [.join 7, .join 3,
  .start 0 (.addChange "m" .running none 9 default "first" none),
  .advance 0 none, .advance 0 none, .advance 0 none, .advance 0 none,
  .start 0 (.removeChange "m" .running none 9 default "first" none), .advance 0 none,
  .start 1 (.addChange "m" .running none 5 default "second" none),
  .advance 1 none, .advance 1 none, .advance 1 none, .advance 1 none,
  .advance 0 none, .advance 0 none]

/-- The second context is robbed by the removal of the last subscription but its own. -/
theorem reached_iff_not_robbed_deserted :
    ∃ w, (atStart.run deserted).workers[1]? = some w ∧ w.task = none ∧
      ∃ x ∈ w.store.listed w.pipe, ∃ file, x.2.file = some file ∧
        (atStart.run deserted).found x.1.key ≠ some file ∧
        atStart.Robbed deserted 1 x.1.key file := by
  have hsecond : ((atStart.run deserted).workers[1]?.map fun w =>
      (w.task.isNone, w.store.listed w.pipe)) = some (true, [secondRow]) := by decide +kernel
  have hfound : (atStart.run deserted).found secondRow.1.key = none := by decide +kernel
  obtain ⟨w, hw, hstate⟩ := Option.map_eq_some_iff.1 hsecond
  obtain ⟨hrest, hlisted⟩ := Prod.mk.inj hstate
  have hx : secondRow ∈ w.store.listed w.pipe := by
    rw [hlisted]
    exact List.mem_singleton_self _
  rw [Option.isNone_iff_eq_none] at hrest
  obtain ⟨file, hfile, hiff⟩ := reached_iff_not_robbed atStart_isNew deserted hw hrest hx
  have hlost : (atStart.run deserted).found secondRow.1.key ≠ some file := by
    rw [hfound]
    exact nofun
  refine ⟨w, hw, hrest, secondRow, hx, file, hfile, hlost, ?_⟩
  by_contra hnot
  exact hlost (hiff.2 hnot)

/-- The first context makes the segment; the second one opens it, and its operation
returns before the registry refuses the first one. -/
def overtaken : List Move := [.join 7, .join 3,
  .start 0 (.addChange "m" .running none 9 default "first" none), .advance 0 none,
  .start 1 (.addChange "m" .running none 5 default "second" none),
  .advance 1 none, .advance 1 none, .advance 1 none, .advance 1 none,
  .advance 0 (some (.missing (.descriptor "m"))), .advance 0 none, .advance 0 none]

/-- **A failed add leaves a subscriber behind.**  All operations have returned, and the
second context has a subscription on a segment that nobody finds any more. -/
theorem failed_add_leaves_a_subscriber_behind :
    atStart.IsNew ∧ (∀ w ∈ (atStart.run overtaken).workers, w.task.isNone = true) ∧
      ∃ w ∈ (atStart.run overtaken).workers, ∃ x ∈ w.store.listed w.pipe,
        x.2.file = some 0 ∧ (atStart.run overtaken).found x.1.key = none := by
  have hrest : ((atStart.run overtaken).workers.all fun w => w.task.isNone) = true := by
    decide +kernel
  have hsecond : ((atStart.run overtaken).workers[1]?.map fun w => w.store.listed w.pipe) =
      some [secondRow] := by decide +kernel
  have hfound : (atStart.run overtaken).found secondRow.1.key = none := by decide +kernel
  obtain ⟨w, hw, hlisted⟩ := Option.map_eq_some_iff.1 hsecond
  refine ⟨atStart_isNew, fun w hw => List.all_eq_true.1 hrest w hw, w, List.mem_of_getElem? hw,
    secondRow, ?_, rfl, hfound⟩
  rw [hlisted]
  exact List.mem_singleton_self _

end Workshop

end Subscription
