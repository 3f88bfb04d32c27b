import Mathlib.Logic.Function.Basic
import Subscription.Proofs.Agreement
import Subscription.Proofs.Broadcast

/-!
# A watcher who is right

Whoever watches a community can be right about it (`Broadcast.Sound`): the segments hold
what was published in them last, the listeners look like the subscribers of the members,
in the same places, and each listener follows the past of its segment.

Adding and removing subscriptions keeps it so.  A new subscriber finds a segment that has
a past, since somebody listens to it already, or one that was made for it
(`Broadcast.Sound.joined`, `Broadcast.Sound.founded`).  When a subscriber goes, others
change their places, but what they have heard of comes with them
(`Broadcast.subscribers_leave`).
-/

namespace Subscription

open scoped List
open Plan Shared

/-! ## What keeps going on -/

/-- What the files hold is what was published in them. -/
def Aired (chronicles : FileId → Option Chronicle) (h : Host) : Prop :=
  ∀ file t, chronicles file = some t → h.Channel file .multi t.cell

/-- More may have been published. -/
def Grows (chronicles chronicles' : FileId → Option Chronicle) : Prop :=
  ∀ file t, chronicles file = some t →
    ∃ t', chronicles' file = some t' ∧ t.postings <+: t'.postings

/-- A listener follows the past of its segment. -/
def Heeds (chronicles : FileId → Option Chronicle) (x : Station × Listener) : Prop :=
  ∃ file t, x.1.file = some file ∧ chronicles file = some t ∧ x.2.Follows t

variable {chronicles chronicles' : FileId → Option Chronicle} {h h' : Host}
variable {file : FileId} {t : Chronicle} {location : Location}

theorem Grows.refl (chronicles : FileId → Option Chronicle) : Grows chronicles chronicles :=
  fun _ t ht => ⟨t, ht, List.prefix_refl _⟩

theorem Heeds.mono {x : Station × Listener} (hheeds : Heeds chronicles x)
    (hgrows : Grows chronicles chronicles') : Heeds chronicles' x := by
  obtain ⟨file, t, hfile, ht, hfollows⟩ := hheeds
  obtain ⟨t', ht', hmore⟩ := hgrows file t ht
  exact ⟨file, t', hfile, ht', hfollows.of_prefix hmore⟩

theorem Aired.keeps (haired : Aired chronicles h) (hkeeps : Host.KeepsChannels h h') :
    Aired chronicles h' :=
  fun file t ht => hkeeps.channels file _ (haired file t ht)

/-- A segment gets a past, unless it has one. -/
theorem aired_opened (haired : Aired chronicles h)
    (hnew : chronicles file = none → h.Channel file .multi (.blank .multi)) :
    Aired (Function.update chronicles file (some ((chronicles file).getD .blank))) h ∧
      Grows chronicles
        (Function.update chronicles file (some ((chronicles file).getD .blank))) := by
  constructor
  · intro f t ht
    by_cases hf : f = file
    · subst hf
      rw [Function.update_self, Option.some.injEq] at ht
      cases hold : chronicles f with
      | none =>
          rw [hold] at ht
          subst ht
          exact hnew hold
      | some t' =>
          rw [hold] at ht
          subst ht
          exact haired f t' hold
    · rw [Function.update_of_ne hf] at ht
      exact haired f t ht
  · intro f t ht
    refine ⟨t, ?_, List.prefix_refl _⟩
    by_cases hf : f = file
    · subst hf
      rw [Function.update_self, ht]
      rfl
    · rw [Function.update_of_ne hf, ht]

/-- A segment is used. -/
theorem aired_used (haired : Aired chronicles h) (ht : chronicles file = some t) {use : Use}
    (hch : h'.Channel file .multi (t.cell.after use)) (honly : Host.OnlyFile file h h') :
    Aired (Function.update chronicles file ((chronicles file).map fun t => t.after use)) h' ∧
      Grows chronicles
        (Function.update chronicles file ((chronicles file).map fun t => t.after use)) := by
  rw [ht, Option.map_some]
  constructor
  · intro f t' ht'
    by_cases hf : f = file
    · subst hf
      rw [Function.update_self, Option.some.injEq] at ht'
      rw [← ht', Chronicle.cell_after]
      exact hch
    · rw [Function.update_of_ne hf] at ht'
      exact (haired f t' ht').of_file? (honly.others f hf)
  · intro f t' ht'
    by_cases hf : f = file
    · subst hf
      rw [ht] at ht'
      cases ht'
      exact ⟨t.after use, Function.update_self .., t.prefix_after use⟩
    · exact ⟨t', by rw [Function.update_of_ne hf, ht'], List.prefix_refl _⟩

/-! ## Subscribers and listeners -/

/-- What one can see of the subscribers of a member. -/
def Member.subscribers (m : Member) : Groups Station ChangeSub :=
  m.store.changes.view ChangeChannel.station id

/-- What one can see of the listeners. -/
def Audience.subscribers (a : Audience) : Groups Station ChangeSub := a.view id Listener.sub

/-- A subscriber listens on the file that stands at its path. -/
theorem Community.Kept.segment_file {c : Community} (hkept : c.Kept location) {m : Member}
    (hm : m ∈ c.members) {x : ChangeChannel × ChangeSub} (hx : x ∈ m.store.changes.entries) :
    x.1.segment.file = c.host.disk.fileAt
      (c.config.segmentPath ⟨x.1.module, x.1.datastore.suffix, none⟩) := by
  refine hkept.books.handles (Store.bareRow (Store.changeRow m.pipe x)) ?_
  refine List.mem_flatMap.2 ⟨m, hm, List.mem_map_of_mem ?_⟩
  exact List.mem_append_left _ (List.mem_map_of_mem hx)

namespace Broadcast

variable {b : Broadcast} {c' : Community} {i : Nat} {m m' : Member} {a : Audience}

/-- The watcher is right: about the segments, about the subscribers, and about what
they have heard of. -/
structure Sound (location : Location) (b : Broadcast) : Prop where
  kept : b.community.Kept location
  aired : Aired b.chronicles b.community.host
  alike : b.community.members.map Member.subscribers = b.audiences.map Audience.subscribers
  heeds : ∀ a ∈ b.audiences, ∀ x ∈ a.entries, Heeds b.chronicles x

/-- Every member has an audience that looks like its subscribers. -/
theorem Sound.exists_audience (hsound : b.Sound location)
    (hm : b.community.members[i]? = some m) :
    ∃ a, b.audiences[i]? = some a ∧ m.subscribers = a.subscribers := by
  have hget := congrArg (fun l => l[i]?) hsound.alike
  simp only [List.getElem?_map, hm, Option.map_some] at hget
  obtain ⟨a, ha, heq⟩ := Option.map_eq_some_iff.1 hget.symm
  exact ⟨a, ha, heq.symm⟩

theorem Sound.audiences_none (hsound : b.Sound location)
    (hm : b.community.members[i]? = none) : b.audiences[i]? = none := by
  have hlength := congrArg List.length hsound.alike
  simp only [List.length_map] at hlength
  rw [List.getElem?_eq_none_iff] at hm ⊢
  omega

/-- A subscriber listens on a segment with a past. -/
theorem Sound.exists_chronicle (hsound : b.Sound location) (hm : m ∈ b.community.members)
    {x : ChangeChannel × ChangeSub} (hx : x ∈ m.store.changes.entries) :
    ∃ file t, x.1.segment.file = some file ∧ b.chronicles file = some t := by
  obtain ⟨i, hi⟩ := List.mem_iff_getElem?.1 hm
  obtain ⟨a, ha, hsame⟩ := hsound.exists_audience hi
  have hseen : (x.1.station, x.2) ∈ m.subscribers.entries := by
    rw [Member.subscribers, Groups.entries_view]
    exact List.mem_map.2 ⟨x, hx, rfl⟩
  rw [hsame, Audience.subscribers, Groups.entries_view] at hseen
  obtain ⟨y, hy, heq⟩ := List.mem_map.1 hseen
  obtain ⟨file, t, hfile, ht, -⟩ := hsound.heeds a (List.mem_of_getElem? ha) y hy
  have hstation : y.1 = x.1.station := congrArg Prod.fst heq
  rw [hstation] at hfile
  exact ⟨file, t, hfile, ht⟩

/-- A file that stands where subscribers to changes listen has a past. -/
theorem Sound.exists_chronicle_of_standing (hsound : b.Sound location) {module : String}
    {datastore : Datastore}
    (hstanding : b.community.host.disk.standing b.community.config.segmentDir
      ⟨module, datastore.suffix, none⟩ = some file) : ∃ t, b.chronicles file = some t := by
  have hbooks := hsound.kept.books
  obtain ⟨row, hrow, hkey⟩ := (hbooks.stands ⟨module, datastore.suffix, none⟩).1
    (by rw [hstanding]; rfl)
  have hhandle := hbooks.handles row hrow
  rw [hkey, hstanding] at hhandle
  obtain ⟨m, hm, hrow⟩ := List.mem_flatMap.1 hrow
  obtain ⟨x, hx, rfl⟩ := List.mem_map.1 hrow
  have hsuffix : x.1.topic.suffix = datastore.suffix := congrArg SegmentKey.suffix hkey
  -- Services and notifications have other suffixes.
  simp only [Store.listed, List.mem_append, List.mem_map] at hx
  rcases hx with ⟨y, hy, rfl⟩ | ⟨y, -, rfl⟩ | ⟨y, -, rfl⟩ | ⟨y, -, rfl⟩
  · obtain ⟨f, t, hf, ht⟩ := hsound.exists_chronicle hm hy
    have hsame : some f = some file := hf.symm.trans hhandle
    cases hsame
    exact ⟨t, ht⟩
  · cases datastore <;> cases hsuffix
  · cases datastore <;> cases hsuffix
  · cases datastore <;> cases hsuffix

/-- Nothing has changed that the watcher knows of. -/
theorem Sound.of_community (hsound : b.Sound location) (hkept : c'.Kept location)
    (haired : Aired b.chronicles c'.host)
    (hsame : c'.members.map Member.subscribers = b.community.members.map Member.subscribers) :
    ({ b with community := c' } : Broadcast).Sound location :=
  ⟨hkept, haired, hsame.trans hsound.alike, hsound.heeds⟩

/-- **One member and its audience** change, in the same way. -/
theorem Sound.update (hsound : b.Sound location) (ha : b.audiences[i]? = some a)
    (hkept : c'.Kept location)
    (hmembers : c'.members = b.community.members.set i m')
    (haired : Aired chronicles' c'.host) (hgrows : Grows b.chronicles chronicles')
    {f : Audience → Audience} (hsame : m'.subscribers = (f a).subscribers)
    (hheeds : ∀ x ∈ (f a).entries, Heeds chronicles' x) :
    (⟨c', chronicles', b.audiences.modify i f⟩ : Broadcast).Sound location := by
  have hmodify : b.audiences.modify i f = b.audiences.set i (f a) := by
    rw [List.modify_eq_set_getElem?, ha]
    rfl
  rw [hmodify]
  refine ⟨hkept, haired, ?_, ?_⟩
  · show c'.members.map Member.subscribers = (b.audiences.set i (f a)).map Audience.subscribers
    rw [hmembers, List.map_set, List.map_set, hsound.alike, hsame]
  · intro a' ha' x hx
    rcases List.mem_or_eq_of_mem_set ha' with hold | rfl
    · exact (hsound.heeds a' hold x hx).mono hgrows
    · exact hheeds x hx

/-- What nobody does changes nobody's audience. -/
theorem Sound.modify_none (hsound : b.Sound location)
    (hm : b.community.members[i]? = none) (f : Audience → Audience) :
    b.audiences.modify i f = b.audiences := by
  rw [List.modify_eq_set_getElem?, hsound.audiences_none hm]
  rfl

/-! ## Adding and removing -/

/-- **One more subscriber** is one more listener. -/
theorem subscribers_join {s : Groups ChangeChannel ChangeSub} {channel : ChangeChannel}
    {sub : ChangeSub} (hsame : s.view ChangeChannel.station id = a.subscribers) :
    (match s.position? (Store.isChanges channel.module channel.datastore) with
      | some place => s.insert place sub
      | none => s.insertNew channel sub).view ChangeChannel.station id =
      (a.join channel.station ⟨sub, []⟩).subscribers := by
  have hplace : s.position? (Store.isChanges channel.module channel.datastore) =
      a.position? (Station.isAbout channel.station.module channel.station.datastore) := by
    have hseen : (s.view ChangeChannel.station id).position?
        (Station.isAbout channel.module channel.datastore) =
        s.position? (Store.isChanges channel.module channel.datastore) :=
      Groups.position?_view fun _ => rfl
    rw [← hseen, hsame]
    exact Groups.position?_view fun _ => rfl
  unfold Audience.join
  rw [hplace]
  cases a.position? (Station.isAbout channel.station.module channel.station.datastore) with
  | some place =>
      calc (s.insert place sub).view ChangeChannel.station id
          = (s.view ChangeChannel.station id).insert place sub :=
            (Groups.insert_view (h := id) place sub).symm
        _ = (a.view id Listener.sub).insert place (Listener.sub ⟨sub, []⟩) := by
            rw [hsame, Audience.subscribers]
        _ = _ := Groups.insert_view place _
  | none =>
      calc (s.insertNew channel sub).view ChangeChannel.station id
          = (s.view ChangeChannel.station id).insertNew channel.station sub :=
            (Groups.insertNew_view (h := id) channel sub).symm
        _ = (a.view id Listener.sub).insertNew (id channel.station) (Listener.sub ⟨sub, []⟩) := by
            rw [hsame, Audience.subscribers]
            rfl
        _ = _ := Groups.insertNew_view _ _

/-- **One subscriber less** is one listener less. -/
theorem subscribers_leave {s : Groups ChangeChannel ChangeSub} {module : String}
    {datastore : Datastore} {sub : ChangeSub} {place entry : Nat}
    (hsame : s.view ChangeChannel.station id = a.subscribers)
    (hlocate : s.locate? (Store.isChanges module datastore)
      (fun other => Store.sameChange other sub) = some (place, entry)) :
    (s.erase place entry).view ChangeChannel.station id =
        (a.leave module datastore sub).subscribers ∧
      ∀ x ∈ (a.leave module datastore sub).entries, x ∈ a.entries := by
  have hfound : a.locate? (Station.isAbout module datastore)
      (fun l => Store.sameChange l.sub sub) = some (place, entry) := by
    have hseen : (s.view ChangeChannel.station id).locate? (Station.isAbout module datastore)
        (fun other => Store.sameChange other sub) =
        s.locate? (Store.isChanges module datastore) (fun other => Store.sameChange other sub) :=
      Groups.locate?_view (fun _ => rfl) fun _ => rfl
    have hheard : a.subscribers.locate? (Station.isAbout module datastore)
        (fun other => Store.sameChange other sub) =
        a.locate? (Station.isAbout module datastore) (fun l => Store.sameChange l.sub sub) :=
      Groups.locate?_view (fun _ => rfl) fun _ => rfl
    rw [← hheard, ← hsame, hseen, hlocate]
  have hleave : a.leave module datastore sub = a.erase place entry := by
    simp only [Audience.leave, hfound]
  rw [hleave]
  constructor
  · calc (s.erase place entry).view ChangeChannel.station id
        = (s.view ChangeChannel.station id).erase place entry := (Groups.erase_view ..).symm
      _ = (a.view id Listener.sub).erase place entry := by rw [hsame, Audience.subscribers]
      _ = _ := Groups.erase_view ..
  · intro x hx
    obtain ⟨_, _, -, -, -, hdrops⟩ := Groups.drops_of_locate? hfound
    exact hdrops.perm_entries.mem_iff.2 (List.mem_cons_of_mem _ hx)

/-- As no group of subscribers is empty, none of the listeners is. -/
theorem nonempty_of_alike {s : Groups ChangeChannel ChangeSub} {ι : Type}
    {key : ChangeChannel → ι} (hsame : s.view ChangeChannel.station id = a.subscribers)
    (hdistinct : s.Distinct key) : ∀ g ∈ a.toList, g.subs.toList ≠ [] := by
  intro g hg hempty
  have hseen : Groups.viewOf id Listener.sub g ∈ (s.view ChangeChannel.station id).toList := by
    rw [hsame]
    exact List.mem_map_of_mem hg
  obtain ⟨g', hg', heq⟩ := List.mem_map.1 hseen
  have hsubs := congrArg (fun v => v.subs.toList) heq
  simp only [Groups.viewOf, SwapSet.view, hempty, List.map_nil, List.map_id] at hsubs
  exact hdistinct.nonempty g' hg' hsubs

/-- The listener that is new is at a station of its own, or at one where others are. -/
theorem mem_entries_join {station : Station} {l : Listener} {x : Station × Listener}
    (hnonempty : ∀ g ∈ a.toList, g.subs.toList ≠ []) (hx : x ∈ (a.join station l).entries) :
    x ∈ a.entries ∨ x.2 = l ∧ (x.1 = station ∨ ∃ y ∈ a.entries, y.1 = x.1) := by
  unfold Audience.join at hx
  cases hplace : a.position? (Station.isAbout station.module station.datastore) with
  | some place =>
      rw [hplace] at hx
      obtain ⟨g, hget, -⟩ := SwapSet.exists_get?_of_position? hplace
      have hg := Groups.mem_of_get? hget
      obtain ⟨l', hl'⟩ := List.exists_mem_of_ne_nil _ (hnonempty g hg)
      rcases List.mem_cons.1 ((Groups.perm_entries_insert hget l).mem_iff.1 hx) with rfl | hold
      · exact .inr ⟨rfl, .inr ⟨(g.shared, l'), Groups.mem_entries.2 ⟨g, hg, rfl, hl'⟩, rfl⟩⟩
      · exact .inl hold
  | none =>
      rw [hplace] at hx
      rcases List.mem_cons.1 ((Groups.perm_entries_insertNew a station l).mem_iff.1 hx) with
        rfl | hold
      · exact .inr ⟨rfl, .inl rfl⟩
      · exact .inl hold

/-- The subscribers to changes are all that one sees of a member. -/
theorem subscribers_set (members : List Member) (hm : members[i]? = some m)
    (hsame : m'.subscribers = m.subscribers) :
    (members.set i m').map Member.subscribers = members.map Member.subscribers := by
  obtain ⟨hi, rfl⟩ := List.getElem?_eq_some_iff.1 hm
  rw [List.map_set, hsame, ← List.map_set, List.set_getElem_self]

/-- Nobody is there to do it, and so nothing new is to be noted. -/
theorem Sound.subscribed_none (hsound : b.Sound location) (hm : b.community.members[i]? = none)
    (module : String) (datastore : Datastore) (sub : ChangeSub) :
    b.subscribed i module datastore sub b.community = b := by
  obtain ⟨c, chronicles, audiences⟩ := b
  simp only [subscribed, hsound.modify_none hm, Broadcast.mk.injEq, true_and, and_true]
  cases hfile : c.host.disk.fileAt (c.config.segmentPath ⟨module, datastore.suffix, none⟩) with
  | none => rfl
  | some file =>
      obtain ⟨t, ht⟩ := hsound.exists_chronicle_of_standing hfile
      have hsame : some ((chronicles file).getD .blank) = chronicles file := by
        rw [show chronicles file = some t from ht]
        rfl
      dsimp only
      rw [hsame, Function.update_eq_self]

/-- A member has one more subscriber to changes, in a group that was there or in one of
its own. -/
def withSubscriber (m : Member) (channel : ChangeChannel) (sub : ChangeSub) : Member :=
  { m with store := { m.store with
      changes :=
        match m.store.changes.position?
            (Store.isChanges channel.module channel.datastore) with
        | some place => m.store.changes.insert place sub
        | none => m.store.changes.insertNew channel sub } }

/-- The new subscriber is there. -/
theorem mem_entries_withSubscriber (m : Member) (channel : ChangeChannel) (sub : ChangeSub)
    (hplace : ∀ place,
      m.store.changes.position? (Store.isChanges channel.module channel.datastore) =
        some place → ∃ g, m.store.changes.get? place = some g ∧ g.shared = channel) :
    (channel, sub) ∈ (withSubscriber m channel sub).store.changes.entries := by
  unfold withSubscriber
  dsimp only
  cases hposition : m.store.changes.position?
      (Store.isChanges channel.module channel.datastore) with
  | some place =>
      obtain ⟨g, hget, rfl⟩ := hplace place hposition
      exact (Groups.perm_entries_insert hget sub).mem_iff.2 List.mem_cons_self
  | none => exact (Groups.perm_entries_insertNew _ channel sub).mem_iff.2 List.mem_cons_self

/-- **A new listener** has not heard of anything, and listens to a segment that has a
past or has been made for it. -/
theorem Sound.subscribed (hsound : b.Sound location) (hm : b.community.members[i]? = some m)
    (hkept : c'.Kept location) (haired : Aired b.chronicles c'.host) {channel : ChangeChannel}
    {sub : ChangeSub}
    (hmembers : c'.members = b.community.members.set i (withSubscriber m channel sub))
    (hx : (channel, sub) ∈ (withSubscriber m channel sub).store.changes.entries)
    (hfile : channel.segment.file = some file)
    (hnew : b.chronicles file = none → c'.host.Channel file .multi (.blank .multi))
    (hrequest : sub.lastRequest = 0) (hevent : sub.lastEvent = .none) :
    (b.subscribed i channel.module channel.datastore sub c').Sound location := by
  obtain ⟨a, ha, hsame⟩ := hsound.exists_audience hm
  have hnonempty := nonempty_of_alike hsame
    (hsound.kept.tidy m (List.mem_of_getElem? hm)).changes
  obtain ⟨haired', hgrows⟩ := aired_opened haired hnew
  have hstation : channel.station = ⟨channel.module, channel.datastore, some file⟩ := by
    rw [ChangeChannel.station, hfile]
  -- Where the new subscriber listens, its segment stands.
  have hthere : withSubscriber m channel sub ∈ c'.members := by
    rw [hmembers]
    exact List.mem_set (List.getElem?_eq_some_iff.1 hm).1 _
  have hpath := (hkept.segment_file hthere hx).symm.trans hfile
  simp only [Broadcast.subscribed, hpath]
  rw [← hstation]
  refine hsound.update ha hkept hmembers haired' hgrows (subscribers_join hsame) ?_
  intro x hx
  rcases mem_entries_join hnonempty hx with hold | ⟨hl, hstation' | ⟨y, hy, hstation'⟩⟩
  · exact (hsound.heeds a (List.mem_of_getElem? ha) x hold).mono hgrows
  · refine ⟨file, (b.chronicles file).getD .blank, ?_, Function.update_self .., ?_⟩
    · rw [hstation', hstation]
    · rw [hl]
      exact Listener.follows_new hrequest hevent _
  · -- Others listen to the same segment.
    obtain ⟨f, t, hf, ht, -⟩ := (hsound.heeds a (List.mem_of_getElem? ha) y hy).mono hgrows
    refine ⟨f, t, ?_, ht, ?_⟩
    · rw [← hstation', hf]
    · rw [hl]
      exact Listener.follows_new hrequest hevent _

/-- Whoever joins a group listens to what the others listen to. -/
theorem Sound.joined (hsound : b.Sound location) (hm : b.community.members[i]? = some m)
    (hkept : c'.Kept location) (haired : Aired b.chronicles c'.host) {module : String}
    {datastore : Datastore} {sub : ChangeSub} {place : Nat}
    (hplace : m.store.changes.position? (Store.isChanges module datastore) = some place)
    (hmembers : c'.members = b.community.members.set i { m with
      store := { m.store with changes := m.store.changes.insert place sub } })
    (hrequest : sub.lastRequest = 0) (hevent : sub.lastEvent = .none) :
    (b.subscribed i module datastore sub c').Sound location := by
  have hmem := List.mem_of_getElem? hm
  obtain ⟨g, hget, hgroup⟩ := SwapSet.exists_get?_of_position? hplace
  obtain ⟨rfl, rfl⟩ := Store.isChanges_iff.1 hgroup
  have hmembers' : c'.members = b.community.members.set i (withSubscriber m g.shared sub) := by
    simp only [hmembers, withSubscriber, hplace]
  have hx := mem_entries_withSubscriber m g.shared sub fun place' hplace' => by
    rw [hplace] at hplace'
    cases hplace'
    exact ⟨g, hget, rfl⟩
  have hg := Groups.mem_of_get? hget
  obtain ⟨first, hfirst⟩ := List.exists_mem_of_ne_nil _
    ((hsound.kept.tidy m hmem).changes.nonempty g hg)
  have hfirst' : (g.shared, first) ∈ m.store.changes.entries :=
    Groups.mem_entries.2 ⟨g, hg, rfl, hfirst⟩
  obtain ⟨f, t, hf, ht⟩ := hsound.exists_chronicle hmem hfirst'
  refine hsound.subscribed hm hkept haired hmembers' hx hf ?_ hrequest hevent
  intro hnone
  rw [ht] at hnone
  cases hnone

/-- Whoever founds a group finds a segment that has a past, or makes one. -/
theorem Sound.founded (hsound : b.Sound location) (hm : b.community.members[i]? = some m)
    (hkept : c'.Kept location) (haired : Aired b.chronicles c'.host) (channel : ChangeChannel)
    {sub : ChangeSub} {pipe : UInt32}
    (hplace : m.store.changes.position?
      (Store.isChanges channel.module channel.datastore) = none)
    (hopened : Store.Opened b.community.config.segmentDir
      ⟨channel.module, sub.topic channel.datastore, pipe⟩ b.community.host c'.host
      channel.segment.file)
    (hmembers : c'.members = b.community.members.set i { m with
      store := { m.store with changes := m.store.changes.insertNew channel sub } })
    (hrequest : sub.lastRequest = 0) (hevent : sub.lastEvent = .none) :
    (b.subscribed i channel.module channel.datastore sub c').Sound location := by
  have hmembers' : c'.members = b.community.members.set i (withSubscriber m channel sub) := by
    simp only [hmembers, withSubscriber, hplace]
  have hx := mem_entries_withSubscriber m channel sub fun place' hplace' => by
    rw [hplace] at hplace'
    cases hplace'
  rcases hopened with ⟨f, hf, hstanding⟩ | ⟨hf, hmade⟩
  · obtain ⟨t, ht⟩ := hsound.exists_chronicle_of_standing hstanding
    refine hsound.subscribed hm hkept haired hmembers' hx hf ?_ hrequest hevent
    intro hnone
    rw [ht] at hnone
    cases hnone
  · exact hsound.subscribed hm hkept haired hmembers' hx hf (fun _ => hmade) hrequest hevent

/-- **Adding a subscription** adds a listener who has not heard of anything. -/
theorem Sound.addChange (hsound : b.Sound location) (i : Nat) (refusal : Option Error)
    (module : String) (datastore : Datastore) {sub : ChangeSub} (hrequest : sub.lastRequest = 0)
    (hevent : sub.lastEvent = .none) :
    (b.noted (b.community.perform i refusal fun site s =>
      s.addChange site module datastore sub) (b.subscribed i module datastore sub)).Sound
        location := by
  cases hm : b.community.members[i]? with
  | none =>
      rw [Community.perform_of_none hm]
      show (b.subscribed i module datastore sub b.community).Sound location
      rw [hsound.subscribed_none hm]
      exact hsound
  | some m =>
      obtain ⟨ending, w, c', hperform, rfl, hkept, hkeeps, hadded⟩ :=
        hsound.kept.exists_perform hm refusal (fun site s => s.addChange site module datastore sub)
          fun others hbooks htidy => Store.addChange_leads hbooks htidy module datastore sub
      rw [hperform]
      have haired := hsound.aired.keeps hkeeps
      cases hadded with
      | failed e => exact hsound.of_community hkept haired (subscribers_set _ hm rfl)
      | joined place hplace =>
          exact hsound.joined hm hkept haired hplace rfl hrequest hevent
      | founded segment pipe hplace hopened =>
          exact hsound.founded hm hkept haired ⟨module, datastore, segment⟩ hplace hopened rfl
            hrequest hevent

/-- **Removing a subscription** takes its listener away. -/
theorem Sound.removeChange (hsound : b.Sound location) (i : Nat) (refusal : Option Error)
    (module : String) (datastore : Datastore) (sub : ChangeSub) :
    (b.noted (b.community.perform i refusal fun site s =>
      s.removeChange site module datastore sub) (b.unsubscribed i module datastore sub)).Sound
        location := by
  cases hm : b.community.members[i]? with
  | none =>
      rw [Community.perform_of_none hm]
      show (b.unsubscribed i module datastore sub b.community).Sound location
      rw [unsubscribed, hsound.modify_none hm]
      exact hsound
  | some m =>
      obtain ⟨a, ha, hsame⟩ := hsound.exists_audience hm
      obtain ⟨ending, w, c', hperform, rfl, hkept, hkeeps, hremoved⟩ :=
        hsound.kept.exists_perform hm refusal
          (fun site s => s.removeChange site module datastore sub)
          fun others hbooks htidy => Store.removeChange_leads hbooks htidy module datastore sub
      rw [hperform]
      have haired := hsound.aired.keeps hkeeps
      cases hremoved with
      | failed f => exact hsound.of_community hkept haired (subscribers_set _ hm rfl)
      | erased place entry hlocate =>
          obtain ⟨hleft, hentries⟩ := subscribers_leave hsame hlocate
          refine hsound.update ha hkept rfl haired (Grows.refl _) hleft fun x hx => ?_
          exact hsound.heeds a (List.mem_of_getElem? ha) x (hentries x hx)

end Broadcast

end Subscription
