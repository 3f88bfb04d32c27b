import Subscription.Proofs.Community

/-!
# Keeping the books

The registry knows every subscription by its descriptor, and the subscription itself
has a handle on a file.  The books of a community are the list of both
(`Shared.Books`): the registry holds exactly these descriptors, the handles are on the
files that stand in the segment directory, and no other file stands there.

What a plan asks for keeps the books, however it is answered:

* opening and publishing add one row, or none when something fails
  (`openAndPublish_leads`);
* publishing alone adds a row for a segment that is open already
  (`publishOpen_leads`);
* retracting takes one row away, and with the last one of a segment its file goes
  (`retractOne_leads`).  Between these two the books are off by that one file
  (`Shared.Loose`), so that the descriptors of a batch can be followed one by one
  (`retractBatches_leads`).

Nothing that is asked for changes what a segment of subscribers to changes holds
(`Host.KeepsChannels`).
-/

namespace Subscription

open scoped List

/-! ## Running plans -/

namespace Plan

variable {α β : Type} {answer : (r : Request) → StateM Shared r.Answer} {w : Shared}

/-- With the given answers, a plan ends with a result, and leaves a host and a registry,
of which something holds. -/
def Leads (answer : (r : Request) → StateM Shared r.Answer) (p : Plan α) (w : Shared)
    (Q : α → Shared → Prop) : Prop :=
  Q (p.run answer w).1 (p.run answer w).2

theorem leads_pure {Q : α → Shared → Prop} {a : α} (h : Q a w) :
    Leads answer (pure a) w Q := h

theorem Leads.bind {p : Plan α} {next : α → Plan β} {Q : α → Shared → Prop}
    {R : β → Shared → Prop} (hp : Leads answer p w Q)
    (hnext : ∀ a w', Q a w' → Leads answer (next a) w' R) : Leads answer (p >>= next) w R := by
  induction p generalizing w with
  | done a => exact hnext a w hp
  | ask r rest ih => exact ih (answer r w).1 hp

/-- A plan that asks for something goes on with the answer. -/
theorem leads_ask {r : Request} {next : r.Answer → Plan β} {R : β → Shared → Prop}
    {a : r.Answer} {w' : Shared} (hanswer : answer r w = (a, w'))
    (hnext : Leads answer (next a) w' R) : Leads answer (request r >>= next) w R := by
  refine Leads.bind (Q := fun b u => (b, u) = (a, w')) ?_ fun b u heq => ?_
  · exact hanswer
  · cases heq
    exact hnext

theorem Leads.mono {p : Plan α} {Q R : α → Shared → Prop} (hp : Leads answer p w Q)
    (himp : ∀ a w', Q a w' → R a w') : Leads answer p w R := himp _ _ hp

end Plan

/-! ## Channels that are kept -/

/-- Whatever segment of subscribers to changes was there still holds what it held. -/
structure Host.KeepsChannels (h h' : Host) : Prop where
  grows : h.disk.files.length ≤ h'.disk.files.length
  channels : ∀ file s, h.Channel file .multi s → h'.Channel file .multi s

namespace Host

variable {h h' h'' : Host} {file : FileId} {kind : HeaderKind} {s : Snapshot}
variable {location : Location}

/-- A channel is in its file alone. -/
theorem Channel.of_file? (hch : h.Channel file kind s)
    (hsame : h'.disk.file? file = h.disk.file? file) : h'.Channel file kind s where
  regular := Disk.isRegular_congr hsame hch.regular
  short := by
    rw [Disk.content_congr hsame]
    exact hch.short
  idle := by
    rw [lockAt, Disk.content_congr hsame]
    exact hch.idle
  holds := by
    rw [Disk.content_congr hsame]
    exact hch.holds

theorem Channel.lt (hch : h.Channel file kind s) : file < h.disk.files.length := by
  obtain ⟨mode, c, hnode⟩ := hch.regular
  exact (List.getElem?_eq_some_iff.1 hnode).1

theorem KeepsChannels.refl (h : Host) : KeepsChannels h h := ⟨Nat.le_refl _, fun _ _ hch => hch⟩

theorem KeepsChannels.trans (hfirst : KeepsChannels h h') (hsecond : KeepsChannels h' h'') :
    KeepsChannels h h'' :=
  ⟨Nat.le_trans hfirst.grows hsecond.grows,
    fun file s hch => hsecond.channels file s (hfirst.channels file s hch)⟩

theorem keepsChannels_of_files (hfiles : h'.disk.files = h.disk.files) : KeepsChannels h h' where
  grows := Nat.le_of_eq (by rw [hfiles])
  channels _ _ hch := hch.of_file? (by rw [Disk.file?, Disk.file?, hfiles])

theorem Untouched.keepsChannels (hsame : Untouched h h') : KeepsChannels h h' where
  grows := Nat.le_of_eq hsame.count.symm
  channels file _ hch := hch.of_file? (hsame.files file hch.regular)

theorem Made.keepsChannels (hmade : Made location kind h h') : KeepsChannels h h' where
  grows := by rw [hmade.count]; exact Nat.le_succ _
  channels file _ hch := hch.of_file? (hmade.files file hch.lt)

/-- A segment that is opened again is long enough for any header. -/
theorem Found.keepsChannels (hfound : Found file kind h h') : KeepsChannels h h' where
  grows := Nat.le_of_eq hfound.only.count.symm
  channels other _ hch := by
    refine hch.of_file? ?_
    by_cases hsame : other = file
    · subst hsame
      have hsizes : kind.size ≤ HeaderKind.size .multi := by cases kind <;> decide
      have hcovers := hch.holds.covers
      exact hfound.file (by omega)
    · exact hfound.only.others other hsame

end Host

/-! ## The books -/

/-- A row of the books: the descriptor of a subscription, and the file that its handle
is on. -/
abbrev BookRow := Descriptor × Option FileId

namespace Shared

/-- The registry holds the descriptors of the rows, and the handles are on the files
that stand in the directory. -/
structure Recorded (directory : String) (location : Location) (w : Shared)
    (rows : List BookRow) : Prop where
  shelf : w.1.disk.IsShelf directory location
  speakable : ∀ key, (w.1.disk.standing directory key).isSome = true →
    Path.hasNul (Path.join directory key.name) = false
  ordered : w.2.InOrder
  descriptors : w.2.all ~ rows.map Prod.fst
  handles : ∀ row ∈ rows, row.2 = w.1.disk.standing directory row.1.key

/-- Besides, files stand in the directory for the rows, and no others. -/
structure Books (directory : String) (location : Location) (w : Shared) (rows : List BookRow) : Prop
    extends Recorded directory location w rows where
  stands : ∀ key, (w.1.disk.standing directory key).isSome = true ↔ ∃ row ∈ rows, row.1.key = key

/-- The same, but for the file under one key, which is there with or without rows. -/
structure Loose (directory : String) (location : Location) (key : SegmentKey) (w : Shared)
    (rows : List BookRow) : Prop extends Recorded directory location w rows where
  stands : ∀ k, k ≠ key →
    ((w.1.disk.standing directory k).isSome = true ↔ ∃ row ∈ rows, row.1.key = k)
  there : (w.1.disk.standing directory key).isSome = true

variable {directory : String} {location : Location} {w w' : Shared} {rows rows' : List BookRow}
variable {key : SegmentKey} {d : Descriptor}

/-- The order of the rows does not matter. -/
theorem Recorded.perm (hrec : Recorded directory location w rows) (hperm : rows ~ rows') :
    Recorded directory location w rows' where
  shelf := hrec.shelf
  speakable := hrec.speakable
  ordered := hrec.ordered
  descriptors := hrec.descriptors.trans (hperm.map _)
  handles row hrow := hrec.handles row (hperm.mem_iff.2 hrow)

theorem Books.perm (hbooks : Books directory location w rows) (hperm : rows ~ rows') :
    Books directory location w rows' where
  toRecorded := hbooks.toRecorded.perm hperm
  stands k := by
    rw [hbooks.stands k]
    exact ⟨fun ⟨row, hrow, hkey⟩ => ⟨row, hperm.mem_iff.1 hrow, hkey⟩,
      fun ⟨row, hrow, hkey⟩ => ⟨row, hperm.mem_iff.2 hrow, hkey⟩⟩

/-- Only the names and the registry matter. -/
theorem Books.congr {h' : Host} (hbooks : Books directory location w rows)
    (hentries : h'.disk.entries = w.1.disk.entries) :
    Books directory location (h', w.2) rows := by
  obtain ⟨hshelf, hstanding⟩ := hbooks.shelf.congr hentries
  refine ⟨⟨hshelf, ?_, hbooks.ordered, hbooks.descriptors, ?_⟩, ?_⟩
  · intro k hk
    rw [hstanding] at hk
    exact hbooks.speakable k hk
  · intro row hrow
    rw [hstanding]
    exact hbooks.handles row hrow
  · intro k
    rw [hstanding]
    exact hbooks.stands k

theorem Books.loose (hbooks : Books directory location w rows) (key : SegmentKey)
    (hthere : (w.1.disk.standing directory key).isSome = true) :
    Loose directory location key w rows :=
  ⟨hbooks.toRecorded, fun k _ => hbooks.stands k, hthere⟩

theorem Loose.books (hloose : Loose directory location key w rows)
    (hused : ∃ row ∈ rows, row.1.key = key) : Books directory location w rows where
  toRecorded := hloose.toRecorded
  stands k := by
    by_cases hk : k = key
    · subst hk
      exact iff_of_true hloose.there hused
    · exact hloose.stands k hk

theorem used_cons_of_ne {file : Option FileId} {k : SegmentKey} (hk : k ≠ d.key) :
    (∃ row ∈ (d, file) :: rows, row.1.key = k) ↔ ∃ row ∈ rows, row.1.key = k := by
  simp [Ne.symm hk]

/-- One more descriptor. -/
theorem Loose.publish (hloose : Loose directory location d.key w rows) :
    Loose directory location d.key (w.1, w.2.publish d)
      ((d, w.1.disk.standing directory d.key) :: rows) := by
  obtain ⟨hordered, hall⟩ := Registry.publish_all hloose.ordered d
  refine ⟨⟨hloose.shelf, hloose.speakable, hordered, ?_, ?_⟩, ?_, hloose.there⟩
  · exact hall.trans (hloose.descriptors.cons d)
  · intro row hrow
    rcases List.mem_cons.1 hrow with rfl | hrow
    · rfl
    · exact hloose.handles row hrow
  · intro k hk
    exact (hloose.stands k hk).trans (used_cons_of_ne hk).symm

/-- One descriptor less, and the answer tells whether the file is needed any more. -/
theorem Loose.retract {file : Option FileId}
    (hloose : Loose directory location d.key w ((d, file) :: rows)) :
    ∃ last r', w.2.retract d = .ok (last, r') ∧ Loose directory location d.key (w.1, r') rows ∧
      (last = true ↔ ∀ row ∈ rows, row.1.key ≠ d.key) := by
  have hmem : d ∈ w.2.all := hloose.descriptors.mem_iff.2 (by simp)
  obtain ⟨last, r', hretract, hordered, hall, hlast⟩ :=
    Registry.retract_all hloose.ordered hmem
  have hrest : r'.all ~ rows.map Prod.fst :=
    List.Perm.cons_inv (hall.trans hloose.descriptors)
  refine ⟨last, r', hretract, ⟨⟨hloose.shelf, hloose.speakable, hordered, hrest, ?_⟩, ?_,
    hloose.there⟩, ?_⟩
  · intro row hrow
    exact hloose.handles row (List.mem_cons_of_mem _ hrow)
  · intro k hk
    exact (hloose.stands k hk).trans (used_cons_of_ne hk)
  · rw [hlast]
    constructor
    · intro hnone row hrow
      exact hnone row.1 (hrest.mem_iff.2 (List.mem_map_of_mem hrow))
    · intro hnone d' hd'
      obtain ⟨row, hrow, rfl⟩ := List.mem_map.1 (hrest.mem_iff.1 hd')
      exact hnone row hrow

/-- The file under a key is removed when it is not needed any more. -/
theorem Loose.remove {ε : Type} (hloose : Loose directory location key w rows)
    (hunused : ∀ row ∈ rows, row.1.key ≠ key) :
    ∃ h', (Segment.removeQuietly (Path.join directory key.name) : HostM ε Unit) w.1 = .ok () h' ∧
      Books directory location (h', w.2) rows ∧ Host.KeepsChannels w.1 h' := by
  obtain ⟨file, hstanding⟩ := Option.isSome_iff_exists.1 hloose.there
  obtain ⟨h', hremove, hfiles, -, -, hshelf, hupdate⟩ := Segment.removeQuietly_shelf
    hloose.shelf hstanding (hloose.speakable key hloose.there)
  have hother : ∀ k, k ≠ key →
      h'.disk.standing directory k = w.1.disk.standing directory k := by
    intro k hk
    rw [hupdate, Function.update_of_ne hk]
  have hgone : h'.disk.standing directory key = none := by rw [hupdate, Function.update_self]
  refine ⟨h', hremove, ⟨⟨hshelf, ?_, hloose.ordered, hloose.descriptors, ?_⟩, ?_⟩,
    Host.keepsChannels_of_files hfiles⟩
  · intro k hk
    by_cases hsame : k = key
    · subst hsame
      simp [hgone] at hk
    · rw [hother k hsame] at hk
      exact hloose.speakable k hk
  · intro row hrow
    rw [hother _ (hunused row hrow)]
    exact hloose.handles row hrow
  · intro k
    by_cases hsame : k = key
    · subst hsame
      rw [hgone]
      exact iff_of_false (by simp) fun ⟨row, hrow, hkey⟩ => hunused row hrow hkey
    · rw [hother k hsame]
      exact hloose.stands k hsame

/-- A file that is made is one that no row is about yet. -/
theorem Books.made {h' : Host} (hbooks : Books directory location w rows)
    (hnul : Path.hasNul (Path.join directory key.name) = false)
    (hfree : w.1.disk.standing directory key = none)
    (hshelf : h'.disk.IsShelf directory location)
    (hupdate : h'.disk.standing directory =
      Function.update (w.1.disk.standing directory) key (some w.1.disk.files.length)) :
    Loose directory location key (h', w.2) rows ∧ ∀ row ∈ rows, row.1.key ≠ key := by
  have hunused : ∀ row ∈ rows, row.1.key ≠ key := by
    intro row hrow hkey
    have hstands := (hbooks.stands key).2 ⟨row, hrow, hkey⟩
    simp [hfree] at hstands
  have hother : ∀ k, k ≠ key →
      h'.disk.standing directory k = w.1.disk.standing directory k := by
    intro k hk
    rw [hupdate, Function.update_of_ne hk]
  have hthere : (h'.disk.standing directory key).isSome = true := by
    rw [hupdate, Function.update_self]
    rfl
  refine ⟨⟨⟨hshelf, ?_, hbooks.ordered, hbooks.descriptors, ?_⟩, ?_, hthere⟩, hunused⟩
  · intro k hk
    by_cases hsame : k = key
    · subst hsame
      exact hnul
    · rw [hother k hsame] at hk
      exact hbooks.speakable k hk
  · intro row hrow
    rw [hother _ (hunused row hrow)]
    exact hbooks.handles row hrow
  · intro k hk
    rw [hother k hk]
    exact hbooks.stands k

end Shared

/-! ## What plans ask for -/

namespace Store

open Shared Plan

variable {cfg : Config} {location : Location} {w : Shared} {rows : List BookRow}
variable {refusal : Option Error}

/-- What a plan asks of the host is answered by the host. -/
theorem answer_host (refusal : Option Error) {α : Type} {act : HostM Empty α} {a : α} {h' : Host}
    (hact : act w.1 = .ok a h') : (Handler.refusing refusal).host act w = (a, (h', w.2)) := by
  cases refusal <;> simp [Handler.refusing, Handler.shared, hact]

/-- The registry publishes, or refuses and is as it was. -/
theorem answer_publish (cfg : Config) (refusal : Option Error) (w : Shared) (d : Descriptor) :
    (Handler.refusing refusal).answer cfg (.publish d) w = (.ok (), (w.1, w.2.publish d)) ∨
      ∃ e, (Handler.refusing refusal).answer cfg (.publish d) w = (.error e, w) := by
  cases refusal with
  | none => exact .inl rfl
  | some e => exact .inr ⟨e, rfl⟩

/-- The registry retracts, or refuses and is as it was. -/
theorem answer_retract {d : Descriptor} {last : Bool} {r' : Registry}
    (hretract : w.2.retract d = .ok (last, r')) (cfg : Config) (refusal : Option Error) :
    (Handler.refusing refusal).answer cfg (.retract d) w = (.ok last, (w.1, r')) ∨
      refusal.isSome = true ∧
        ∃ e, (Handler.refusing refusal).answer cfg (.retract d) w = (.error e, w) := by
  cases refusal with
  | none =>
      left
      simp only [Handler.answer, Handler.refusing, Handler.shared, hretract]
      rfl
  | some e => exact .inr ⟨rfl, e, rfl⟩

/-- Where the handle of a new subscription is on: the file that stands there, or a new
one that holds no event. -/
def Opened (directory : String) (d : Descriptor) (h h' : Host) (file : Option FileId) : Prop :=
  (∃ f, file = some f ∧ h.disk.standing directory d.key = some f) ∨
    (file = some h.disk.files.length ∧
      h'.Channel h.disk.files.length d.topic.header (.blank d.topic.header))

/-- **Opening and publishing** adds a row, or nothing. -/
theorem openAndPublish_leads (hbooks : Books cfg.segmentDir location w rows) (d : Descriptor) :
    Leads ((Handler.refusing refusal).answer cfg) (openAndPublish d) w fun result w' =>
      Host.KeepsChannels w.1 w'.1 ∧
      match result with
      | .ok segment =>
          Books cfg.segmentDir location w' ((d, segment.file) :: rows) ∧
            Opened cfg.segmentDir d w.1 w'.1 segment.file
      | .error _ => Books cfg.segmentDir location w' rows := by
  unfold openAndPublish
  rcases Segment.openSubscription_shelf hbooks.shelf d.key d.topic.header cfg.mode.toNat with
    ⟨s, h', hopen, hfile, hnul, hfree, hmade, hshelf, hupdate⟩ |
    ⟨file, s, h', hopen, hfile, hstanding, hfound⟩ | ⟨e, h', hopen, huntouched⟩
  · -- The file is a new one: nobody else has a row about it.
    obtain ⟨hloose, hunused⟩ := hbooks.made hnul hfree hshelf hupdate
    have hthere : h'.disk.standing cfg.segmentDir d.key = s.file := by
      rw [hupdate, Function.update_self, hfile]
    refine leads_ask (answer_host refusal (attempt_of_ok hopen)) ?_
    rcases answer_publish cfg refusal (h', w.2) d with hpublish | ⟨e, hpublish⟩
    · refine leads_ask hpublish (leads_pure ⟨hmade.keepsChannels, ?_, .inr ⟨hfile, hmade.channel⟩⟩)
      have hpublished := hloose.publish
      rw [hthere] at hpublished
      exact hpublished.books ⟨_, List.mem_cons_self, rfl⟩
    · obtain ⟨h'', hremove, hbooks', hkeeps⟩ := hloose.remove (ε := Empty) hunused
      refine leads_ask hpublish (leads_ask (answer_host refusal hremove) ?_)
      exact leads_pure ⟨hmade.keepsChannels.trans hkeeps, hbooks'⟩
  · have hbooks' := hbooks.congr hfound.only.entries
    obtain ⟨-, hsame⟩ := hbooks.shelf.congr hfound.only.entries
    have hthere : h'.disk.standing cfg.segmentDir d.key = s.file := by
      rw [hsame, hstanding, hfile]
    refine leads_ask (answer_host refusal (attempt_of_ok hopen)) ?_
    rcases answer_publish cfg refusal (h', w.2) d with hpublish | ⟨e, hpublish⟩
    · refine leads_ask hpublish
        (leads_pure ⟨hfound.keepsChannels, ?_, .inl ⟨file, hfile, hstanding⟩⟩)
      have hpublished := (hbooks'.loose d.key (by rw [hthere, hfile]; rfl)).publish
      rw [hthere] at hpublished
      exact hpublished.books ⟨_, List.mem_cons_self, rfl⟩
    · exact leads_ask hpublish (leads_pure ⟨hfound.keepsChannels, hbooks'⟩)
  · refine leads_ask (answer_host refusal (attempt_of_error hopen)) ?_
    exact leads_pure ⟨huntouched.keepsChannels, hbooks.congr huntouched.entries⟩

/-- **Publishing** for a segment that is open adds a row. -/
theorem publishOpen_leads (hbooks : Books cfg.segmentDir location w rows) {d d' : Descriptor}
    {file : Option FileId} (hopen : (d', file) ∈ rows) (hkey : d'.key = d.key)
    {α : Type} {next : Except Error Unit → Plan α} {R : α → Shared → Prop}
    (hdone : Books cfg.segmentDir location (w.1, w.2.publish d) ((d, file) :: rows) →
      Leads ((Handler.refusing refusal).answer cfg) (next (.ok ())) (w.1, w.2.publish d) R)
    (hrefused : ∀ e, Leads ((Handler.refusing refusal).answer cfg) (next (.error e)) w R) :
    Leads ((Handler.refusing refusal).answer cfg) (Plan.publish d >>= next) w R := by
  rcases answer_publish cfg refusal w d with hpublish | ⟨e, hpublish⟩
  · refine leads_ask hpublish (hdone ?_)
    have hfile : file = w.1.disk.standing cfg.segmentDir d.key := by
      rw [← hkey]
      exact hbooks.handles _ hopen
    have hthere := (hbooks.stands d.key).2 ⟨_, hopen, hkey⟩
    rw [hfile]
    exact ((hbooks.loose d.key hthere).publish).books ⟨_, List.mem_cons_self, rfl⟩
  · exact leads_ask hpublish (hrefused e)

theorem there_of_mem (hbooks : Books cfg.segmentDir location w rows) {row : BookRow}
    (hrow : row ∈ rows) : (w.1.disk.standing cfg.segmentDir row.1.key).isSome = true :=
  (hbooks.stands row.1.key).2 ⟨row, hrow, rfl⟩

/-- **Retracting** takes a row away, and the file with the last one. -/
theorem retractOne_leads {d : Descriptor} {file : Option FileId}
    (hbooks : Books cfg.segmentDir location w ((d, file) :: rows)) (s without : Store) :
    Leads ((Handler.refusing refusal).answer cfg) (s.retractOne d without) w fun ending w' =>
      Host.KeepsChannels w.1 w'.1 ∧
        ((ending = (.ok (), without) ∧ Books cfg.segmentDir location w' rows) ∨
          ∃ e, ending = s.failed e ∧ w' = w) := by
  have hthere := there_of_mem hbooks List.mem_cons_self
  have hloose := hbooks.loose d.key hthere
  obtain ⟨last, r', hretract, hloose', hlast⟩ := hloose.retract
  unfold retractOne
  rcases answer_retract hretract cfg refusal with hanswer | ⟨-, e, hanswer⟩
  · refine leads_ask hanswer ?_
    cases last with
    | false =>
        have hused : ∃ row ∈ rows, row.1.key = d.key := by
          by_contra hnone
          exact absurd (hlast.2 fun row hrow hkey => hnone ⟨row, hrow, hkey⟩) (by simp)
        exact leads_pure ⟨Host.KeepsChannels.refl _, .inl ⟨rfl, hloose'.books hused⟩⟩
    | true =>
        obtain ⟨h', hremove, hbooks', hkeeps⟩ := hloose'.remove (ε := Empty) (hlast.1 rfl)
        refine leads_ask (answer_host refusal hremove) ?_
        exact leads_pure ⟨hkeeps, .inl ⟨rfl, hbooks'⟩⟩
  · exact leads_ask hanswer (leads_pure ⟨Host.KeepsChannels.refl _, .inr ⟨e, rfl, rfl⟩⟩)

/-! ## Removing everything -/

/-- Rows for descriptors. -/
def rowsOf (file : Descriptor → Option FileId) (ds : List Descriptor) : List BookRow :=
  ds.map fun d => (d, file d)

/-- **The descriptors of one segment** are retracted one by one; only the answer to the
last of them can be that nobody is left. -/
theorem retractBatch_leads {key : SegmentKey} (file : Descriptor → Option FileId)
    (failure : Option Error) (batch : List Descriptor) (hbatch : batch ≠ [])
    (hkeys : ∀ d ∈ batch, d.key = key) {w : Shared}
    (hloose : Loose cfg.segmentDir location key w (rowsOf file batch ++ rows)) :
    Leads ((Handler.refusing none).answer cfg) (retractBatch batch (false, failure)) w
      fun result w' => w'.1 = w.1 ∧ Loose cfg.segmentDir location key w' rows ∧
        result.2 = failure ∧ (result.1 = true ↔ ∀ row ∈ rows, row.1.key ≠ key) := by
  induction batch generalizing w with
  | nil => exact absurd rfl hbatch
  | cons d rest ih =>
      have hkey : d.key = key := hkeys d List.mem_cons_self
      subst hkey
      have hsplit : rowsOf file (d :: rest) ++ rows =
          (d, file d) :: (rowsOf file rest ++ rows) := rfl
      rw [hsplit] at hloose
      obtain ⟨last, r', hretract, hloose', hlast⟩ := hloose.retract
      unfold retractBatch
      rcases answer_retract hretract cfg none with hanswer | ⟨hnone, -⟩
      · refine leads_ask hanswer ?_
        cases rest with
        | nil =>
            refine leads_pure ⟨rfl, hloose', rfl, ?_⟩
            simpa [rowsOf] using hlast
        | cons d' rest =>
            have hnotLast : last = false := by
              rw [← Bool.not_eq_true, hlast]
              intro hnone
              exact hnone (d', file d') (by simp [rowsOf]) (hkeys d' (by simp))
            subst hnotLast
            exact ih (by simp) (fun x hx => hkeys x (List.mem_cons_of_mem _ hx)) hloose'
      · cases hnone

/-- The descriptors of several segments, one segment after the other. -/
theorem retractBatches_leads (file : Descriptor → Option FileId) (failure : Option Error)
    (batches : List (List Descriptor))
    (hbatches : ∀ batch ∈ batches, batch ≠ [] ∧ ∃ key, ∀ d ∈ batch, d.key = key) {w : Shared}
    (hbooks : Books cfg.segmentDir location w (rowsOf file batches.flatten ++ rows)) :
    Leads ((Handler.refusing none).answer cfg) (retractBatches batches failure) w
      fun result w' => Host.KeepsChannels w.1 w'.1 ∧ Books cfg.segmentDir location w' rows ∧
        result = failure := by
  induction batches generalizing w with
  | nil => exact leads_pure ⟨Host.KeepsChannels.refl _, hbooks, rfl⟩
  | cons batch rest ih =>
      obtain ⟨hbatch, key, hkeys⟩ := hbatches batch List.mem_cons_self
      have hrest := fun b hb => hbatches b (List.mem_cons_of_mem _ hb)
      have hsplit : rowsOf file (batch :: rest).flatten ++ rows =
          rowsOf file batch ++ (rowsOf file rest.flatten ++ rows) := by
        simp [rowsOf]
      rw [hsplit] at hbooks
      obtain ⟨d, more, rfl⟩ := List.exists_cons_of_ne_nil hbatch
      have hkey : d.key = key := hkeys d List.mem_cons_self
      have hrow : (d, file d) ∈ rowsOf file (d :: more) ++ (rowsOf file rest.flatten ++ rows) := by
        simp [rowsOf]
      have hthere := there_of_mem hbooks hrow
      rw [hkey] at hthere
      unfold retractBatches
      refine (retractBatch_leads file failure (d :: more) hbatch hkeys
        (hbooks.loose key hthere)).bind ?_
      rintro ⟨last, failure'⟩ w₁ ⟨hhost, hloose, rfl, hlast⟩
      cases last with
      | false =>
          have hused : ∃ row ∈ rowsOf file rest.flatten ++ rows, row.1.key = key := by
            by_contra hnone
            exact absurd (hlast.2 fun row hrow hk => hnone ⟨row, hrow, hk⟩) (by simp)
          refine (ih hrest (hloose.books hused)).mono fun result w₂ hdone => ?_
          rw [← hhost]
          exact hdone
      | true =>
          obtain ⟨h', hremove, hbooks', hkeeps⟩ := hloose.remove (ε := Empty) (hlast.1 rfl)
          rw [← hkey] at hremove
          refine leads_ask (answer_host none hremove) ?_
          refine (ih hrest hbooks').mono ?_
          rintro result w₂ ⟨hkeeps', hdone⟩
          exact ⟨(hhost ▸ hkeeps).trans hkeeps', hdone⟩

/-- The same for all groups; that a group is out of the store first makes no difference
here. -/
theorem retractGroups_leads (file : Descriptor → Option FileId) (failure : Option Error)
    (groups : List (Store × List (List Descriptor)))
    (hbatches : ∀ g ∈ groups, ∀ batch ∈ g.2, batch ≠ [] ∧ ∃ key, ∀ d ∈ batch, d.key = key)
    {w : Shared}
    (hbooks : Books cfg.segmentDir location w
      (rowsOf file (groups.flatMap fun g => g.2.flatten) ++ rows)) :
    Leads ((Handler.refusing none).answer cfg) (retractGroups groups failure) w
      fun result w' => Host.KeepsChannels w.1 w'.1 ∧ Books cfg.segmentDir location w' rows ∧
        result = failure := by
  induction groups generalizing w with
  | nil => exact leads_pure ⟨Host.KeepsChannels.refl _, hbooks, rfl⟩
  | cons g rest ih =>
      obtain ⟨left, batches⟩ := g
      have hsplit : rowsOf file (((left, batches) :: rest).flatMap fun g => g.2.flatten) ++ rows =
          rowsOf file batches.flatten ++
            (rowsOf file (rest.flatMap fun g => g.2.flatten) ++ rows) := by
        simp [rowsOf]
      rw [hsplit] at hbooks
      unfold retractGroups
      refine leads_ask (show _ = ((), w) from rfl) ?_
      refine (retractBatches_leads file failure batches
        (hbatches _ List.mem_cons_self) hbooks).bind ?_
      rintro result w₁ ⟨hkeeps, hbooks₁, rfl⟩
      refine (ih (fun g hg => hbatches g (List.mem_cons_of_mem _ hg)) hbooks₁).mono ?_
      rintro result w₂ ⟨hkeeps₂, hdone⟩
      exact ⟨hkeeps.trans hkeeps₂, hdone⟩

end Store

end Subscription
