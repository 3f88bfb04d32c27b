import Subscription.Proofs.Stranding

/-!
# Segments stay as long as their headers

A segment is made as long as its header, and it is opened again as the same kind of
segment: the header goes with the traffic on it (`Suffix.header`), which is in its name.
So whatever plans are answered, they open a segment with the header that belongs to its
key (`Plan.Fitting`, `Order.fitting`, `Store.removeAll_fitting`).  Uses make no file
shorter, and so every segment that stands in the directory is long enough whenever it is
opened (`Host.Stocked`), and opening it does not change it.

`Host.Stocked` is kept by every answer to a fitting request (`stocked_answer`), and by
everything that stays within the frames of a use (`Host.Stocked.of_frames`).
-/

namespace Subscription

open Plan

/-! ## What plans ask segments for -/

/-- The header of segments that carry some traffic. -/
def Suffix.header : Suffix → HeaderKind
  | .running | .startup | .operational => .multi
  | .state | .rpc | .notif => .single

theorem Topic.header_eq (t : Topic) : t.header = t.suffix.header := by
  cases t with
  | changes xpath datastore priority options => cases datastore <;> rfl
  | data => rfl
  | rpc => rfl
  | notifications => rfl

/-- A segment is opened with the header that belongs to its key. -/
def Request.Fitting : Request → Prop
  | .openSegment key kind => kind = key.suffix.header
  | _ => True

namespace Plan

variable {α β : Type}

/-- Whatever it is answered, a plan asks for nothing but what is fitting. -/
def Fitting : Plan α → Prop
  | .done _ => True
  | .ask r next => r.Fitting ∧ ∀ a, (next a).Fitting

theorem fitting_pure (a : α) : (pure a : Plan α).Fitting := trivial

theorem fitting_ask {r : Request} {next : r.Answer → Plan β} (hr : r.Fitting)
    (hnext : ∀ a, (next a).Fitting) : (request r >>= next).Fitting := ⟨hr, hnext⟩

theorem Fitting.bind {p : Plan α} {next : α → Plan β} (hp : p.Fitting)
    (hnext : ∀ a, (next a).Fitting) : (p >>= next).Fitting := by
  induction p with
  | done a => exact hnext a
  | ask r rest ih => exact ⟨hp.1, fun a => ih a (hp.2 a)⟩

end Plan

namespace Store

theorem openAndPublish_fitting (d : Descriptor) : (openAndPublish d).Fitting := by
  unfold openAndPublish
  refine fitting_ask d.topic.header_eq ?_
  rintro (e | ⟨segment, created⟩)
  · exact fitting_pure _
  · refine fitting_ask trivial ?_
    rintro (e | ⟨⟩)
    · cases created with
      | true => exact fitting_ask trivial fun _ => fitting_pure _
      | false => exact fitting_pure _
    · exact fitting_pure _

theorem addChange_fitting (s : Store) (site : Site) (module : String) (datastore : Datastore)
    (sub : ChangeSub) : (s.addChange site module datastore sub).Fitting := by
  unfold addChange
  dsimp only
  split
  · refine fitting_ask trivial ?_
    rintro (e | ⟨⟩)
    · exact fitting_pure _
    · exact fitting_ask trivial fun _ => fitting_pure _
  · refine (openAndPublish_fitting _).bind ?_
    rintro (e | segment)
    · exact fitting_pure _
    · exact fitting_ask trivial fun _ => fitting_pure _

theorem addService_fitting (s : Store) (site : Site) (service : Service) (module xpath : String)
    (callback : CallbackId) (data : Option DataId) :
    (s.addService site service module xpath callback data).Fitting := by
  unfold addService
  refine (openAndPublish_fitting _).bind ?_
  rintro (e | segment)
  · exact fitting_pure _
  · exact fitting_ask trivial fun _ => fitting_pure _

theorem addNotification_fitting (s : Store) (site : Site) (module : String)
    (sub : NotificationSub) : (s.addNotification site module sub).Fitting := by
  unfold addNotification
  dsimp only
  split
  · refine fitting_ask trivial ?_
    rintro (e | ⟨⟩)
    · exact fitting_pure _
    · exact fitting_ask trivial fun _ => fitting_pure _
  · refine (openAndPublish_fitting _).bind ?_
    rintro (e | segment)
    · exact fitting_pure _
    · exact fitting_ask trivial fun _ => fitting_pure _

theorem retractOne_fitting (s : Store) (d : Descriptor) (without : Store) :
    (s.retractOne d without).Fitting := by
  unfold retractOne
  refine fitting_ask trivial ?_
  rintro (e | last)
  · exact fitting_pure _
  · cases last with
    | true => exact fitting_ask trivial fun _ => fitting_pure _
    | false => exact fitting_pure _

theorem removeChange_fitting (s : Store) (site : Site) (module : String) (datastore : Datastore)
    (sub : ChangeSub) : (s.removeChange site module datastore sub).Fitting := by
  unfold removeChange
  split
  · exact fitting_pure _
  · exact retractOne_fitting _ _ _

theorem removeService_fitting (s : Store) (site : Site) (service : Service)
    (module xpath : String) (callback : CallbackId) (data : Option DataId) :
    (s.removeService site service module xpath callback data).Fitting := by
  unfold removeService
  dsimp only
  split
  · exact fitting_pure _
  · exact retractOne_fitting _ _ _

theorem removeNotification_fitting (s : Store) (site : Site) (module : String)
    (q : NotificationQuery) : (s.removeNotification site module q).Fitting := by
  unfold removeNotification
  split
  · exact fitting_pure _
  · exact retractOne_fitting _ _ _

theorem retractBatch_fitting (batch : List Descriptor) (result : Bool × Option Error) :
    (retractBatch batch result).Fitting := by
  induction batch generalizing result with
  | nil => exact fitting_pure _
  | cons d rest ih =>
      unfold retractBatch
      refine fitting_ask trivial ?_
      rintro (e | last)
      · exact fitting_ask trivial fun _ => ih _
      · exact ih _

theorem retractBatches_fitting (batches : List (List Descriptor)) (failure : Option Error) :
    (retractBatches batches failure).Fitting := by
  induction batches generalizing failure with
  | nil => exact fitting_pure _
  | cons batch rest ih =>
      unfold retractBatches
      refine (retractBatch_fitting _ _).bind ?_
      rintro ⟨last, failure'⟩
      cases batch with
      | nil => exact ih _
      | cons d more =>
          cases last with
          | true => exact fitting_ask trivial fun _ => ih _
          | false => exact ih _

theorem retractGroups_fitting (groups : List (Store × List (List Descriptor)))
    (failure : Option Error) : (retractGroups groups failure).Fitting := by
  induction groups generalizing failure with
  | nil => exact fitting_pure _
  | cons g rest ih =>
      unfold retractGroups
      exact fitting_ask trivial fun _ => (retractBatches_fitting _ _).bind fun _ => ih _

theorem removeAll_fitting (s : Store) (site : Site) : (s.removeAll site).Fitting := by
  unfold removeAll
  refine (retractGroups_fitting _ _).bind ?_
  rintro (_ | e)
  · exact fitting_pure _
  · exact fitting_pure _

end Store

/-- **Every order** opens segments with the right header. -/
theorem Order.fitting {order : Order} {work : Order.Work} (hplan : order.plan = .ok work)
    (site : Site) (s : Store) : (work site s).Fitting := by
  exact Order.work_induction (P := fun work => (work site s).Fitting)
    (fun _ _ _ => Store.addChange_fitting _ _ _ _ _)
    (fun _ _ _ => Store.removeChange_fitting _ _ _ _ _)
    (fun _ _ _ _ _ => Store.addService_fitting _ _ _ _ _ _ _)
    (fun _ _ _ _ _ => Store.removeService_fitting _ _ _ _ _ _ _)
    (fun _ _ => Store.addNotification_fitting _ _ _ _)
    (fun _ _ => Store.removeNotification_fitting _ _ _ _) hplan

/-! ## What stands in the directory -/

/-- Each segment in the directory is a file that is long enough for its header, and nobody
is to come up later to return a lock in it. -/
structure Host.Stocked (directory : String) (location : Location) (h : Host) : Prop
    extends Host.Drawer directory location h where
  regular : ∀ key file, h.disk.standing directory key = some file → h.disk.IsRegular file
  roomy : ∀ key file, h.disk.standing directory key = some file →
    key.suffix.header.size ≤ (h.disk.content file).length
  leavers : h.leavers = []
  waiters : h.waiters = []

section Stock

variable {directory : String} {location : Location} {h h' : Host}

/-- What changes like a use changes keeps the stock. -/
theorem Host.Stocked.of_frames (hstocked : h.Stocked directory location)
    (hnames : names.keeps h h') (hlengths : lengths.keeps h h')
    (hunattended : unattended.keeps h h') : h'.Stocked directory location := by
  obtain ⟨hdrawer, hstanding⟩ := hstocked.toDrawer.congr hnames hlengths.1
  obtain ⟨hleavers, hwaiters⟩ := hunattended ⟨hstocked.leavers, hstocked.waiters⟩
  refine ⟨hdrawer, ?_, ?_, hleavers, hwaiters⟩
  · intro key file hfile
    rw [hstanding] at hfile
    exact (hlengths.2 file (hstocked.regular key file hfile)).1
  · intro key file hfile
    rw [hstanding] at hfile
    obtain ⟨-, hgrown⟩ := hlengths.2 file (hstocked.regular key file hfile)
    exact Nat.le_trans (hstocked.roomy key file hfile) hgrown

/-- What stood before is as it was, and what is new is a channel of its own kind. -/
theorem Host.Stocked.of_files (hstocked : h.Stocked directory location)
    (hdrawer : h'.Drawer directory location)
    (hfiles : ∀ file, h.disk.IsRegular file → h'.disk.file? file = h.disk.file? file)
    (hcases : ∀ key file, h'.disk.standing directory key = some file →
      h.disk.standing directory key = some file ∨
        h'.Channel file key.suffix.header (.blank key.suffix.header))
    (hleavers : h'.leavers = h.leavers) (hwaiters : h'.waiters = h.waiters) :
    h'.Stocked directory location := by
  refine ⟨hdrawer, ?_, ?_, hleavers.trans hstocked.leavers, hwaiters.trans hstocked.waiters⟩
  · intro key file hfile
    rcases hcases key file hfile with hold | hchannel
    · have hregular := hstocked.regular key file hold
      exact Disk.isRegular_congr (hfiles file hregular) hregular
    · exact hchannel.regular
  · intro key file hfile
    rcases hcases key file hfile with hold | hchannel
    · rw [Disk.content_congr (hfiles file (hstocked.regular key file hold))]
      exact hstocked.roomy key file hold
    · exact Nat.le_trans (Nat.le_add_right _ _) hchannel.holds.covers

/-- Opening a file that is long enough leaves all files alone. -/
theorem Host.Found.untouched {file : FileId} {kind : HeaderKind} (hfound : Found file kind h h')
    (hlong : kind.size ≤ (h.disk.content file).length) : Untouched h h' where
  entries := hfound.only.entries
  count := hfound.only.count
  files other _ := by
    by_cases hsame : other = file
    · rw [hsame]
      exact hfound.file hlong
    · exact hfound.only.others other hsame
  leavers := hfound.only.leavers
  waiters := hfound.only.waiters

theorem Host.Stocked.of_untouched (hstocked : h.Stocked directory location)
    (hsame : Untouched h h') : h'.Stocked directory location := by
  obtain ⟨hdrawer, hstanding⟩ := hstocked.toDrawer.congr hsame.entries hsame.count
  refine hstocked.of_files hdrawer hsame.files (fun key file hfile => ?_) hsame.leavers
    hsame.waiters
  rw [hstanding] at hfile
  exact .inl hfile

/-- **How the opening of a subscription segment ends** in a directory that is stocked: a new
one is made, or nothing changes. -/
theorem Host.Stocked.openSubscription (hstocked : h.Stocked directory location)
    (key : SegmentKey) (mode : Nat) :
    (∃ s h', Segment.openSubscription (Path.join directory key.name) key.suffix.header mode h =
        .ok (s, true) h' ∧ h.disk.standing directory key = none ∧
      Path.hasNul (Path.join directory key.name) = false ∧
      Made (location ++ [key.name]) key.suffix.header h h' ∧
      h'.disk.IsShelf directory location ∧
      h'.disk.standing directory =
        Function.update (h.disk.standing directory) key (some h.disk.files.length)) ∨
    (∃ s h', Segment.openSubscription (Path.join directory key.name) key.suffix.header mode h =
        .ok (s, false) h' ∧ Untouched h h') ∨
    ∃ e h', Segment.openSubscription (Path.join directory key.name) key.suffix.header mode h =
        .error e h' ∧ Untouched h h' := by
  rcases Segment.openSubscription_shelf hstocked.shelf key key.suffix.header mode with
    ⟨s, h', hopen, -, hnul, hfree, hmade, hshelf, hupdate⟩ |
    ⟨file, s, h', hopen, -, hstanding, hfound⟩ | hfailed
  · exact .inl ⟨s, h', hopen, hfree, hnul, hmade, hshelf, hupdate⟩
  · exact .inr (.inl ⟨s, h', hopen, hfound.untouched (hstocked.roomy key file hstanding)⟩)
  · exact .inr (.inr hfailed)

theorem Host.Stocked.of_made {key : SegmentKey} (hstocked : h.Stocked directory location)
    (hdrawer : h'.Drawer directory location)
    (hmade : Made (location ++ [key.name]) key.suffix.header h h')
    (hupdate : h'.disk.standing directory =
      Function.update (h.disk.standing directory) key (some h.disk.files.length)) :
    h'.Stocked directory location := by
  refine hstocked.of_files hdrawer (fun file hregular => ?_) (fun k file hfile => ?_)
    hmade.leavers hmade.waiters
  · obtain ⟨mode, c, hnode⟩ := hregular
    exact hmade.files file (List.getElem?_eq_some_iff.1 hnode).1
  · rw [hupdate] at hfile
    by_cases hsame : k = key
    · subst hsame
      rw [Function.update_self] at hfile
      rw [← Option.some.inj hfile]
      exact .inr hmade.channel
    · rw [Function.update_of_ne hsame] at hfile
      exact .inl hfile

/-- Taking a name away changes no file. -/
theorem Host.Stocked.removeQuietly (hstocked : h.Stocked directory location) (key : SegmentKey) :
    ∃ h', (Segment.removeQuietly (Path.join directory key.name) : HostM Empty Unit) h =
        .ok () h' ∧ h'.disk.files = h.disk.files ∧ h'.leavers = h.leavers ∧
      h'.waiters = h.waiters ∧ ∀ k file, h'.disk.standing directory k = some file →
        h.disk.standing directory k = some file := by
  cases hstanding : h.disk.standing directory key with
  | none =>
      obtain ⟨h', hremove, hdisk, hleavers, hwaiters⟩ :=
        Segment.removeQuietly_absent (ε := Empty) hstocked.shelf hstanding
      exact ⟨h', hremove, by rw [hdisk], hleavers, hwaiters, fun k file => by rw [hdisk]; exact id⟩
  | some file =>
      obtain ⟨h', hremove, hfiles, hleavers, hwaiters, -, hupdate⟩ :=
        Segment.removeQuietly_shelf (ε := Empty) hstocked.shelf hstanding
          (hstocked.speakable key (by rw [hstanding]; rfl))
      refine ⟨h', hremove, hfiles, hleavers, hwaiters, fun k other hother => ?_⟩
      rw [hupdate] at hother
      by_cases hsame : k = key
      · rw [hsame, Function.update_self] at hother
        cases hother
      · rwa [Function.update_of_ne hsame] at hother

variable {w : Shared} {cfg : Config}

/-- **No answer to a fitting request** puts the stock out of order. -/
theorem stocked_answer (hstocked : w.1.Stocked cfg.segmentDir location) (refusal : Option Error)
    {r : Request} (hr : r.Fitting) :
    ((Handler.refusing refusal).answer cfg r w).2.1.Stocked cfg.segmentDir location := by
  have hdrawer := (served hstocked.toDrawer refusal r).drawer
  cases r with
  | openSegment key kind =>
      obtain rfl : kind = key.suffix.header := hr
      rcases hstocked.openSubscription key cfg.mode.toNat with
        ⟨s, h', hopen, -, -, hmade, -, hupdate⟩ | ⟨s, h', hopen, hsame⟩ | ⟨e, h', hopen, hsame⟩
      · rw [show (Handler.refusing refusal).answer cfg (.openSegment key key.suffix.header) w = _
          from Store.answer_host refusal (attempt_of_ok hopen)] at hdrawer ⊢
        exact hstocked.of_made hdrawer hmade hupdate
      · rw [show (Handler.refusing refusal).answer cfg (.openSegment key key.suffix.header) w = _
          from Store.answer_host refusal (attempt_of_ok hopen)]
        exact hstocked.of_untouched hsame
      · rw [show (Handler.refusing refusal).answer cfg (.openSegment key key.suffix.header) w = _
          from Store.answer_host refusal (attempt_of_error hopen)]
        exact hstocked.of_untouched hsame
  | removeSegment key =>
      obtain ⟨h', hremove, hfiles, hleavers, hwaiters, hold⟩ := hstocked.removeQuietly key
      rw [show (Handler.refusing refusal).answer cfg (.removeSegment key) w = _ from
        Store.answer_host refusal hremove] at hdrawer ⊢
      refine hstocked.of_files hdrawer (fun file _ => ?_) (fun k file hk => .inl (hold k file hk))
        hleavers hwaiters
      rw [Disk.file?, Disk.file?, hfiles]
  | publish d =>
      rcases Store.answer_publish cfg refusal w d with hanswer | ⟨e, hanswer⟩ <;>
        · rw [hanswer]
          exact hstocked
  | retract d =>
      cases refusal with
      | some e => exact hstocked
      | none =>
          simp only [Handler.answer, Handler.refusing, Handler.shared]
          split <;> exact hstocked
  | note line =>
      rw [show (Handler.refusing refusal).answer cfg (.note line) w = _ from
        Store.answer_host refusal rfl]
      exact hstocked.of_untouched ⟨rfl, rfl, fun _ _ => rfl, rfl, rfl⟩
  | settle s => cases refusal <;> exact hstocked

/-- **No fitting plan** puts the stock out of order. -/
theorem stocked_run (hstocked : w.1.Stocked cfg.segmentDir location) (refusal : Option Error)
    {α : Type} {p : Plan α} (hp : p.Fitting) :
    (p.run ((Handler.refusing refusal).answer cfg) w).2.1.Stocked cfg.segmentDir location := by
  induction p generalizing w with
  | done a => exact hstocked
  | ask r next ih => exact ih _ (stocked_answer hstocked refusal hp.1) (hp.2 _)

end Stock

end Subscription
