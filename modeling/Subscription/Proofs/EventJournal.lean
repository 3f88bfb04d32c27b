import Subscription.Proofs.Opening

/-!
# Events are read as they were published

Several parties have handles on one segment, with mappings of whatever length,
and use them in turn: they publish events, mark them as consumed, and read
(`Use`).  What all of them together see is a single cell that holds a snapshot
(`Snapshot.after`, `Snapshot.reply`): the state of files, mappings and locks
does not show.

* `runAll_channel` — any sequence of uses of a channel succeeds and is answered as
  the cell answers it.
* `segment_answers_like_a_cell` — so does a segment that was just made, and no
  single use makes the file shorter, changes the count of readers or that of
  subscribers, or touches a byte behind what it has to write.
-/

namespace Subscription

/-! ## Uses of a segment -/

/-- What is done with a segment. -/
inductive Use where
  | publish (record : EventRecord) (payload : List UInt8)
  | consume
  | read
  deriving DecidableEq, Repr, Inhabited

/-- The answer to a use. -/
inductive Response where
  /-- Published under a request id. -/
  | published (requestId : UInt32)
  | consumed
  | copied (s : Snapshot)
  deriving DecidableEq, Repr, Inhabited

namespace Use

/-- Whether the length of the payload has thirty-two bits. -/
def Fits : Use → Prop
  | publish _ payload => payload.length < UInt32.size
  | _ => True

/-- The end of the bytes that a use may touch. -/
def reach (kind : HeaderKind) : Use → Nat
  | publish _ payload => kind.size + payload.length
  | consume => kind.size
  | read => lockExtent

end Use

namespace Snapshot

/-- The cell after a use. -/
def after (s : Snapshot) : Use → Snapshot
  | .publish record payload => s.posted record payload
  | .consume => s.cleared
  | .read => s

/-- The answer of the cell. -/
def reply (s : Snapshot) : Use → Response
  | .publish _ _ => .published (s.requestId + 1)
  | .consume => .consumed
  | .read => .copied s

/-- The answers of the cell to a sequence of uses. -/
def replies (s : Snapshot) : List Use → List Response
  | [] => []
  | use :: rest => s.reply use :: (s.after use).replies rest

end Snapshot

/-- Handles on a segment, with the host that they are used on. -/
structure Desk where
  handles : List Segment
  host : Host
  deriving Inhabited

/-- A use through one of the handles. -/
structure Visit where
  handle : Nat
  use : Use
  readTimeout : Span
  timeout : Span
  deriving Inhabited

namespace Visit

/-- The action that a use is. -/
def act (kind : HeaderKind) (v : Visit) : SegmentM Failure Response :=
  match v.use with
  | .publish record payload => do
      return .published (← Segment.writeEvent kind v.readTimeout record payload v.timeout)
  | .consume => do
      Segment.clearEvent v.readTimeout v.timeout
      return .consumed
  | .read => do return .copied (← Segment.readEvent kind v.readTimeout v.timeout)

/-- Uses a handle, which is kept as the use leaves it. -/
def run (kind : HeaderKind) (v : Visit) : EStateM Failure Desk Response :=
  onPart (fun d => ⟨d.handles.getD v.handle .unowned, d.host⟩)
    (fun a d => ⟨d.handles.set v.handle a.segment, a.host⟩) (v.act kind)

/-- Uses handles one after the other. -/
def runAll (kind : HeaderKind) : List Visit → EStateM Failure Desk (List Response)
  | [] => pure []
  | v :: rest => do
      let reply ← v.run kind
      let replies ← runAll kind rest
      return reply :: replies

end Visit

/-- Handles that are all on one file, which is a channel. -/
structure Desk.On (d : Desk) (file : FileId) (kind : HeaderKind) (s : Snapshot) : Prop where
  channel : d.host.Channel file kind s
  handles : ∀ t ∈ d.handles, t.file = some file

/-- A visit that can be made at a desk with a number of handles. -/
structure Visit.Fits (v : Visit) (handles : Nat) : Prop where
  handle : v.handle < handles
  use : v.use.Fits

/-! ## The cell -/

namespace Visit

variable {kind : HeaderKind} {file : FileId} {s : Snapshot} {d : Desk}

/-- **One use of a channel** is answered as the cell answers it. -/
theorem act_channel {h : Host} (hch : h.Channel file kind s) {t : Segment}
    (hfile : t.file = some file) (v : Visit) (hfits : v.use.Fits) :
    ∃ h', v.act kind ⟨t, h⟩ = .ok (s.reply v.use) (h'.fitted file) ∧
      h'.Channel file kind (s.after v.use) ∧ Host.Spares file (v.use.reach kind) h h' := by
  obtain ⟨handle, use, readTimeout, timeout⟩ := v
  cases use with
  | publish record payload =>
      obtain ⟨h', hrun, hresult⟩ :=
        Segment.writeEvent_channel hch hfile record hfits readTimeout timeout
      exact ⟨h', (bind_of_ok hrun).trans rfl, hresult⟩
  | consume =>
      obtain ⟨h', hrun, hresult⟩ := Segment.clearEvent_channel hch hfile readTimeout timeout
      exact ⟨h', (bind_of_ok hrun).trans rfl, hresult⟩
  | read =>
      obtain ⟨h', hrun, hresult⟩ := Segment.readEvent_channel hch hfile readTimeout timeout
      exact ⟨h', (bind_of_ok hrun).trans rfl, hresult⟩

/-- One use through one of the handles. -/
theorem run_channel (hon : d.On file kind s) (v : Visit) (hfits : v.Fits d.handles.length) :
    ∃ d', v.run kind d = .ok (s.reply v.use) d' ∧ d'.On file kind (s.after v.use) ∧
      d'.handles.length = d.handles.length ∧
      Host.Spares file (v.use.reach kind) d.host d'.host := by
  have hlt := hfits.handle
  have hfile : (d.handles.getD v.handle .unowned).file = some file := by
    rw [List.getD_eq_getElem?_getD, List.getElem?_eq_getElem hlt]
    exact hon.handles _ (List.getElem_mem hlt)
  obtain ⟨h', hact, hch, hspares⟩ := act_channel hon.channel hfile v hfits.use
  refine ⟨⟨d.handles.set v.handle (h'.fitted file).segment, h'⟩, onPart_of_ok hact,
    ⟨hch, ?_⟩, List.length_set, hspares⟩
  intro t ht
  rcases List.mem_or_eq_of_mem_set ht with hold | rfl
  · exact hon.handles t hold
  · rfl

/-- **Any sequence of uses of a channel** is answered as the cell answers it. -/
theorem runAll_channel (hon : d.On file kind s) (visits : List Visit)
    (hfits : ∀ v ∈ visits, v.Fits d.handles.length) :
    ∃ d', runAll kind visits d = .ok (s.replies (visits.map Visit.use)) d' ∧
      d'.On file kind ((visits.map Visit.use).foldl Snapshot.after s) ∧
      d'.handles.length = d.handles.length := by
  induction visits generalizing d s with
  | nil => exact ⟨d, rfl, hon, rfl⟩
  | cons v rest ih =>
      obtain ⟨d₁, hrun, hon₁, hcount, -⟩ := run_channel hon v (hfits v List.mem_cons_self)
      obtain ⟨d₂, hrest, hon₂, hcount₂⟩ := ih hon₁ fun v' hv' => by
        rw [hcount]
        exact hfits v' (List.mem_cons_of_mem _ hv')
      refine ⟨d₂, ?_, hon₂, hcount₂.trans hcount⟩
      unfold runAll
      refine (bind_of_ok hrun).trans ?_
      exact (bind_of_ok hrest).trans rfl

end Visit

/-! ## New segments -/

/-- A segment that was just made is a channel without an event. -/
theorem Segment.openSubscription_channel {path : String} {kind : HeaderKind} {mode : Nat}
    {h h₀ : Host} {s : Segment}
    (hopen : openSubscription path kind mode h = .ok (s, true) h₀) :
    ∃ file, s.file = some file ∧ h₀.Channel file kind (.blank kind) := by
  rcases openSubscription_cases path kind mode h with
    ⟨parent, last, s', h', -, -, -, hrun, hfile, hmade⟩ | ⟨file, s', h', -, hrun, -⟩ |
    ⟨e, h', hrun, -⟩
  · rw [hrun] at hopen
    cases hopen
    exact ⟨_, hfile, hmade.channel⟩
  · rw [hrun] at hopen
    cases hopen
  · rw [hrun] at hopen
    cases hopen

/-- No use changes the count of subscribers that a header keeps. -/
theorem Host.Channel.subscriberCount_after {h h' : Host} {file : FileId} {s : Snapshot}
    (hch : h.Channel file .multi s) {use : Use} (hch' : h'.Channel file .multi (s.after use)) :
    (h'.disk.content file).field .subscriberCount =
      (h.disk.content file).field .subscriberCount := by
  have hbefore : s.subscriberCount = some ((h.disk.content file).field .subscriberCount) :=
    hch.holds.subscriberCount
  have hafter : (s.after use).subscriberCount =
      some ((h'.disk.content file).field .subscriberCount) := hch'.holds.subscriberCount
  have hkept : (s.after use).subscriberCount = s.subscriberCount := by
    cases use <;> rfl
  rw [hkept, hbefore] at hafter
  exact (Option.some.inj hafter).symm

/-- **A segment answers like a cell.**  Let a segment just have been made, and let
any handles be on its file, with mappings of any length.  Then every sequence of
uses through any of them succeeds, and each use is answered as the cell answers
it: publishing gives the request id before it plus one, and reading gives what was
published last, without event and payload if that has been marked as consumed.
After any such sequence, one more use does not make the file shorter, and changes
neither the count of readers, nor that of subscribers, nor any byte of the file
behind the header and the payload. -/
theorem segment_answers_like_a_cell {path : String} {kind : HeaderKind} {mode : Nat}
    {h h₀ : Host} {s : Segment}
    (hopen : Segment.openSubscription path kind mode h = .ok (s, true) h₀) :
    ∃ file, s.file = some file ∧
      ∀ (handles : List Segment) (visits : List Visit) (v : Visit),
        (∀ t ∈ handles, t.file = some file) →
        (∀ v' ∈ v :: visits, v'.Fits handles.length) →
        let cell := (visits.map Visit.use).foldl Snapshot.after (.blank kind)
        ∃ d d', Visit.runAll kind visits ⟨handles, h₀⟩ =
            .ok ((Snapshot.blank kind).replies (visits.map Visit.use)) d ∧
          v.run kind d = .ok (cell.reply v.use) d' ∧
          Host.Spares file (v.use.reach kind) d.host d'.host ∧
          (kind = .multi → (d'.host.disk.content file).field .subscriberCount =
            (d.host.disk.content file).field .subscriberCount) := by
  obtain ⟨file, hfile, hch⟩ := Segment.openSubscription_channel hopen
  refine ⟨file, hfile, fun handles visits v hhandles hfits => ?_⟩
  obtain ⟨d, hrun, hon, hcount⟩ := Visit.runAll_channel (d := ⟨handles, h₀⟩) ⟨hch, hhandles⟩ visits
    fun v' hv' => hfits v' (List.mem_cons_of_mem _ hv')
  obtain ⟨d', hlast, hon', -, hspares⟩ := Visit.run_channel hon v
    (by rw [hcount]; exact hfits v List.mem_cons_self)
  refine ⟨d, d', hrun, hlast, hspares, ?_⟩
  intro hmulti
  subst hmulti
  exact hon.channel.subscriberCount_after hon'.channel

/-- The statement at a new file and two handles: one without a mapping, and one
whose mapping is longer than the file. -/
theorem segment_answers_like_a_cell_twice :
    ∃ s h₀, Segment.openSubscription "x" .multi 0o600 Host.fresh = .ok (s, true) h₀ ∧
      ∃ file, s.file = some file ∧
        ∃ d d', Visit.runAll .multi
            [⟨0, .publish ⟨.change, 7, 8, 9⟩ [1, 2, 3], default, default⟩,
              ⟨1, .read, default, default⟩]
            ⟨[⟨some file, none⟩, ⟨some file, some 5000⟩], h₀⟩ =
          .ok [.published 1, .copied ⟨.change, 1, 7, 8, some 9, some 0, [1, 2, 3]⟩] d ∧
        Visit.run .multi ⟨1, .consume, default, default⟩ d = .ok .consumed d' := by
  have hopen : Segment.openFile "x" 0o600 Host.fresh =
      .ok (0, true) (Host.fresh.withNewFile ["x"] (grantedMode 0o600)) := by
    with_unfolding_all rfl
  obtain ⟨s, h₀, hmade, -⟩ := Segment.openSubscription_made .multi (by decide) hopen
  obtain ⟨file, hfile, hcell⟩ := segment_answers_like_a_cell hmade
  have hshort : 3 < UInt32.size := by decide
  obtain ⟨d, d', hrun, hlast, -⟩ := hcell [⟨some file, none⟩, ⟨some file, some 5000⟩]
    [⟨0, .publish ⟨.change, 7, 8, 9⟩ [1, 2, 3], default, default⟩, ⟨1, .read, default, default⟩]
    ⟨1, .consume, default, default⟩ (by simp) (by
      intro v hv
      simp at hv
      rcases hv with rfl | rfl | rfl
      · exact ⟨Nat.lt_succ_self 1, trivial⟩
      · exact ⟨Nat.zero_lt_succ 1, hshort⟩
      · exact ⟨Nat.lt_succ_self 1, trivial⟩)
  exact ⟨s, h₀, hmade, file, hfile, d, d', hrun, hlast⟩

end Subscription
