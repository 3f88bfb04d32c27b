import Subscription.Segment.Publish
import Subscription.Proofs.ArbitraryBytes

/-!
# Channels

A *channel* is a file that holds an event and whose lock nobody has
(`Host.Channel`).  Through any handle on the file, whatever the length of its
mapping, an event can be published (`writeEvent_channel`), cleared
(`clearEvent_channel`) and read (`readEvent_channel`), without fail and whatever
the timeouts.  The file stays a channel, with what was published in it.

The argument goes through the handle whose mapping is as long as the file
(`Host.fitted`): a remap turns every handle into that one (`remap_none`), and
the actions under the lock keep it that way.
-/

namespace Subscription

/-- A file that holds an event, with a lock that nobody has. -/
structure Host.Channel (h : Host) (file : FileId) (kind : HeaderKind) (s : Snapshot) :
    Prop where
  regular : h.disk.IsRegular file
  short : (h.disk.content file).length ≤ maxFileLength
  idle : (h.lockAt (headLock file)).IsIdle
  holds : (h.disk.content file).Holds kind s

/-- A handle whose mapping is as long as the file. -/
def Host.fitted (h : Host) (file : FileId) : Attached :=
  ⟨⟨some file, some (h.disk.content file).length⟩, h⟩

/-- A file whose write lock the running party has. -/
structure Host.Held (h : Host) (file : FileId) : Prop where
  regular : h.disk.IsRegular file
  taken : (h.lockAt (headLock file)).mutex.IsTakenBy mainParty
  readers : (h.lockAt (headLock file)).readers = 0

/-- Two hosts of which the second one differs in the content of a file. -/
structure Host.Alters (file : FileId) (f : Content → Content) (h h' : Host) : Prop where
  only : OnlyFile file h h'
  content : h'.disk.content file = f (h.disk.content file)

/-- Two hosts of which the second one differs in one file at most.  That file has
not become shorter, as many readers are counted in its lock, and its bytes from
an offset on are the same, up to the old end. -/
structure Host.Spares (file : FileId) (stop : Nat) (h h' : Host) : Prop where
  only : OnlyFile file h h'
  grows : (h.disk.content file).length ≤ (h'.disk.content file).length
  readers : (h'.lockAt (headLock file)).readers = (h.lockAt (headLock file)).readers
  behind : ∀ i, stop ≤ i → i < (h.disk.content file).length →
    (h'.disk.content file).byte i = (h.disk.content file).byte i

/-- A change to contents that makes those which hold one snapshot hold another
one.  It leaves the lock alone, and all bytes from an offset on. -/
structure Content.Revises (kind : HeaderKind) (stop : Nat) (s s' : Snapshot)
    (f : Content → Content) : Prop where
  holds : ∀ c, Holds kind c s → Holds kind (f c) s'
  grows : ∀ c, c.length ≤ (f c).length
  short : ∀ c, c.length ≤ maxFileLength → (f c).length ≤ maxFileLength
  lock : ∀ c, 96 ≤ c.length → (f c).lockAt lockOffset = c.lockAt lockOffset
  behind : ∀ c i, stop ≤ i → i < c.length → (f c).byte i = c.byte i

theorem Disk.resizeFile_eq_ok_iff {d d' : Disk} {file : FileId} {n : Nat} :
    d.resizeFile file n = .ok d' ↔ d.IsRegular file ∧ n ≤ maxFileLength ∧
      d' = d.modifyFile file fun node => node.mapContent fun c => c.resize n := by
  have hlong : maxFileLength < maxLength := by decide
  unfold resizeFile
  by_cases hmax : maxLength < n
  · rw [if_pos hmax]
    exact ⟨nofun, fun h => absurd h.2.1 (by omega)⟩
  · rw [if_neg hmax]
    split
    · next mode c hnode =>
        have hreg : d.IsRegular file := ⟨mode, c, hnode⟩
        by_cases hfile : maxFileLength < n
        · rw [if_pos hfile]
          exact ⟨nofun, fun h => absurd h.2.1 (by omega)⟩
        · rw [if_neg hfile]
          constructor
          · intro h
            cases h
            exact ⟨hreg, Nat.not_lt.1 hfile, rfl⟩
          · intro h
            rw [h.2.2]
    · next hnot =>
        refine ⟨nofun, fun h => ?_⟩
        obtain ⟨⟨mode, c, hnode⟩, -⟩ := h
        exact absurd hnode (hnot mode c)

theorem Host.alters_resizeFile {h : Host} {disk : Disk} {file : FileId} {n : Nat}
    (hresize : h.disk.resizeFile file n = .ok disk) :
    Alters file (·.resize n) h { h with disk } := by
  obtain ⟨⟨mode, c, hnode⟩, -, rfl⟩ := Disk.resizeFile_eq_ok_iff.1 hresize
  refine ⟨onlyFile_modifyFile h file fun mode c => ⟨writtenMode mode, c.resize n, rfl⟩, ?_⟩
  rw [Disk.content, Disk.content, Disk.file?_modifyFile_same, hnode]
  rfl

theorem Host.Alters.trans {file : FileId} {f g : Content → Content} {h h₁ h₂ : Host}
    (hfirst : Alters file f h h₁) (hsecond : Alters file g h₁ h₂) :
    Alters file (fun c => g (f c)) h h₂ where
  only := hfirst.only.trans hsecond.only
  content := by rw [hsecond.content, hfirst.content]

namespace Segment

variable {ε α : Type} {h h' : Host} {file : FileId} {t : Segment}

/-! ## Mappings -/

/-- What lies inside the file may be accessed. -/
theorem require_fitted {offset count alignment : Nat}
    (hin : offset + count ≤ (h.disk.content file).length)
    (hshort : (h.disk.content file).length ≤ maxFileLength)
    (halign : offset % alignment = 0) :
    require offset count alignment (h.fitted file) = .ok () (h.fitted file) := by
  have hbound : maxFileLength < addressBound := by decide
  have hcheck : (h.fitted file).segment.check offset count alignment = .ok () := by
    show (if addressBound ≤ offset + count then _ else _) = _
    rw [if_neg (by omega), if_neg (by omega), if_neg (by omega)]
  unfold require
  refine get_bind_eq.trans ?_
  rw [hcheck]
  rfl

/-- **A remap makes up for any stale mapping.** -/
theorem remap_none (hfile : t.file = some file) (hpos : 0 < (h.disk.content file).length) :
    remap none ⟨t, h⟩ = .ok () (h.fitted file) := by
  rw [remap_fittedTo hfile, fittedTo_of_pos hfile hpos]
  rfl

/-- Giving the file another length succeeds, whatever the mapping was. -/
theorem remap_length {n : Nat} (hreg : h.disk.IsRegular file) (hfile : t.file = some file)
    (hother : n ≠ t.size) (hpos : n ≠ 0) (hshort : n ≤ maxFileLength) :
    ∃ h', remap (some n) ⟨t, h⟩ = .ok () (h'.fitted file) ∧
      Host.Alters file (·.resize n) h h' := by
  obtain ⟨hsame, -⟩ | ⟨-, disk, hresize, hremap⟩ | ⟨-, e, hrefused, -⟩ :=
    remap_some_cases (h := h) hfile n
  · exact absurd hsame hother
  · have haltered := Host.alters_resizeFile hresize
    refine ⟨{ h with disk }, ?_, haltered⟩
    have hlength : (disk.content file).length = n := by
      rw [haltered.content, Content.length_resize]
    rw [hremap, Host.fitted, hlength, fittedTo_of_pos hfile (Nat.pos_of_ne_zero hpos)]
  · exact absurd (Disk.resizeFile_eq_ok_iff.2 ⟨hreg, hshort, rfl⟩) (hrefused _)

/-- Changing the content keeps the mapping as long as the file. -/
theorem change_fitted {f : Content → Content} (hreg : h.disk.IsRegular file)
    (hlen : (f (h.disk.content file)).length = (h.disk.content file).length) :
    ∃ h', (change f : SegmentM ε Unit) (h.fitted file) = .ok () (h'.fitted file) ∧
      Host.Alters file f h h' := by
  have hcontent := Host.content_changeContent (f := f) hreg
  have hfitted : (h.changeContent file f).fitted file =
      ⟨⟨some file, some (h.disk.content file).length⟩, h.changeContent file f⟩ := by
    rw [Host.fitted, hcontent, hlen]
  refine ⟨h.changeContent file f, ?_, Host.onlyFile_changeContent h file f, hcontent⟩
  rw [hfitted]
  rfl

/-- The content is there to be looked at. -/
theorem content_fitted :
    (content : SegmentM ε Content) (h.fitted file) =
      .ok (h.disk.content file) (h.fitted file) := rfl

/-! ## The lock -/

/-- What is done with the lock keeps the mapping as long as the file. -/
theorem onHost_fitted {act : HostM ε α} {a : α} (hact : act h = .ok a h')
    (honly : Host.OnlyLock file h h') : onHost act (h.fitted file) = .ok a (h'.fitted file) := by
  have hfitted : h'.fitted file = ⟨⟨some file, some (h.disk.content file).length⟩, h'⟩ := by
    rw [Host.fitted, honly.length]
  rw [hfitted]
  exact onPart_of_ok hact

end Segment

namespace Host

variable {h h' : Host} {file : FileId} {kind : HeaderKind} {s : Snapshot}

theorem Channel.covers (hch : h.Channel file kind s) :
    120 ≤ (h.disk.content file).length := by
  have hsize := kind.size_bounds
  have hcovers := hch.holds.covers
  omega

theorem Channel.hasLock (hch : h.Channel file kind s) : h.HasLock file where
  regular := hch.regular
  covers := by
    have hcovers := hch.covers
    have hextent := Content.lengths_of_words.2
    omega

end Host

namespace Segment

open Host (headLock)

variable {α : Type} {h : Host} {file : FileId} {kind : HeaderKind} {s : Snapshot}

/-! ## Guards -/

theorem lockPlace_fitted (hcovers : lockSize ≤ (h.disk.content file).length) :
    lockPlace lockOffset (h.fitted file) = .ok (headLock file) (h.fitted file) :=
  lockPlace_of_reaches ⟨rfl, check_of_le _ (by rwa [lockOffset, Nat.zero_add]) (by decide)
    (by decide) (by decide)⟩ h

theorem lockPlace_channel (hch : h.Channel file kind s) :
    lockPlace lockOffset (h.fitted file) = .ok (headLock file) (h.fitted file) :=
  lockPlace_fitted (Nat.le_trans (by decide) hch.covers)

/-- The write lock of a channel is had at once. -/
theorem takeWriteGuard_channel (hch : h.Channel file kind s) (timeout readTimeout : Span)
    (holder : String) :
    ∃ h', takeGuard lockOffset timeout readTimeout .write holder (h.fitted file) =
        .ok ⟨lockOffset, readTimeout, .write, holder⟩ (h'.fitted file) ∧
      Host.OnlyLock file h h' ∧ h'.Held file := by
  obtain ⟨h', hlock, honly, htaken, hzero⟩ :=
    Host.lockWrite_idle hch.hasLock hch.idle mainParty timeout holder
  refine ⟨h', ?_, honly, honly.regular hch.regular, htaken, hzero⟩
  have htake : (onHost (mapFailure .error
      (Host.lockWrite (headLock file) mainParty timeout holder)) : SegmentM Failure Unit)
        (h.fitted file) = .ok () (h'.fitted file) :=
    onHost_fitted (mapFailure_of_ok hlock) honly
  unfold takeGuard
  refine (bind_of_ok (mapFailure_of_ok (lockPlace_channel hch))).trans ?_
  exact (bind_of_ok htake).trans rfl

/-- The write lock is given back at once. -/
theorem dropWriteGuard_held (hheld : h.Held file)
    (hcovers : lockSize ≤ (h.disk.content file).length) (readTimeout : Span)
    (holder : String) :
    ∃ h', dropWriteGuard ⟨lockOffset, readTimeout, .write, holder⟩ (h.fitted file) =
        .ok () (h'.fitted file) ∧
      Host.OnlyLock file h h' ∧ (h'.lockAt (headLock file)).IsIdle := by
  have hextent : lockExtent ≤ lockSize := by decide
  obtain ⟨h', hunlock, honly, hidle⟩ := Host.unlockWrite_held
    ⟨hheld.regular, Nat.le_trans hextent hcovers⟩ hheld.taken hheld.readers holder
  refine ⟨h', ?_, honly, hidle⟩
  unfold dropWriteGuard
  refine (bind_of_ok (attempt_of_ok (lockPlace_fitted hcovers))).trans ?_
  exact onHost_fitted hunlock honly

/-- **A revision under the write lock.**  The lock of a channel is taken, the
content is revised, and the lock is given back; what comes of it is a channel
again. -/
theorem withWriteLock_channel (hch : h.Channel file kind s) {act : SegmentM Error α} {a : α}
    {f : Content → Content} {s' : Snapshot} {stop : Nat} (hstop : lockExtent ≤ stop)
    (hrev : Content.Revises kind stop s s' f)
    (hact : ∀ h₁ : Host, h₁.disk.IsRegular file →
      (h₁.disk.content file).length = (h.disk.content file).length →
      (h₁.disk.content file).Holds kind s →
      ∃ h₂, act (h₁.fitted file) = .ok a (h₂.fitted file) ∧ Host.Alters file f h₁ h₂)
    (timeout readTimeout : Span) (holder : String) :
    ∃ h', withWriteLock timeout readTimeout holder act (h.fitted file) =
        .ok a (h'.fitted file) ∧
      h'.Channel file kind s' ∧ Host.Spares file stop h h' := by
  have hextent := Content.lengths_of_words.2
  have hcovers := hch.covers
  have hshort := hch.short
  obtain ⟨h₁, htake, hfirst, hheld⟩ := takeWriteGuard_channel hch timeout readTimeout holder
  have hholds₁ : (h₁.disk.content file).Holds kind s := by
    apply hch.holds.congr
    · rw [hfirst.length]
      exact hch.holds.covers
    · intro i hi _
      exact hfirst.behind i (by omega)
  obtain ⟨h₂, hrun, hsecond⟩ := hact h₁ hheld.regular hfirst.length hholds₁
  have hlen₁ := hfirst.length
  have hlen₂ : (h.disk.content file).length ≤ (h₂.disk.content file).length := by
    rw [hsecond.content, ← hlen₁]
    exact hrev.grows _
  have hshort₂ : (h₂.disk.content file).length ≤ maxFileLength := by
    rw [hsecond.content]
    exact hrev.short _ (by omega)
  have hlock₂ : h₂.lockAt (headLock file) = h₁.lockAt (headLock file) := by
    show (h₂.disk.content file).lockAt lockOffset = _
    rw [hsecond.content, hrev.lock _ (by omega)]
    rfl
  have hheld₂ : h₂.Held file := by
    refine ⟨hsecond.only.regular hheld.regular, ?_, ?_⟩
    · rw [hlock₂]
      exact hheld.taken
    · rw [hlock₂]
      exact hheld.readers
  obtain ⟨h₃, hdrop, hthird, hidle⟩ := dropWriteGuard_held hheld₂
    (show lockSize ≤ _ by rw [lockSize]; omega) readTimeout holder
  have hlen₃ := hthird.length
  refine ⟨h₃, ?_, ?_, ?_⟩
  · unfold withWriteLock
    refine (bind_of_ok htake).trans ?_
    refine (bind_of_ok (attempt_of_ok hrun)).trans ?_
    exact (bind_of_ok (mapFailure_of_ok hdrop)).trans rfl
  · have hholds₂ : (h₂.disk.content file).Holds kind s' := by
      rw [hsecond.content]
      exact hrev.holds _ hholds₁
    refine ⟨hthird.regular hheld₂.regular, by omega, hidle, ?_⟩
    apply hholds₂.congr
    · rw [hlen₃]
      exact hholds₂.covers
    · intro i hi _
      exact hthird.behind i (by omega)
  · refine ⟨(hfirst.toOnlyFile.trans hsecond.only).trans hthird.toOnlyFile, by omega, ?_, ?_⟩
    · rw [hidle.readers, hch.idle.readers]
    · intro i hi hin
      calc (h₃.disk.content file).byte i
          = (h₂.disk.content file).byte i := hthird.behind i (by omega)
        _ = (h₁.disk.content file).byte i := by
              rw [hsecond.content]
              exact hrev.behind _ i hi (by omega)
        _ = (h.disk.content file).byte i := hfirst.behind i (by omega)

/-! ## Publishing -/

/-- The file has room for the payload afterwards. -/
theorem makeRoom_fitted (hreg : h.disk.IsRegular file)
    (hcovers : 120 ≤ (h.disk.content file).length) (kind : HeaderKind) {payload : List UInt8}
    (hsmall : payload.length < UInt32.size) :
    ∃ h', makeRoom kind payload (h.fitted file) = .ok () (h'.fitted file) ∧
      Host.Alters file (·.grown (kind.size + payload.length)) h h' := by
  have hremap : remap none (h.fitted file) = .ok () (h.fitted file) :=
    remap_none rfl (by omega)
  by_cases hfull : (h.disk.content file).length < kind.size + payload.length
  · have hneeded : kind.size + payload.length ≤ maxFileLength := by
      have hsize := kind.size_bounds
      have hmax : maxFileLength = 17592186040320 := rfl
      have hword : UInt32.size = 4294967296 := rfl
      omega
    have hother : kind.size + payload.length ≠ (h.fitted file).segment.size := by
      show _ ≠ (h.disk.content file).length
      omega
    obtain ⟨h', hgrow, honly, hcontent⟩ :=
      remap_length hreg rfl hother (by omega) hneeded
    refine ⟨h', ?_, honly, ?_⟩
    · unfold makeRoom
      refine (bind_of_ok hremap).trans ?_
      refine get_bind_eq.trans ?_
      rw [if_pos (show (h.fitted file).segment.size < _ from hfull)]
      exact hgrow
    · rw [hcontent, Content.grown, if_pos hfull]
  · refine ⟨h, ?_, Host.OnlyFile.refl h, ?_⟩
    · unfold makeRoom
      refine (bind_of_ok hremap).trans ?_
      refine get_bind_eq.trans ?_
      rw [if_neg (show ¬ (h.fitted file).segment.size < _ from hfull)]
      rfl
    · rw [Content.grown, if_neg hfull]

/-- The event is stored under the next request id. -/
theorem storeEvent_fitted (hreg : h.disk.IsRegular file) {payload : List UInt8}
    (hfits : kind.size + payload.length ≤ (h.disk.content file).length)
    (hshort : (h.disk.content file).length ≤ maxFileLength) (record : EventRecord) :
    ∃ h', storeEvent kind record payload (h.fitted file) =
        .ok ((h.disk.content file).field .requestId + 1) (h'.fitted file) ∧
      Host.Alters file (·.stored kind record payload) h h' := by
  have hsize := kind.size_bounds
  obtain ⟨h₁, hwrite, hfirst⟩ :=
    change_fitted (ε := Error) (f := fun c => c.write kind.size payload) hreg
      (Content.length_write _ _ _)
  have hlen₁ : (h₁.disk.content file).length = (h.disk.content file).length := by
    rw [hfirst.content, Content.length_write]
  have hid : (h₁.disk.content file).field .requestId =
      (h.disk.content file).field .requestId := by
    rw [hfirst.content]
    apply Content.field_congr
    intro i _ hi
    have hi' : i < 104 := hi
    exact Content.byte_write_of_outside _ (by omega)
  have hset : setBytes kind.size payload (h.fitted file) = .ok () (h₁.fitted file) := by
    unfold setBytes
    exact (bind_of_ok (require_fitted hfits hshort (Nat.mod_one _))).trans hwrite
  have hrequire : ∀ {h' : Host}, (h'.disk.content file).length = (h.disk.content file).length →
      ∀ k : HeaderKind, k.size ≤ kind.size →
        require 0 k.size headerAlignment (h'.fitted file) = .ok () (h'.fitted file) := by
    intro h' hlen k hk
    exact require_fitted (by omega) (by omega) rfl
  have hsingle : HeaderKind.size .single ≤ kind.size := hsize.1
  -- Both kinds of headers have the five fields of the smaller one.
  obtain ⟨h₂, hfields, hsecond⟩ := change_fitted (ε := Error)
    (f := fun c => c.setFields (Content.newFields .single
      ((h₁.disk.content file).field .requestId + 1) record payload.length))
    (hfirst.only.regular hreg) (Content.length_setFields _)
  have hlen₂ : (h₂.disk.content file).length = (h.disk.content file).length := by
    rw [hsecond.content, Content.length_setFields, hlen₁]
  rw [← hid]
  cases kind with
  | single =>
      refine ⟨h₂, ?_, hfirst.only.trans hsecond.only, ?_⟩
      · unfold storeEvent
        refine (bind_of_ok hset).trans ?_
        refine (bind_of_ok (hrequire hlen₁ .single hsingle)).trans ?_
        refine (bind_of_ok content_fitted).trans ?_
        exact (bind_of_ok hfields).trans rfl
      · rw [hsecond.content, hid, hfirst.content]
        rfl
  | multi =>
      obtain ⟨h₃, hpriority, hthird⟩ := change_fitted (ε := Error)
        (f := fun c => c.setField .priority record.priority)
        (hsecond.only.regular (hfirst.only.regular hreg)) Content.length_setField
      refine ⟨h₃, ?_, (hfirst.only.trans hsecond.only).trans hthird.only, ?_⟩
      · unfold storeEvent
        refine (bind_of_ok hset).trans ?_
        refine (bind_of_ok (hrequire hlen₁ .single hsingle)).trans ?_
        refine (bind_of_ok content_fitted).trans ?_
        refine (bind_of_ok hfields).trans ?_
        refine (bind_of_ok (hrequire hlen₂ .multi (Nat.le_refl _))).trans ?_
        exact (bind_of_ok hpriority).trans rfl
      · rw [hthird.content, hsecond.content, hid, hfirst.content]
        rfl

/-- Publishing an event revises the content. -/
theorem revises_stored (kind : HeaderKind) (s : Snapshot) (record : EventRecord)
    {payload : List UInt8} (hsmall : payload.length < UInt32.size) :
    Content.Revises kind (kind.size + payload.length) s (s.posted record payload) fun c =>
      (c.grown (kind.size + payload.length)).stored kind record payload where
  holds c hholds := by
    apply (hholds.grown _).stored _ hsmall
    rw [Content.length_grown]
    omega
  grows c := by
    rw [Content.length_stored, Content.length_grown]
    omega
  short c hc := by
    have hsize := kind.size_bounds
    have hmax : maxFileLength = 17592186040320 := rfl
    have hword : UInt32.size = 4294967296 := rfl
    rw [Content.length_stored, Content.length_grown]
    omega
  lock c hc := by rw [Content.lockAt_stored, Content.lockAt_grown _ hc]
  behind c i hi hin := by rw [Content.byte_stored (Or.inr hi), Content.byte_grown _ hin]

/-- Marking an event as consumed revises the content. -/
theorem revises_consumed (kind : HeaderKind) (s : Snapshot) :
    Content.Revises kind kind.size s s.cleared Content.consumed where
  holds c hholds := hholds.consumed
  grows c := Nat.le_of_eq Content.length_consumed.symm
  short c hc := by rwa [Content.length_consumed]
  lock c _ := Content.lockAt_consumed
  behind c i hi _ := by
    have hsize := kind.size_bounds
    exact Content.byte_consumed (by omega)

/-- What a publisher does under the lock. -/
theorem publish_fitted (hreg : h.disk.IsRegular file)
    (hshort : (h.disk.content file).length ≤ maxFileLength)
    (hholds : (h.disk.content file).Holds kind s) (record : EventRecord) {payload : List UInt8}
    (hsmall : payload.length < UInt32.size) :
    ∃ h', (makeRoom kind payload >>= fun _ => storeEvent kind record payload)
        (h.fitted file) = .ok (s.requestId + 1) (h'.fitted file) ∧
      Host.Alters file (fun c =>
        (c.grown (kind.size + payload.length)).stored kind record payload) h h' := by
  have hsize := kind.size_bounds
  have hcovers := hholds.covers
  obtain ⟨h₁, hroom, hgrown⟩ := makeRoom_fitted hreg (by omega) kind hsmall
  have hfits : kind.size + payload.length ≤ (h₁.disk.content file).length := by
    rw [hgrown.content, Content.length_grown]
    omega
  have hshort₁ : (h₁.disk.content file).length ≤ maxFileLength := by
    have hstored := (revises_stored kind s record hsmall).short _ hshort
    rwa [Content.length_stored, ← hgrown.content] at hstored
  have hid : (h₁.disk.content file).field .requestId = s.requestId := by
    rw [hgrown.content]
    exact (hholds.grown _).requestId
  obtain ⟨h₂, hstore, hstored⟩ :=
    storeEvent_fitted (hgrown.only.regular hreg) hfits hshort₁ record
  rw [hid] at hstore
  exact ⟨h₂, (bind_of_ok hroom).trans hstore, hgrown.trans hstored⟩

/-- **An event can be published through any handle.** -/
theorem writeEvent_channel (hch : h.Channel file kind s) {t : Segment}
    (hfile : t.file = some file) (record : EventRecord) {payload : List UInt8}
    (hsmall : payload.length < UInt32.size) (readTimeout timeout : Span) :
    ∃ h', writeEvent kind readTimeout record payload timeout ⟨t, h⟩ =
        .ok (s.requestId + 1) (h'.fitted file) ∧
      h'.Channel file kind (s.posted record payload) ∧
      Host.Spares file (kind.size + payload.length) h h' := by
  have hsize := kind.size_bounds
  have hcovers := hch.covers
  have hextent := Content.lengths_of_words.2
  obtain ⟨h', hrun, hresult⟩ := withWriteLock_channel hch
    (show lockExtent ≤ kind.size + payload.length by omega)
    (revises_stored kind s record hsmall)
    (fun h₁ hreg hlen hholds =>
      publish_fitted hreg (by rw [hlen]; exact hch.short) hholds record hsmall)
    timeout readTimeout "EventWriter::write"
  refine ⟨h', ?_, hresult⟩
  unfold writeEvent
  rw [if_neg (by omega)]
  exact (bind_of_ok (mapFailure_of_ok (remap_none hfile (by omega)))).trans hrun

/-- **An event can be marked as consumed through any handle.** -/
theorem clearEvent_channel (hch : h.Channel file kind s) {t : Segment}
    (hfile : t.file = some file) (readTimeout timeout : Span) :
    ∃ h', clearEvent readTimeout timeout ⟨t, h⟩ = .ok () (h'.fitted file) ∧
      h'.Channel file kind s.cleared ∧ Host.Spares file kind.size h h' := by
  have hsize := kind.size_bounds
  have hcovers := hch.covers
  have hshort := hch.short
  have hextent := Content.lengths_of_words.2
  have hact : ∀ h₁ : Host, h₁.disk.IsRegular file →
      (h₁.disk.content file).length = (h.disk.content file).length →
      (h₁.disk.content file).Holds kind s →
      ∃ h₂, (require 0 (HeaderKind.size .single) headerAlignment >>= fun _ =>
          change Content.consumed) (h₁.fitted file) = .ok () (h₂.fitted file) ∧
        Host.Alters file Content.consumed h₁ h₂ := by
    intro h₁ hreg hlen _
    have hrequire : require 0 (HeaderKind.size .single) headerAlignment (h₁.fitted file) =
        .ok () (h₁.fitted file) :=
      require_fitted (by rw [hlen]; exact hcovers) (by omega) rfl
    obtain ⟨h₂, hchange, haltered⟩ :=
      change_fitted (ε := Error) (f := Content.consumed) hreg Content.length_consumed
    exact ⟨h₂, (bind_of_ok hrequire).trans hchange, haltered⟩
  obtain ⟨h', hrun, hresult⟩ := withWriteLock_channel hch
    (show lockExtent ≤ kind.size by omega) (revises_consumed kind s) hact
    timeout readTimeout "EventWriter::clear_event"
  refine ⟨h', ?_, hresult⟩
  unfold clearEvent
  exact (bind_of_ok (mapFailure_of_ok (remap_none hfile (by omega)))).trans hrun

/-! ## Reading -/

/-- **The event of a channel can be read through any handle.** -/
theorem readEvent_channel (hch : h.Channel file kind s) {t : Segment}
    (hfile : t.file = some file) (readTimeout timeout : Span) :
    ∃ h', readEvent kind readTimeout timeout ⟨t, h⟩ = .ok s (h'.fitted file) ∧
      h'.Channel file kind s ∧ Host.Spares file lockExtent h h' := by
  have hreg := hch.regular
  have hcovers := hch.covers
  have hmutex : ((h.disk.content file).lockAt lockOffset).mutex.IsFree := hch.idle.mutex
  have hzero : ((h.disk.content file).lockAt lockOffset).readers = 0 := hch.idle.readers
  have hadmits : (h.disk.content file).Admits := by
    refine ⟨hmutex.isAtRest, ?_⟩
    rw [hzero]
    decide
  obtain ⟨c', hrun, hunharmed⟩ := exists_readEvent hreg hfile (fun _ => hadmits) kind
    readTimeout timeout
  have hcontent := Host.content_withContent hreg c'
  have hlength : (h.disk.content file).length = c'.length := hunharmed.length.symm
  have hlock : (h.withContent file c').lockAt (headLock file) = c'.lockAt lockOffset :=
    Host.lockAt_withContent hreg c' lockOffset
  have hbytes : ∀ i, lockExtent ≤ i → c'.byte i = (h.disk.content file).byte i := fun i hi =>
    hunharmed.byte i (Content.not_isPrivate_of_le (Nat.le_trans (by decide) hi))
  have hlarge : lockSize ≤ (h.disk.content file).length := Nat.le_trans (by decide) hcovers
  rw [Host.withContent_content hreg, (Content.report_eq_ok_iff_holds
    (t.size_fittedTo _)).2 hch.holds, fittedTo_of_pos hfile (by omega)] at hrun
  refine ⟨h.withContent file c', ?_, ⟨?_, ?_, ⟨?_, ?_⟩, ?_⟩, ⟨?_, ?_, ?_, ?_⟩⟩
  · rw [hrun, Host.fitted, hcontent, hlength]
    rfl
  · exact Host.isRegular_withContent hreg c'
  · rw [hcontent, ← hlength]
    exact hch.short
  · rw [hlock]
    exact (hunharmed.mutex hlarge).isFree hmutex
  · rw [hlock, hunharmed.readers, hzero]
  · rw [hcontent]
    apply hch.holds.congr
    · rw [← hlength]
      exact hch.holds.covers
    · intro i hi _
      exact hbytes i (Nat.le_trans (by decide) hi)
  · exact Host.onlyFile_changeContent h file _
  · rw [hcontent]
    exact Nat.le_of_eq hlength
  · rw [hlock, hunharmed.readers]
    rfl
  · intro i hi _
    rw [hcontent]
    exact hbytes i hi

end Segment

end Subscription
