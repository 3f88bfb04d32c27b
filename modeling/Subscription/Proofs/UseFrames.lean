import Subscription.Proofs.Opening

/-!
# Uses of segments from afar

Reading and publishing change what is in files, and whoever waits for a lock may
have others come up meanwhile.  What this comes to, however a use ends, is said by
frames.  A frame of the host admits uses of segments (`Host.Admits`) when it admits the
few things that they are made of: lines of the log, words of a lock, time that passes,
bytes that are replaced, and files that grow.  Then every use stays within it, and the
handle stays on its file; only the length of its mapping may change
(`Segment.readEvent_within`, `Segment.writeEvent_within`, `Segment.clearEvent_within`).

* A use neither gives nor takes a name (`Host.names`).
* It makes no file shorter (`Host.lengths`): a publisher cuts a file to the length that
  it needs, but only when it has just found the file too short for that.
* Where nobody is to come up later, nobody will be (`Host.unattended`).

This holds of any file and of any state of its lock, so that nothing has to be known
about either.
-/

namespace Subscription

/-- What goes on around a lock stays within the frame, but for time that passes. -/
structure Host.AdmitsLocks (F : Frame Host) : Prop where
  note : ∀ h level text, F.keeps h (h.note level text)
  lock : ∀ h place lock, F.keeps h (h.setLock place lock)

/-- What goes on around the use of a segment stays within the frame. -/
structure Host.Admits (F : Frame Host) : Prop extends AdmitsLocks F where
  elapse : ∀ {ε : Type} limit enough steps, Within F (elapse limit enough steps : HostM ε Unit)
  rewrite : ∀ h file f, (∀ c : Content, (f c).length = c.length) →
    F.keeps h (h.changeContent file f)
  grow : ∀ h file length disk, (h.disk.content file).length ≤ length →
    h.disk.resizeFile file length = .ok disk → F.keeps h { h with disk }

/-- The host has changed within a frame, and the handle is on the same file. -/
def Frame.attached (F : Frame Host) : Frame Attached where
  keeps a a' := a'.segment.file = a.segment.file ∧ F.keeps a.host a'.host
  refl a := ⟨rfl, F.refl a.host⟩
  trans hab hbc := ⟨hbc.1.trans hab.1, F.trans hab.2 hbc.2⟩

namespace Host

variable {ε : Type} {F : Frame Host}

/-! ## Around a lock -/

namespace AdmitsLocks

theorem setMutex (hF : AdmitsLocks F) (h : Host) (place : LockPlace) (mutex : Mutex) :
    F.keeps h (h.setMutex place mutex) := by
  unfold Host.setMutex
  dsimp only
  split
  · exact F.refl h
  · exact hF.lock _ _ _

theorem say (hF : AdmitsLocks F) (level : LogLevel) (text : String) :
    Within F (say level text : HostM ε Unit) :=
  Within.modify fun h => hF.note h level text

theorem tryMutex (hF : AdmitsLocks F) (place : LockPlace) (p : Party) (limit : Int) :
    Within F (tryMutex place p limit : HostM ε Grant) :=
  Within.modifyGet fun h => hF.setMutex h _ _

theorem tryRelease (hF : AdmitsLocks F) (place : LockPlace) (p : Party) :
    Within F (tryRelease place p : HostM ε (Option Errno)) :=
  Within.modifyGet fun h => hF.setMutex h _ _

theorem releaseMutex (hF : AdmitsLocks F) (place : LockPlace) (p : Party) :
    Within F (releaseMutex place p : HostM ε Unit) := by
  refine Within.bind (hF.tryRelease place p) fun failed => ?_
  cases failed with
  | none => exact Within.pure _
  | some e => exact hF.say _ _

theorem countOut (hF : AdmitsLocks F) (place : LockPlace) (p : Party) (holder : String) :
    Within F (countOut place p holder : HostM ε Unit) := by
  refine Within.bind Within.get fun h => ?_
  split
  · exact Within.bind (Within.modify fun h => hF.lock h _ _) fun _ => hF.releaseMutex place p
  · exact Within.bind (hF.say _ _) fun _ => hF.releaseMutex place p

theorem tryReturn (hF : AdmitsLocks F) (l : Leaver) :
    Within F (tryReturn l : HostM ε Bool) := by
  refine Within.bind (hF.tryMutex _ _ _) fun grant => ?_
  cases grant with
  | granted => exact Within.bind (hF.countOut _ _ _) fun _ => Within.pure _
  | recovered =>
      exact Within.bind (hF.say _ _) fun _ =>
        Within.bind (hF.countOut _ _ _) fun _ => Within.pure _
  | refused e => exact Within.bind (hF.say _ _) fun _ => Within.pure _
  | busy => exact Within.pure _

/-- Who comes up, and when, does not matter to a frame that looks at the disk alone. -/
theorem turn (hF : AdmitsLocks F) (hdisk : ∀ h h' : Host, h'.disk = h.disk → F.keeps h h')
    (turn : Turn) : Within F (turn.run : HostM ε Unit) := by
  cases turn with
  | comesUp l =>
      refine Within.bind (Within.modify fun _ => hdisk _ _ rfl) fun _ => ?_
      refine Within.bind (hF.tryReturn l) fun ended => ?_
      split
      · exact Within.pure _
      · exact Within.modify fun _ => hdisk _ _ rfl
  | isServed l =>
      exact Within.bind (Within.modify fun _ => hdisk _ _ rfl) fun _ =>
        Within.bind (hF.tryReturn l) fun _ => Within.pure _
  | givesUp l => exact Within.bind (Within.modify fun _ => hdisk _ _ rfl) fun _ => hF.say _ _

theorem elapse (hF : AdmitsLocks F) (hdisk : ∀ h h' : Host, h'.disk = h.disk → F.keeps h h')
    (limit : Int) (enough : Host → Bool) (steps : Nat) :
    Within F (elapse limit enough steps : HostM ε Unit) := by
  induction steps with
  | zero => exact Within.modify fun _ => hdisk _ _ rfl
  | succ steps ih =>
      refine Within.bind Within.get fun h => ?_
      split
      · exact Within.pure _
      · refine Within.bind Within.get fun h => ?_
        split
        · exact Within.bind (hF.turn hdisk _) fun _ => ih
        · exact Within.modify fun _ => hdisk _ _ rfl

end AdmitsLocks

namespace Admits

theorem takeMutex (hF : Admits F) (place : LockPlace) (p : Party) (limit : Int)
    (mode : LockMode) (holder : String) : Within F (takeMutex place p limit mode holder) := by
  refine Within.bind (hF.tryMutex _ _ _) fun grant => ?_
  cases grant with
  | granted => exact Within.pure _
  | recovered => exact hF.say _ _
  | busy =>
      refine Within.bind ?_ fun _ => Within.throw _
      exact Within.bind Within.get fun h => hF.elapse _ _ _
  | refused e => exact Within.throw _

theorem leaveQueue (hF : Admits F) (place : LockPlace) :
    Within F (leaveQueue place : HostM ε Unit) :=
  Within.modify fun h => hF.lock h _ _

theorem awaitReaders (hF : Admits F) (place : LockPlace) (p : Party) (limit : Int)
    (holder : String) : Within F (awaitReaders place p limit holder) := by
  refine Within.bind Within.get fun h => ?_
  split
  · exact Within.pure _
  · refine Within.bind (hF.tryRelease _ _) fun failed => ?_
    dsimp only
    split
    · exact Within.bind (hF.leaveQueue _) fun _ => Within.throw_bind _ _
    · refine Within.bind Within.get fun h => Within.bind (hF.elapse _ _ _) fun _ =>
        Within.bind Within.get fun h => ?_
      -- Whatever the wait has come to, the mutex is asked for once more.
      split
      · refine Within.bind (hF.tryMutex _ _ _) fun grant => ?_
        split
        · exact Within.throw_bind _ _
        · exact Within.bind (hF.say _ _) fun _ => Within.pure _
        · exact Within.pure _
      · refine Within.bind (hF.leaveQueue _) fun _ =>
          Within.bind (hF.tryMutex _ _ _) fun grant => ?_
        split
        · exact Within.throw_bind _ _
        · exact Within.bind (hF.say _ _) fun _ => Within.throw _
        · exact Within.throw _

theorem lockWrite (hF : Admits F) (place : LockPlace) (p : Party) (timeout : Span)
    (holder : String) : Within F (lockWrite place p timeout holder) := by
  refine Within.bind Within.get fun h => ?_
  refine Within.bind (hF.takeMutex _ _ _ _ _) fun _ => ?_
  refine Within.bind (Within.attempt (hF.awaitReaders _ _ _ _)) fun result => ?_
  cases result with
  | ok _ => exact Within.pure _
  | error e => exact Within.bind (hF.releaseMutex _ _) fun _ => Within.throw _

theorem countIn (hF : Admits F) (place : LockPlace) (p : Party) (holder : String) :
    Within F (countIn place p holder) := by
  refine Within.bind Within.get fun h => ?_
  split
  · exact Within.bind (Within.modify fun h => hF.lock h _ _) fun _ => hF.releaseMutex _ _
  · exact Within.throw _

theorem lockRead (hF : Admits F) (place : LockPlace) (p : Party) (timeout readTimeout : Span)
    (holder : String) : Within F (lockRead place p timeout readTimeout holder) := by
  refine Within.bind Within.get fun h => ?_
  refine Within.bind (Within.mapFailure (hF.takeMutex _ _ _ _ _)) fun _ => ?_
  exact Within.mapFailure (hF.countIn _ _ _)

theorem takeLock (hF : Admits F) (place : LockPlace) (p : Party) (timeout readTimeout : Span)
    (mode : LockMode) (holder : String) :
    Within F (Host.lock place p timeout readTimeout mode holder) := by
  cases mode with
  | read => exact hF.lockRead _ _ _ _ _
  | write => exact Within.mapFailure (hF.lockWrite _ _ _ _)

theorem unlockRead (hF : Admits F) (place : LockPlace) (p : Party) (readTimeout : Span)
    (holder : String) : Within F (unlockRead place p readTimeout holder : HostM ε Unit) := by
  refine Within.bind Within.get fun h => ?_
  refine Within.bind (Within.attempt (hF.takeMutex _ _ _ _ _)) fun result => ?_
  cases result with
  | ok _ => exact hF.countOut _ _ _
  | error e => exact hF.say _ _

theorem unlockWrite (hF : Admits F) (place : LockPlace) (p : Party) (holder : String) :
    Within F (unlockWrite place p holder) := by
  refine Within.bind Within.get fun h => ?_
  dsimp only
  split
  · exact hF.releaseMutex _ _
  · exact Within.throw _

end Admits

end Host

/-! ## Through a handle -/

namespace Segment

open Host (Admits)

variable {ε α : Type} {F : Frame Host}

theorem onHost_within {act : HostM ε α} (hact : Within F act) : Within F.attached (onHost act) :=
  Within.onPart (fun _ _ hkept => ⟨rfl, hkept⟩) hact

theorem unmap_within : Within F.attached (unmap : SegmentM ε Unit) :=
  Within.modify fun a => ⟨rfl, F.refl a.host⟩

theorem fileLength_within : Within F.attached fileLength := by
  refine Within.bind Within.get fun a => ?_
  split
  · exact Within.pure _
  · exact Within.throw _

theorem require_within (offset count alignment : Nat) :
    Within F.attached (require offset count alignment) :=
  Within.bind Within.get fun _ => Within.ofExcept _

theorem content_within : Within F.attached (content : SegmentM ε Content) :=
  Within.bind Within.get fun _ => Within.pure _

theorem bytes_within (offset count : Nat) : Within F.attached (bytes offset count) :=
  Within.bind (require_within _ _ _) fun _ => Within.bind content_within fun _ => Within.pure _

theorem lockPlace_within (offset : Nat) : Within F.attached (lockPlace offset) := by
  refine Within.bind (require_within _ _ _) fun _ => ?_
  refine Within.bind Within.get fun a => ?_
  split
  · exact Within.pure _
  · exact Within.throw _

theorem map_within (target : Nat) : Within F.attached
    (if target ≠ 0 then
      modify fun a => { a with segment := { a.segment with mapping := some target } }
    else pure PUnit.unit : SegmentM ε PUnit) := by
  split
  · exact Within.modify fun a => ⟨rfl, F.refl a.host⟩
  · exact Within.pure _

theorem remap_none_within : Within F.attached (remap none) := by
  refine Within.bind fileLength_within fun target => Within.bind Within.get fun a => ?_
  split
  · exact Within.pure _
  · exact Within.bind unmap_within fun _ => map_within target

theorem change_within (hF : Admits F) {f : Content → Content}
    (hlength : ∀ c, (f c).length = c.length) :
    Within F.attached (change f : SegmentM ε Unit) := by
  refine Within.modify fun a => ?_
  split
  next file _ => exact ⟨rfl, hF.rewrite a.host file f hlength⟩
  next => exact F.attached.refl a

theorem setBytes_within (hF : Admits F) (offset : Nat) (new : List UInt8) :
    Within F.attached (setBytes offset new) :=
  Within.bind (require_within _ _ _) fun _ =>
    change_within hF fun _ => Content.length_write _ _ _

theorem takeGuard_within (hF : Admits F) (offset : Nat) (timeout readTimeout : Span)
    (mode : LockMode) (holder : String) :
    Within F.attached (takeGuard offset timeout readTimeout mode holder) :=
  Within.bind (Within.mapFailure (lockPlace_within _)) fun _ =>
    Within.bind (onHost_within (hF.takeLock _ _ _ _ _ _)) fun _ => Within.pure _

theorem dropReadGuard_within (hF : Admits F) (g : Guard) :
    Within F.attached (dropReadGuard g : SegmentM ε Unit) := by
  refine Within.bind (Within.attempt (lockPlace_within _)) fun result => ?_
  cases result with
  | ok place => exact onHost_within (hF.unlockRead _ _ _ _)
  | error e => exact onHost_within (hF.say _ _)

theorem dropWriteGuard_within (hF : Admits F) (g : Guard) :
    Within F.attached (dropWriteGuard g) := by
  refine Within.bind (Within.attempt (lockPlace_within _)) fun result => ?_
  cases result with
  | ok place => exact onHost_within (hF.unlockWrite _ _ _)
  | error e => exact onHost_within (hF.say _ _)

theorem withReadLock_within (hF : Admits F) (timeout readTimeout : Span) (holder : String)
    {act : SegmentM Error α} (hact : Within F.attached act) :
    Within F.attached (withReadLock timeout readTimeout holder act) :=
  Within.bind (takeGuard_within hF _ _ _ _ _) fun _ => Within.bind (Within.attempt hact) fun _ =>
    Within.bind (dropReadGuard_within hF _) fun _ => Within.mapFailure (Within.ofExcept _)

theorem withWriteLock_within (hF : Admits F) (timeout readTimeout : Span) (holder : String)
    {act : SegmentM Error α} (hact : Within F.attached act) :
    Within F.attached (withWriteLock timeout readTimeout holder act) :=
  Within.bind (takeGuard_within hF _ _ _ _ _) fun _ => Within.bind (Within.attempt hact) fun _ =>
    Within.bind (Within.mapFailure (dropWriteGuard_within hF _)) fun _ =>
      Within.mapFailure (Within.ofExcept _)

/-! ## Reading -/

theorem copyEvent_within (kind : HeaderKind) : Within F.attached (copyEvent kind) := by
  refine Within.bind (require_within _ _ _) fun _ => ?_
  refine Within.bind Within.get fun a => ?_
  refine Within.bind content_within fun c => ?_
  dsimp only
  split
  · exact Within.pure _
  · cases kind with
    | single =>
        exact Within.bind (Within.pure _) fun _ => Within.bind (Within.ofExcept _) fun _ =>
          Within.bind (bytes_within _ _) fun _ => Within.pure _
    | multi =>
        exact Within.bind (require_within _ _ _) fun _ => Within.bind (Within.pure _) fun _ =>
          Within.bind (Within.ofExcept _) fun _ => Within.bind (bytes_within _ _) fun _ =>
            Within.pure _

theorem tryRead_within (hF : Admits F) (kind : HeaderKind) (readTimeout timeout : Span) :
    Within F.attached (tryRead kind readTimeout timeout) :=
  Within.bind (Within.mapFailure remap_none_within) fun _ =>
    withReadLock_within hF _ _ _ (copyEvent_within kind)

/-- **Reading** stays within every frame that admits uses. -/
theorem readEvent_within (hF : Admits F) (kind : HeaderKind) (readTimeout timeout : Span) :
    Within F.attached (readEvent kind readTimeout timeout) := by
  refine Within.bind (tryRead_within hF _ _ _) fun first => ?_
  cases first with
  | ok s => exact Within.pure _
  | error fault =>
      refine Within.bind (tryRead_within hF _ _ _) fun second => ?_
      cases second with
      | ok s => exact Within.pure _
      | error fault => exact Within.throw _

/-! ## Publishing -/

/-- A handle without a file cannot be brought in line with it. -/
theorem remap_none_unowned {a : Attached} (hfile : a.segment.file = none) :
    ∃ e, remap none a = .error e a := by
  refine ⟨.system "fstat" (.errno .badDescriptor), ?_⟩
  have hlength : fileLength a = .error (.system "fstat" (.errno .badDescriptor)) a := by
    unfold fileLength
    refine get_bind_eq.trans ?_
    simp only [hfile]
    rfl
  unfold remap
  exact bind_of_error hlength

/-- A file that is given a length it does not exceed grows, or stays as it is. -/
theorem remap_some_keeps (hF : Admits F) {a : Attached} {file : FileId} {length : Nat}
    (hfile : a.segment.file = some file) (hlong : (a.host.disk.content file).length ≤ length) :
    F.attached.keeps a (stateAfter (remap (some length) a)) := by
  obtain ⟨-, hremap⟩ | ⟨-, disk, hresize, hremap⟩ | ⟨-, e, -, hremap⟩ :=
    remap_some_cases (h := a.host) hfile length
  · rw [hremap]
    exact F.attached.refl a
  · rw [hremap]
    exact ⟨file_fittedTo _ _, hF.grow _ _ _ _ hlong hresize⟩
  · rw [hremap]
    exact ⟨rfl, F.refl a.host⟩

/-- A publisher that makes room has just found the file too short. -/
theorem makeRoom_within (hF : Admits F) (kind : HeaderKind) (payload : List UInt8) :
    Within F.attached (makeRoom kind payload) := by
  intro a
  cases hfile : a.segment.file with
  | none =>
      obtain ⟨e, hremap⟩ := remap_none_unowned hfile
      rw [show makeRoom kind payload a = _ from bind_of_error hremap]
      exact F.attached.refl a
  | some file =>
      have hsize := a.segment.size_fittedTo (a.host.disk.content file).length
      have ht := (a.segment.file_fittedTo (a.host.disk.content file).length).trans hfile
      have hremap := remap_fittedTo (h := a.host) hfile
      generalize a.segment.fittedTo _ = t at hsize ht hremap
      have hmade : makeRoom kind payload a = (if t.size < kind.size + payload.length then
          remap (some (kind.size + payload.length)) else pure ()) ⟨t, a.host⟩ :=
        (bind_of_ok hremap).trans get_bind_eq
      rw [hmade]
      refine F.attached.trans (b := ⟨t, a.host⟩) ⟨ht.trans hfile.symm, F.refl _⟩ ?_
      split
      next hshort => exact remap_some_keeps hF ht (by rw [← hsize]; exact Nat.le_of_lt hshort)
      next => exact F.attached.refl _

theorem storeEvent_within (hF : Admits F) (kind : HeaderKind) (record : EventRecord)
    (payload : List UInt8) : Within F.attached (storeEvent kind record payload) := by
  refine Within.bind (setBytes_within hF _ _) fun _ => ?_
  refine Within.bind (require_within _ _ _) fun _ => ?_
  refine Within.bind content_within fun c => ?_
  refine Within.bind (change_within hF fun _ => rfl) fun _ => ?_
  cases kind with
  | single => exact Within.bind (Within.pure _) fun _ => Within.pure _
  | multi =>
      exact Within.bind (require_within _ _ _) fun _ =>
        Within.bind (change_within hF fun _ => rfl) fun _ => Within.pure _

/-- **Publishing** stays within every frame that admits uses. -/
theorem writeEvent_within (hF : Admits F) (kind : HeaderKind) (readTimeout : Span)
    (record : EventRecord) (payload : List UInt8) (timeout : Span) :
    Within F.attached (writeEvent kind readTimeout record payload timeout) := by
  unfold writeEvent
  split
  · exact Within.throw _
  · exact Within.bind (Within.mapFailure remap_none_within) fun _ =>
      withWriteLock_within hF _ _ _ (Within.bind (makeRoom_within hF _ _) fun _ =>
        storeEvent_within hF _ _ _)

/-- **Marking an event as consumed** stays within every frame that admits uses. -/
theorem clearEvent_within (hF : Admits F) (readTimeout timeout : Span) :
    Within F.attached (clearEvent readTimeout timeout) :=
  Within.bind (Within.mapFailure remap_none_within) fun _ =>
    withWriteLock_within hF _ _ _ (Within.bind (require_within _ _ _) fun _ =>
      change_within hF fun _ => rfl)

end Segment

/-! ## Frames that admit uses -/

namespace Host

/-- The names are what they were. -/
def names : Frame Host where
  keeps h h' := h'.disk.entries = h.disk.entries
  refl _ := rfl
  trans hab hbc := hbc.trans hab

/-- No file has gone, and none has become a pipe, or shorter. -/
def lengths : Frame Host where
  keeps h h' := h'.disk.files.length = h.disk.files.length ∧
    ∀ file, h.disk.IsRegular file → h'.disk.IsRegular file ∧
      (h.disk.content file).length ≤ (h'.disk.content file).length
  refl _ := ⟨rfl, fun _ hreg => ⟨hreg, Nat.le_refl _⟩⟩
  trans hab hbc := by
    refine ⟨hbc.1.trans hab.1, fun file hreg => ?_⟩
    obtain ⟨hmid, hfirst⟩ := hab.2 file hreg
    obtain ⟨hlast, hsecond⟩ := hbc.2 file hmid
    exact ⟨hlast, Nat.le_trans hfirst hsecond⟩

/-- Where nobody was to come up later, nobody is. -/
def unattended : Frame Host where
  keeps h h' := h.leavers = [] ∧ h.waiters = [] → h'.leavers = [] ∧ h'.waiters = []
  refl _ := id
  trans hab hbc := hbc ∘ hab

theorem entries_resizeFile {d d' : Disk} {id : FileId} {length : Nat}
    (hresize : d.resizeFile id length = .ok d') : d'.entries = d.entries := by
  unfold Disk.resizeFile at hresize
  split at hresize
  · cases hresize
  · split at hresize
    · split at hresize
      · cases hresize
      · cases hresize
        rfl
    · cases hresize

theorem names_admits : Admits names := by
  have hlocks : AdmitsLocks names := ⟨fun _ _ _ => rfl, fun _ place _ => by cases place <;> rfl⟩
  exact ⟨hlocks, hlocks.elapse fun _ _ hdisk => congrArg Disk.entries hdisk, fun _ _ _ _ => rfl,
    fun _ _ _ _ _ hresize => entries_resizeFile hresize⟩

/-- Bytes that are replaced by as many leave every file as long as it was. -/
theorem lengths_changeContent (h : Host) (file : FileId) {f : Content → Content}
    (hlength : ∀ c, (f c).length = c.length) : lengths.keeps h (h.changeContent file f) := by
  have honly := onlyFile_changeContent h file f
  refine ⟨honly.count, fun other hreg => ?_⟩
  by_cases hsame : other = file
  · subst hsame
    refine ⟨honly.regular hreg, Nat.le_of_eq ?_⟩
    rw [content_changeContent hreg, hlength]
  · have hother := honly.others other hsame
    exact ⟨Disk.isRegular_congr hother hreg, Nat.le_of_eq (by rw [Disk.content_congr hother])⟩

theorem lengths_of_disk {h h' : Host} (hdisk : h'.disk = h.disk) : lengths.keeps h h' := by
  refine ⟨by rw [hdisk], fun file hreg => ?_⟩
  rw [hdisk]
  exact ⟨hreg, Nat.le_refl _⟩

theorem lengths_resizeFile {h : Host} {file : FileId} {length : Nat} {disk : Disk}
    (hlong : (h.disk.content file).length ≤ length)
    (hresize : h.disk.resizeFile file length = .ok disk) :
    lengths.keeps h { h with disk } := by
  unfold Disk.resizeFile at hresize
  split at hresize
  next => cases hresize
  next =>
    split at hresize
    next mode c hnode =>
      split at hresize
      next => cases hresize
      next =>
        cases hresize
        have honly : OnlyFile file h { h with
            disk := h.disk.modifyFile file fun node => node.mapContent fun c => c.resize length } :=
          onlyFile_modifyFile h file fun mode c => ⟨writtenMode mode, c.resize length, rfl⟩
        refine ⟨honly.count, fun other hreg => ?_⟩
        by_cases hsame : other = file
        · subst hsame
          refine ⟨honly.regular hreg, Nat.le_trans hlong (Nat.le_of_eq ?_)⟩
          rw [Disk.content, Disk.file?_modifyFile_same, hnode]
          rfl
        · have hother := honly.others other hsame
          exact ⟨Disk.isRegular_congr hother hreg,
            Nat.le_of_eq (by rw [Disk.content_congr hother])⟩
    next => cases hresize

/-- **No use makes a file shorter.** -/
theorem lengths_admits : Admits lengths := by
  have hlocks : AdmitsLocks lengths := by
    refine ⟨fun h level text => lengths_of_disk rfl, fun h place lock => ?_⟩
    cases place with
    | loose id => exact lengths_of_disk rfl
    | inFile file offset =>
        exact lengths_changeContent h file fun c => Content.length_setLock c lock
  exact ⟨hlocks, hlocks.elapse fun _ _ => lengths_of_disk,
    fun h file _ => lengths_changeContent h file, fun _ _ _ _ => lengths_resizeFile⟩

/-- Where nobody comes up, only the clock goes on, unless there has been time enough. -/
theorem elapse_unattended {h : Host} (hleavers : h.leavers = []) (hwaiters : h.waiters = [])
    (limit : Int) {enough : Host → Bool} (henough : enough h = false) (steps : Nat) :
    (elapse limit enough steps : HostM ε Unit) h = .ok () (h.waitUntil limit) := by
  have hturn : h.nextTurn? limit = none := by
    simp [nextTurn?, hleavers, hwaiters, earliest?]
  cases steps with
  | zero => rfl
  | succ steps =>
      unfold elapse
      refine get_bind_eq.trans ?_
      rw [if_neg (by simp [henough])]
      refine get_bind_eq.trans ?_
      rw [hturn]
      rfl

theorem elapse_enough {h : Host} (limit : Int) {enough : Host → Bool} (henough : enough h = true)
    (steps : Nat) : (elapse limit enough (steps + 1) : HostM ε Unit) h = .ok () h := by
  unfold elapse
  refine get_bind_eq.trans ?_
  rw [if_pos henough]
  rfl

theorem pass_unattended {h : Host} (hleavers : h.leavers = []) (hwaiters : h.waiters = [])
    (limit : Int) : (pass limit : HostM ε Unit) h = .ok () (h.waitUntil limit) := by
  unfold pass
  refine get_bind_eq.trans ?_
  exact elapse_unattended hleavers hwaiters limit rfl _

/-- Where nobody is to come up, sleeping is only waiting. -/
theorem sleep_unattended {h : Host} (hleavers : h.leavers = []) (hwaiters : h.waiters = [])
    (span : Span) : ∃ limit, (sleep span : HostM ε Unit) h = .ok () (h.waitUntil limit) := by
  refine ⟨(deadline h.now span).toNanos, ?_⟩
  unfold sleep
  exact get_bind_eq.trans (pass_unattended hleavers hwaiters _)

/-- **No use makes anybody come up later.** -/
theorem unattended_admits : Admits unattended where
  note _ _ _ := id
  lock _ place _ := by cases place <;> exact id
  elapse limit enough steps := by
    rintro h ⟨hleavers, hwaiters⟩
    cases henough : enough h with
    | false =>
        rw [elapse_unattended hleavers hwaiters limit henough]
        exact ⟨hleavers, hwaiters⟩
    | true =>
        cases steps with
        | zero => exact ⟨hleavers, hwaiters⟩
        | succ steps =>
            rw [elapse_enough limit henough]
            exact ⟨hleavers, hwaiters⟩
  rewrite _ _ _ _ := id
  grow _ _ _ _ _ _ := id

end Host

end Subscription
