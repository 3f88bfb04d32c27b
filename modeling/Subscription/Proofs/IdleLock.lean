import Subscription.Host.Locking
import Subscription.Proofs.Action
import Subscription.Proofs.LockBytes

/-!
# A lock that nobody holds

A lock in a segment is *idle* when nobody has its mutex and no reader is
counted (`RwLock.IsIdle`).  Whoever asks for an idle lock to write gets it at once,
whatever the timeout (`lockWrite_idle_at`), and giving it back makes it idle again
(`unlockWrite_held_at`).  Meanwhile only words of that lock are written: one file
changes (`Host.OnlyFile`), and nothing in it but the lock does
(`Host.OnlyLockAt`).  Headers start with their lock, so the same is said once more
for the lock at the start of a file (`Host.OnlyLock`).  Readers ask for less than an
idle lock, and are followed elsewhere.
-/

namespace Subscription

/-! ## One file of a host -/

/-- A file with bytes, as against a pipe. -/
def Disk.IsRegular (d : Disk) (file : FileId) : Prop :=
  ∃ mode c, d.file? file = some (.regular mode c)

/-- Two hosts that differ in one file at most, and in what time it is and what
has been logged. -/
structure Host.OnlyFile (file : FileId) (h h' : Host) : Prop where
  entries : h'.disk.entries = h.disk.entries
  count : h'.disk.files.length = h.disk.files.length
  others : ∀ id, id ≠ file → h'.disk.file? id = h.disk.file? id
  regular : h.disk.IsRegular file → h'.disk.IsRegular file
  leavers : h'.leavers = h.leavers
  waiters : h'.waiters = h.waiters

namespace Disk

variable {d : Disk} {file other : FileId}

theorem file?_modifyFile_same (change : FileNode → FileNode) :
    (d.modifyFile file change).file? file = (d.file? file).map change := by
  simp [modifyFile, file?]

theorem file?_modifyFile_of_ne (change : FileNode → FileNode) (hne : other ≠ file) :
    (d.modifyFile file change).file? other = d.file? other := by
  simp [modifyFile, file?, Ne.symm hne]

/-- A change that leaves a file as it is leaves the disk as it is. -/
theorem modifyFile_self {change : FileNode → FileNode}
    (hsame : ∀ node, d.file? file = some node → change node = node) :
    d.modifyFile file change = d := by
  obtain ⟨entries, files⟩ := d
  simp only [modifyFile, mk.injEq, true_and]
  apply List.ext_getElem?
  intro i
  rw [List.getElem?_modify]
  by_cases hi : file = i
  · subst hi
    cases hnode : files[file]? with
    | none => rfl
    | some node => simp [hsame node hnode]
  · simp [hi]

theorem content_modifyContent (hreg : d.IsRegular file) (f : Content → Content) :
    (d.modifyContent file f).content file = f (d.content file) := by
  obtain ⟨mode, c, hfile⟩ := hreg
  simp [content, modifyContent, file?_modifyFile_same, hfile]

end Disk

namespace Host

variable {h h₁ h₂ : Host} {file : FileId} {f : Content → Content}

theorem OnlyFile.refl (h : Host) : OnlyFile file h h :=
  ⟨rfl, rfl, fun _ _ => rfl, id, rfl, rfl⟩

theorem OnlyFile.trans (hfirst : OnlyFile file h h₁) (hsecond : OnlyFile file h₁ h₂) :
    OnlyFile file h h₂ where
  entries := hsecond.entries.trans hfirst.entries
  count := hsecond.count.trans hfirst.count
  others id hne := (hsecond.others id hne).trans (hfirst.others id hne)
  regular hreg := hsecond.regular (hfirst.regular hreg)
  leavers := hsecond.leavers.trans hfirst.leavers
  waiters := hsecond.waiters.trans hfirst.waiters

/-- The host after the content of a file was changed. -/
def changeContent (h : Host) (file : FileId) (f : Content → Content) : Host :=
  { h with disk := h.disk.modifyContent file f }

/-- A change to one file that leaves it regular if it was. -/
theorem onlyFile_modifyFile (h : Host) (file : FileId) {change : FileNode → FileNode}
    (hregular : ∀ mode c, ∃ mode' c', change (.regular mode c) = .regular mode' c') :
    OnlyFile file h { h with disk := h.disk.modifyFile file change } where
  entries := rfl
  count := by simp [Disk.modifyFile]
  others id hne := Disk.file?_modifyFile_of_ne _ hne
  regular hreg := by
    obtain ⟨mode, c, hfile⟩ := hreg
    obtain ⟨mode', c', hchange⟩ := hregular mode c
    exact ⟨mode', c', by simp [Disk.file?_modifyFile_same, hfile, hchange]⟩
  leavers := rfl
  waiters := rfl

theorem onlyFile_changeContent (h : Host) (file : FileId) (f : Content → Content) :
    OnlyFile file h (h.changeContent file f) :=
  onlyFile_modifyFile h file fun mode c => ⟨mode, f c, rfl⟩

theorem content_changeContent (hreg : h.disk.IsRegular file) :
    (h.changeContent file f).disk.content file = f (h.disk.content file) :=
  Disk.content_modifyContent hreg f

/-- Two hosts that differ in the words of the lock at an offset of a file at most. -/
structure OnlyLockAt (file : FileId) (offset : Nat) (h h' : Host) : Prop
    extends OnlyFile file h h' where
  length : (h'.disk.content file).length = (h.disk.content file).length
  outside : ∀ i, i < offset ∨ offset + lockExtent ≤ i →
    (h'.disk.content file).byte i = (h.disk.content file).byte i

/-- Two hosts that differ in the words of the lock at the start of a file at
most. -/
structure OnlyLock (file : FileId) (h h' : Host) : Prop extends OnlyFile file h h' where
  length : (h'.disk.content file).length = (h.disk.content file).length
  behind : ∀ i, lockExtent ≤ i → (h'.disk.content file).byte i = (h.disk.content file).byte i

variable {offset : Nat}

theorem OnlyLockAt.trans (hfirst : OnlyLockAt file offset h h₁)
    (hsecond : OnlyLockAt file offset h₁ h₂) : OnlyLockAt file offset h h₂ where
  toOnlyFile := hfirst.toOnlyFile.trans hsecond.toOnlyFile
  length := hsecond.length.trans hfirst.length
  outside i hi := (hsecond.outside i hi).trans (hfirst.outside i hi)

/-- The lock at the start of a file has nothing in front of it. -/
theorem OnlyLockAt.atHead (honly : OnlyLockAt file lockOffset h h₁) : OnlyLock file h h₁ where
  toOnlyFile := honly.toOnlyFile
  length := honly.length
  behind i hi := honly.outside i (.inr (by simpa [lockOffset] using hi))

theorem OnlyLock.trans (hfirst : OnlyLock file h h₁) (hsecond : OnlyLock file h₁ h₂) :
    OnlyLock file h h₂ where
  toOnlyFile := hfirst.toOnlyFile.trans hsecond.toOnlyFile
  length := hsecond.length.trans hfirst.length
  behind i hi := (hsecond.behind i hi).trans (hfirst.behind i hi)

/-! ## Storing a lock -/

/-- The lock at the start of a file. -/
abbrev headLock (file : FileId) : LockPlace := .inFile file lockOffset

variable {l : RwLock}

theorem setLock_inFile (h : Host) (file : FileId) (offset : Nat) (l : RwLock) :
    h.setLock (.inFile file offset) l = h.changeContent file fun c => c.setLock offset l := rfl

/-- Storing the lock of a file changes nothing else. -/
theorem onlyLockAt_setLock (hreg : h.disk.IsRegular file) (offset : Nat) (l : RwLock) :
    OnlyLockAt file offset h (h.setLock (.inFile file offset) l) where
  toOnlyFile := onlyFile_changeContent h file _
  length := by rw [setLock_inFile, content_changeContent hreg, Content.length_setLock]
  outside i hi := by
    rw [setLock_inFile, content_changeContent hreg, Content.byte_setLock_of_outside _ _ hi]

/-- The stored lock is found again. -/
theorem lockAt_setLock_inFile (hreg : h.disk.IsRegular file) (hfits : l.mutex.Fits)
    (hin : offset + lockExtent ≤ (h.disk.content file).length)
    (hkind : l.mutex.kind = (h.lockAt (.inFile file offset)).mutex.kind) :
    (h.setLock (.inFile file offset) l).lockAt (.inFile file offset) = l := by
  show ((h.setLock (.inFile file offset) l).disk.content file).lockAt offset = l
  rw [setLock_inFile, content_changeContent hreg, Content.lockAt_setLock _ hfits hin]
  show { l with mutex :=
    { l.mutex with kind := (h.lockAt (.inFile file offset)).mutex.kind } } = l
  rw [← hkind]

end Host

/-! ## Idle locks -/

theorem HolderWord.fits_heldBy (p : Party) : (HolderWord.heldBy p).Fits := fun _ h => by cases h

theorem HolderWord.free_ne_unrecoverable : HolderWord.free ≠ .unrecoverable := by decide

theorem HolderWord.fits_free : HolderWord.free.Fits := by
  rintro n ⟨⟩
  decide

/-- No links are as many as fit. -/
theorem Mutex.no_links_fit : 0 < Word.capacity 16 := by decide

/-- The kind of mutex that segments are made with. -/
def MutexKind.ofSegments : MutexKind := ⟨.robust, .patient, false⟩

/-- A mutex of a segment that nobody has. -/
structure Mutex.IsFree (m : Mutex) : Prop where
  kind : m.kind = .ofSegments
  word : m.word = .free
  owner : m.owner = .free

/-- A lock of a segment that nobody has. -/
structure RwLock.IsIdle (l : RwLock) : Prop where
  mutex : l.mutex.IsFree
  readers : l.readers = 0

/-- A mutex of a segment that a party has. -/
structure Mutex.IsTakenBy (m : Mutex) (p : Party) : Prop where
  kind : m.kind = .ofSegments
  word : m.word = .heldBy p
  owner : m.owner = .heldBy p

namespace Mutex

variable {m : Mutex} {p : Party}

/-- A free mutex once a party has taken it. -/
def taken (m : Mutex) (p : Party) : Mutex :=
  { m with word := .heldBy p, depth := 1, links := 0, owner := .heldBy p, users := m.users + 1 }

/-- A mutex once the party that had taken it has given it back. -/
def returned (m : Mutex) : Mutex :=
  { m with word := .free, owner := .free, users := m.users - 1, links := 0 }

/-- A free mutex is granted, whether one would wait or not. -/
theorem IsFree.acquire (hm : m.IsFree) (p : Party) (waits : Bool) :
    m.acquire p waits = (.granted, m.taken p) := by
  obtain ⟨kind, word, depth, owner, users, spins, links⟩ := m
  obtain ⟨hkind, hword, howner⟩ := hm
  cases hkind
  cases hword
  cases howner
  rfl

theorem IsFree.taken (hm : m.IsFree) (p : Party) : (m.taken p).IsTakenBy p :=
  ⟨hm.kind, rfl, rfl⟩

/-- Whoever has a mutex finds it busy. -/
theorem IsTakenBy.acquire (hm : m.IsTakenBy p) (waits : Bool) :
    (m.acquire p waits).1 = .busy := by
  have husable : m.kind.isUsable = true := by
    rw [hm.kind]
    rfl
  have hfamily : m.kind.family = .robust := by
    rw [hm.kind]
    rfl
  have hmanner : m.kind.manner = .patient := by
    rw [hm.kind]
    rfl
  have hdead : ¬ m.word.dead = true := by
    rw [hm.word]
    exact Bool.false_ne_true
  have htaken : m.word ≠ .free := by
    rw [hm.word]
    exact nofun
  have hheld : m.isHeldBy p = true := by
    rw [isHeldBy, hm.word]
    exact decide_eq_true rfl
  rw [Mutex.acquire, if_pos husable, hfamily]
  show (m.acquireRobust p waits).1 = .busy
  rw [acquireRobust, if_neg hdead, if_neg htaken, if_pos hheld, askAgain, hmanner]

/-- Whoever has a mutex may give it back. -/
theorem IsTakenBy.release (hm : m.IsTakenBy p) : m.release p = (none, m.returned) := by
  obtain ⟨kind, word, depth, owner, users, spins, links⟩ := m
  obtain ⟨hkind, hword, howner⟩ := hm
  cases hkind
  cases hword
  cases howner
  simp [Mutex.release, mayRelease, isHeldBy, givenBack, returned, MutexKind.isInheriting,
    MutexKind.isRobust, HolderWord.inconsistent]

theorem IsTakenBy.returned (hm : m.IsTakenBy p) : m.returned.IsFree :=
  ⟨hm.kind, rfl, rfl⟩

theorem IsTakenBy.fits (hm : m.IsTakenBy p) (hlinks : m.links < Word.capacity 16) : m.Fits where
  word := hm.word ▸ HolderWord.fits_heldBy p
  owner := hm.owner ▸ HolderWord.fits_heldBy p
  links := hlinks

theorem IsFree.fits (hm : m.IsFree) (hlinks : m.links < Word.capacity 16) : m.Fits where
  word := hm.word ▸ HolderWord.fits_free
  owner := hm.owner ▸ HolderWord.fits_free
  links := hlinks

end Mutex

namespace Host

variable {h h' : Host} {file : FileId} {offset : Nat} {p : Party} {ε : Type}

/-- A file that is long enough to have a lock at an offset. -/
structure HasLockAt (h : Host) (file : FileId) (offset : Nat) : Prop where
  regular : h.disk.IsRegular file
  covers : offset + lockExtent ≤ (h.disk.content file).length

/-- A file that is long enough to have a lock at its start. -/
structure HasLock (h : Host) (file : FileId) : Prop where
  regular : h.disk.IsRegular file
  covers : lockExtent ≤ (h.disk.content file).length

/-- Two hosts of which the second one has the given lock at an offset of a file, and
is as the first one otherwise. -/
structure Stores (file : FileId) (offset : Nat) (l : RwLock) (h h' : Host) : Prop where
  only : OnlyLockAt file offset h h'
  lock : h'.lockAt (.inFile file offset) = l

theorem HasLock.atOffset (hhas : h.HasLock file) : h.HasLockAt file lockOffset where
  regular := hhas.regular
  covers := by simpa [lockOffset] using hhas.covers

theorem OnlyLockAt.hasLockAt (honly : OnlyLockAt file offset h h')
    (hhas : h.HasLockAt file offset) : h'.HasLockAt file offset where
  regular := honly.regular hhas.regular
  covers := by
    rw [honly.length]
    exact hhas.covers

theorem OnlyLock.hasLock (honly : OnlyLock file h h') (hhas : h.HasLock file) :
    h'.HasLock file where
  regular := honly.regular hhas.regular
  covers := by
    rw [honly.length]
    exact hhas.covers

theorem stores_setLock (hhas : h.HasLockAt file offset) {l : RwLock} (hfits : l.mutex.Fits)
    (hkind : l.mutex.kind = (h.lockAt (.inFile file offset)).mutex.kind) :
    Stores file offset l h (h.setLock (.inFile file offset) l) :=
  ⟨onlyLockAt_setLock hhas.regular offset l,
    lockAt_setLock_inFile hhas.regular hfits hhas.covers hkind⟩

/-- Another mutex than the present one is stored. -/
theorem stores_setMutex (hhas : h.HasLockAt file offset) {m : Mutex} (hfits : m.Fits)
    (hkind : m.kind = (h.lockAt (.inFile file offset)).mutex.kind)
    (hne : m ≠ (h.lockAt (.inFile file offset)).mutex) :
    Stores file offset { h.lockAt (.inFile file offset) with mutex := m } h
      (h.setMutex (.inFile file offset) m) := by
  have hset : h.setMutex (.inFile file offset) m =
      h.setLock (.inFile file offset) { h.lockAt (.inFile file offset) with mutex := m } := by
    simp only [setMutex, if_neg hne]
  rw [hset]
  exact stores_setLock hhas hfits hkind

/-! ## The mutex -/

/-- A free mutex is had at once. -/
theorem takeMutex_free (hhas : h.HasLockAt file offset)
    (hfree : (h.lockAt (.inFile file offset)).mutex.IsFree) (p : Party) (limit : Int)
    (mode : LockMode) (holder : String) :
    ∃ h', takeMutex (.inFile file offset) p limit mode holder h = .ok () h' ∧
      Stores file offset { h.lockAt (.inFile file offset) with
        mutex := (h.lockAt (.inFile file offset)).mutex.taken p } h h' := by
  have hne : (h.lockAt (.inFile file offset)).mutex.taken p ≠
      (h.lockAt (.inFile file offset)).mutex := by
    intro heq
    have hword := congrArg Mutex.word heq
    rw [hfree.word] at hword
    cases hword
  have htry : (tryMutex (.inFile file offset) p limit : HostM Error Grant) h =
      .ok .granted (h.setMutex (.inFile file offset)
        ((h.lockAt (.inFile file offset)).mutex.taken p)) := by
    apply modifyGet_of_eq
    rw [hfree.acquire]
  exact ⟨_, bind_of_ok htry,
    stores_setMutex hhas ((hfree.taken p).fits Mutex.no_links_fit) rfl hne⟩

/-- Whoever has the mutex gives it back at once. -/
theorem releaseMutex_taken (hhas : h.HasLockAt file offset)
    (htaken : (h.lockAt (.inFile file offset)).mutex.IsTakenBy p) :
    ∃ h', (releaseMutex (.inFile file offset) p : HostM ε Unit) h = .ok () h' ∧
      Stores file offset { h.lockAt (.inFile file offset) with
        mutex := (h.lockAt (.inFile file offset)).mutex.returned } h h' := by
  have hne : (h.lockAt (.inFile file offset)).mutex.returned ≠
      (h.lockAt (.inFile file offset)).mutex := by
    intro heq
    have hword := congrArg Mutex.word heq
    rw [htaken.word] at hword
    cases hword
  have htry : (tryRelease (.inFile file offset) p : HostM ε _) h =
      .ok none (h.setMutex (.inFile file offset)
        (h.lockAt (.inFile file offset)).mutex.returned) := by
    apply modifyGet_of_eq
    rw [htaken.release]
  exact ⟨_, bind_of_ok htry,
    stores_setMutex hhas (htaken.returned.fits Mutex.no_links_fit) rfl hne⟩

/-! ## The write lock -/

/-- **Whoever asks for an idle lock to write has it at once.** -/
theorem lockWrite_idle_at (hhas : h.HasLockAt file offset)
    (hidle : (h.lockAt (.inFile file offset)).IsIdle)
    (p : Party) (timeout : Span) (holder : String) :
    ∃ h', lockWrite (.inFile file offset) p timeout holder h = .ok () h' ∧
      OnlyLockAt file offset h h' ∧
      (h'.lockAt (.inFile file offset)).mutex.IsTakenBy p ∧
      (h'.lockAt (.inFile file offset)).readers = 0 := by
  obtain ⟨h', htake, hstores⟩ := takeMutex_free hhas hidle.mutex p
    (deadline h.now timeout).toNanos .write holder
  have hzero : (h'.lockAt (.inFile file offset)).readers = 0 := by
    rw [hstores.lock]
    exact hidle.readers
  have hnone : hasNoReaders (.inFile file offset) h' = true := decide_eq_true hzero
  have hawait : ∀ limit, awaitReaders (.inFile file offset) p limit holder h' = .ok () h' := by
    intro limit
    show (if hasNoReaders (.inFile file offset) h' then (Pure.pure () : HostM Error Unit)
      else _) h' = _
    rw [if_pos hnone]
    rfl
  refine ⟨h', ?_, hstores.only, ?_, hzero⟩
  · unfold lockWrite
    refine get_bind_eq.trans ?_
    refine (bind_of_ok htake).trans ?_
    exact (bind_of_ok (attempt_of_ok (hawait _))).trans rfl
  · rw [hstores.lock]
    exact hidle.mutex.taken p

/-- **Whoever has the write lock gives it back at once.** -/
theorem unlockWrite_held_at (hhas : h.HasLockAt file offset)
    (htaken : (h.lockAt (.inFile file offset)).mutex.IsTakenBy p)
    (hzero : (h.lockAt (.inFile file offset)).readers = 0) (holder : String) :
    ∃ h', unlockWrite (.inFile file offset) p holder h = .ok () h' ∧ OnlyLockAt file offset h h' ∧
      (h'.lockAt (.inFile file offset)).IsIdle := by
  obtain ⟨h', hrelease, hstores⟩ := releaseMutex_taken (ε := Abort) hhas htaken
  refine ⟨h', ?_, hstores.only, ?_⟩
  · unfold unlockWrite
    refine get_bind_eq.trans ?_
    rw [if_pos hzero]
    exact hrelease
  · rw [hstores.lock]
    exact ⟨htaken.returned, hzero⟩

/-! ## The lock at the start of a file -/

theorem lockWrite_idle (hhas : h.HasLock file) (hidle : (h.lockAt (headLock file)).IsIdle)
    (p : Party) (timeout : Span) (holder : String) :
    ∃ h', lockWrite (headLock file) p timeout holder h = .ok () h' ∧ OnlyLock file h h' ∧
      (h'.lockAt (headLock file)).mutex.IsTakenBy p ∧
      (h'.lockAt (headLock file)).readers = 0 := by
  obtain ⟨h', hlock, honly, hheld⟩ := lockWrite_idle_at hhas.atOffset hidle p timeout holder
  exact ⟨h', hlock, honly.atHead, hheld⟩

theorem unlockWrite_held (hhas : h.HasLock file)
    (htaken : (h.lockAt (headLock file)).mutex.IsTakenBy p)
    (hzero : (h.lockAt (headLock file)).readers = 0) (holder : String) :
    ∃ h', unlockWrite (headLock file) p holder h = .ok () h' ∧ OnlyLock file h h' ∧
      (h'.lockAt (headLock file)).IsIdle := by
  obtain ⟨h', hunlock, honly, hidle⟩ := unlockWrite_held_at hhas.atOffset htaken hzero holder
  exact ⟨h', hunlock, honly.atHead, hidle⟩

end Host

end Subscription
