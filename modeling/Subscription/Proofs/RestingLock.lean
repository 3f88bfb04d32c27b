import Subscription.Proofs.IdleLock

/-!
# A lock that rests

The words of a lock may say anything.  As long as its mutex is of a kind that can be
taken at all, and nobody has it, the lock *rests* (`Mutex.IsAtRest`), however many readers
are counted.  Then a reader is let in at once (`Host.lockRead_resting`), unless the count
can go no higher, and out again (`Host.unlockRead_resting`), whatever the kind of the mutex
and the timeouts.  Both only need that the mutex is had and can be given back
(`Mutex.LendsTo`), which may also be so where it did not rest (`Host.lockRead_had`).

What is left of such a visit is the count (`Content.Visited`).  The system keeps three words
of the mutex to itself (`LockLayout.IsPrivate`), so they need not be the same afterwards; all
other bytes are (`Content.Visited.byte_eq`), those of the words that are stored once more as
they are included, and the rest of the host has not changed at all (`Host.withContent`).
-/

namespace Subscription

open LockLayout

/-! ## Bytes that a number stands for -/

/-- As many bytes that stand for the same number are the same. -/
theorem Word.eq_of_ofBytes_eq {a b : List UInt8} (hlength : a.length = b.length)
    (heq : ofBytes a = ofBytes b) : a = b := by
  induction a generalizing b with
  | nil => exact (List.eq_nil_of_length_eq_zero hlength.symm).symm
  | cons x xs ih =>
      cases b with
      | nil => cases hlength
      | cons y ys =>
          have hx := x.toNat_lt
          have hy := y.toNat_lt
          rw [ofBytes, ofBytes] at heq
          have hfirst : x = y := UInt8.toNat_inj.1 (by omega)
          have hrest : xs = ys := ih (Nat.succ.inj hlength) (by omega)
          rw [hfirst, hrest]

/-- A number knows its bytes. -/
theorem Content.byte_eq_of_number_eq {c c' : Content} {offset count k : Nat}
    (heq : c'.number offset count = c.number offset count) (hk : k < count) :
    c'.byte (offset + k) = c.byte (offset + k) := by
  have hread : c'.read offset count = c.read offset count :=
    Word.eq_of_ofBytes_eq (by simp) heq
  have hbyte : (c'.read offset count)[k]? = some (c'.byte (offset + k)) := c'.getElem?_read hk
  rw [hread, c.getElem?_read hk] at hbyte
  exact (Option.some.inj hbyte).symm

/-- A count that can go higher is not zero afterwards. -/
theorem RwLock.add_one_ne_zero {readers : UInt32} (hroom : readers ≠ maxReaders) :
    readers + 1 ≠ 0 := by
  intro hzero
  apply hroom
  rw [← UInt32.add_sub_cancel readers 1, hzero]
  rfl

/-! ## Mutexes at rest -/

/-- A mutex that can be taken, of whatever kind, and that nobody has. -/
structure Mutex.IsAtRest (m : Mutex) : Prop where
  usable : m.kind.isUsable = true
  word : m.word = .free
  owner : m.owner = .free

/-- A mutex that is there for a party to be taken at once; somebody may be on record, though not
the party itself if an owner who asks again is told something. -/
structure Mutex.IsReady (m : Mutex) (p : Party) : Prop where
  usable : m.kind.isUsable = true
  word : m.word = .free
  unasked : ¬ (m.isOwnedBy p ∧ m.kind.answers)
  recoverable : ¬ (m.kind.isRobust ∧ m.owner = .unrecoverable)

/-- A mutex that a party has, and may take once more. -/
structure Mutex.IsReentrant (m : Mutex) (p : Party) : Prop where
  usable : m.kind.isUsable = true
  counts : m.kind.manner = .counting
  owner : m.owner = .heldBy p
  held : m.kind.family ≠ .plain → m.isHeldBy p
  alive : m.kind.family = .robust → ¬ m.word.dead = true
  room : m.depth + 1 ≠ 0

/-- A mutex that a party may take, again or for the first time. -/
def Mutex.IsOpenTo (m : Mutex) (p : Party) : Prop := m.IsReady p ∨ m.IsReentrant p

/-- A mutex that a party has taken once and is on record for. -/
structure Mutex.IsInHandsOf (m : Mutex) (p : Party) : Prop where
  usable : m.kind.isUsable = true
  word : m.word ≠ .free
  owner : m.owner = .heldBy p
  held : m.kind.family ≠ .plain → m.isHeldBy p
  depth : m.kind.manner = .counting → m.depth = 1
  kept : ¬ (m.kind.family = .plain ∧ m.kind.manner = .patient ∧ m.kind.elided = true)
  fits : m.Fits

/-- Two mutexes of one kind of which the second one is at rest, and as many have it as the
first one. -/
structure Mutex.SettlesTo (m back : Mutex) : Prop where
  kind : back.kind = m.kind
  users : back.users = m.users
  atRest : back.IsAtRest
  fits : back.Fits

/-- A mutex, what it is in the hands of a party, and what it is once that party has given it
back: open to that party, and at rest if it was at rest before. -/
structure Mutex.LendsTo (m : Mutex) (p : Party) (lent back : Mutex) : Prop where
  kind : lent.kind = m.kind
  fits : lent.Fits
  release : lent.release p = (none, back)
  kindBack : back.kind = m.kind
  fitsBack : back.Fits
  reopens : back.IsOpenTo p
  settles : m.IsAtRest → m.SettlesTo back

theorem HolderWord.heldBy_ne_free (p : Party) : HolderWord.heldBy p ≠ .free := by
  intro heq
  cases heq

theorem HolderWord.taken_ne_free : HolderWord.taken ≠ .free := by decide

theorem HolderWord.fits_taken : HolderWord.taken.Fits := by
  intro n hn
  cases hn
  decide

namespace Mutex

variable {m back lent : Mutex} {p : Party} {waits : Bool}

theorem SettlesTo.trans {last : Mutex} (hfirst : m.SettlesTo back)
    (hsecond : back.SettlesTo last) : m.SettlesTo last where
  kind := hsecond.kind.trans hfirst.kind
  users := hsecond.users.trans hfirst.users
  atRest := hsecond.atRest
  fits := hsecond.fits

/-- A mutex of a segment that nobody has is at rest. -/
theorem IsFree.isAtRest (hfree : m.IsFree) : m.IsAtRest where
  usable := by
    rw [hfree.kind]
    rfl
  word := hfree.word
  owner := hfree.owner

theorem SettlesTo.isFree (hback : m.SettlesTo back) (hfree : m.IsFree) : back.IsFree where
  kind := hback.kind.trans hfree.kind
  word := hback.atRest.word
  owner := hback.atRest.owner

theorem IsAtRest.isReady (hm : m.IsAtRest) (p : Party) : m.IsReady p where
  usable := hm.usable
  word := hm.word
  unasked h := by simp [isOwnedBy, hm.owner, HolderWord.free, HolderWord.heldBy] at h
  recoverable := by
    rw [hm.owner]
    exact fun h => HolderWord.free_ne_unrecoverable h.2

theorem word_ne_free_of_held (hheld : m.isHeldBy p = true) : m.word ≠ .free := by
  intro hfree
  simp [isHeldBy, hfree, HolderWord.free] at hheld

theorem not_unusable (husable : m.kind.isUsable = true) (e : Errno) :
    m.kind.family ≠ .unusable e := by
  intro hfamily
  simp [MutexKind.isUsable, hfamily] at husable

/-! ### Giving back -/

/-- An owner gives back a mutex that counts, once. -/
theorem release_counted (hfamily : ∀ e, m.kind.family ≠ .unusable e)
    (hmanner : m.kind.manner = .counting) (howner : m.owner = .heldBy p) :
    m.release p = m.giveBackOnce p none := by
  have hconsistent : ¬ (m.kind.isRobust ∧ m.isHeldBy p ∧ m.owner = .inconsistent) := by
    rw [howner]
    exact fun h => by cases h.2.2
  have howned : m.isOwnedBy p = true := decide_eq_true howner
  rw [release]
  cases hkind : m.kind.family with
  | unusable e => exact absurd hkind (hfamily e)
  | _ => simp only [hmanner, if_neg hconsistent, if_pos howned]

/-- Whoever may give back a mutex that does not count gives it back. -/
theorem release_uncounted (hfamily : ∀ e, m.kind.family ≠ .unusable e)
    (hmanner : m.kind.manner ≠ .counting) (hmay : m.mayRelease p = true) :
    m.release p = (none,
      if m.kind.family = .plain ∧ m.kind.manner = .patient ∧ m.kind.elided = true
      then { m with word := .free } else m.givenBack p) := by
  rw [release]
  cases hkind : m.kind.family with
  | unusable e => exact absurd hkind (hfamily e)
  | _ =>
      cases hhow : m.kind.manner with
      | counting => exact absurd hhow hmanner
      | _ => simp [hmay]

/-- What its owner gives back is at rest. -/
theorem isAtRest_givenBack (husable : m.kind.isUsable = true) (howner : m.owner = .heldBy p)
    (hheld : m.kind.family ≠ .plain → m.isHeldBy p) : (m.givenBack p).IsAtRest where
  usable := husable
  word := by
    have hkept : m.kind.isInheriting = true → m.isHeldBy p = true := by
      intro hin
      apply hheld
      intro hplain
      simp [MutexKind.isInheriting, hplain] at hin
    simp only [givenBack]
    rw [if_neg]
    simpa using hkept
  owner := by
    simp only [givenBack, howner]
    rw [if_neg]
    exact fun h => by cases h.2.2

theorem IsAtRest.fits_givenBack (hback : (m.givenBack p).IsAtRest) (hfits : m.Fits) :
    (m.givenBack p).Fits where
  word := hback.word ▸ HolderWord.fits_free
  owner := hback.owner ▸ HolderWord.fits_free
  links := by
    show (if m.kind.isRobust then 0 else m.links) < _
    split
    · exact no_links_fit
    · exact hfits.links

/-- **Whoever has taken a mutex once gives it back at once.** -/
theorem IsInHandsOf.exists_back (hm : m.IsInHandsOf p) :
    ∃ back, m.release p = (none, back) ∧ back.kind = m.kind ∧ back.users = m.users - 1 ∧
      back.IsAtRest ∧ back.Fits := by
  have hrest := isAtRest_givenBack hm.usable hm.owner hm.held
  have hfits := hrest.fits_givenBack hm.fits
  by_cases hmanner : m.kind.manner = .counting
  · have honce : m.giveBackOnce p none = (none, { m.givenBack p with depth := 0 }) := by
      have hzero : (1 : UInt32) - 1 = 0 := by decide
      simp only [giveBackOnce, hm.depth hmanner, hzero, if_pos]
      rfl
    refine ⟨{ m.givenBack p with depth := 0 }, ?_, rfl, rfl,
      ⟨hrest.usable, hrest.word, hrest.owner⟩, ⟨hfits.word, hfits.owner, hfits.links⟩⟩
    rw [release_counted (not_unusable hm.usable) hmanner hm.owner, honce]
  · have hmay : m.mayRelease p = true := by
      unfold mayRelease
      cases hfamily : m.kind.family with
      | plain => cases m.kind.manner <;> simp [isOwnedBy, hm.owner, hm.word]
      | _ => exact hm.held (by simp [hfamily])
    refine ⟨m.givenBack p, ?_, rfl, rfl, hrest, hfits⟩
    rw [release_uncounted (not_unusable hm.usable) hmanner hmay, if_neg hm.kept]

/-- A mutex is lent to whoever is on record for what has become of it. -/
theorem IsInHandsOf.exists_lendsTo (hlent : lent.IsInHandsOf p) (hkind : lent.kind = m.kind)
    (husers : m.IsAtRest → lent.users = m.users + 1) : ∃ back, m.LendsTo p lent back := by
  obtain ⟨back, hrelease, hback, hleft, hrest, hfits⟩ := hlent.exists_back
  refine ⟨back, hkind, hlent.fits, hrelease, hback.trans hkind, hfits, .inl (hrest.isReady p), ?_⟩
  intro hm
  refine ⟨hback.trans hkind, ?_, hrest, hfits⟩
  rw [hleft, husers hm, UInt32.add_sub_cancel]

/-! ### Taking -/

/-- A mutex that names its holder, in the hands of a party. -/
def named (m : Mutex) (p : Party) : Mutex :=
  { m with
    word := .heldBy p
    depth := 1
    owner := .heldBy p
    users := m.users + 1
    links := if m.kind.isRobust then 0 else m.links }

/-- A mutex of a kind that cannot be taken is refused, and stays as it is. -/
theorem acquire_unusable (hunusable : ¬ m.kind.isUsable = true) :
    m.acquire p waits = (.refused .invalid, m) := by
  rw [acquire, if_neg hunusable]

theorem acquire_plain (husable : m.kind.isUsable = true) (hplain : m.kind.family = .plain) :
    m.acquire p waits =
      if m.isOwnedBy p ∧ m.kind.answers then m.askAgain else m.acquirePlain p := by
  rw [acquire, if_pos husable, hplain]

theorem acquire_robust (husable : m.kind.isUsable = true) (hrobust : m.kind.family = .robust) :
    m.acquire p waits = m.acquireRobust p waits := by
  rw [acquire, if_pos husable, hrobust]

theorem acquire_inheriting (husable : m.kind.isUsable = true)
    (hinherits : m.kind.isInheriting = true) :
    m.acquire p waits = m.acquireInheriting p waits := by
  rw [acquire, if_pos husable]
  cases hfamily : m.kind.family with
  | inheriting | robustInheriting => rfl
  | _ => simp [MutexKind.isInheriting, hfamily] at hinherits

/-- A mutex that names its holder is had through the system or without it; where its word is
free, it does not matter. -/
theorem acquire_free (husable : m.kind.isUsable = true) (hfamily : m.kind.family ≠ .plain)
    (hword : m.word = .free) : m.acquire p waits = m.acquireFree p := by
  have hunheld : ¬ m.isHeldBy p = true := fun hheld => word_ne_free_of_held hheld hword
  cases hkind : m.kind.family with
  | plain => exact absurd hkind hfamily
  | unusable e => exact absurd hkind (not_unusable husable e)
  | robust =>
      have halive : ¬ m.word.dead = true := by
        rw [hword]
        exact Bool.false_ne_true
      rw [acquire_robust husable hkind, acquireRobust, if_neg halive, if_pos hword]
  | inheriting | robustInheriting =>
      rw [acquire_inheriting husable (by simp [MutexKind.isInheriting, hkind]),
        acquireInheriting, if_neg (fun h => hunheld h.1), if_pos hword]

theorem acquireFree_of_recoverable
    (hrecoverable : ¬ (m.kind.isRobust ∧ m.owner = .unrecoverable)) (p : Party) :
    m.acquireFree p = (.granted, m.named p) := by
  rw [Mutex.acquireFree, if_neg hrecoverable]
  simp only [record, named]
  split <;> rfl

theorem isInHandsOf_named (husable : m.kind.isUsable = true) (hlinks : m.links < Word.capacity 16)
    (hfamily : m.kind.family ≠ .plain) (p : Party) : (m.named p).IsInHandsOf p where
  usable := husable
  word := HolderWord.heldBy_ne_free p
  owner := rfl
  held _ := decide_eq_true rfl
  depth _ := rfl
  kept h := hfamily h.1
  fits :=
    { word := HolderWord.fits_heldBy p
      owner := HolderWord.fits_heldBy p
      links := by
        show (if m.kind.isRobust then 0 else m.links) < _
        split
        · exact no_links_fit
        · exact hlinks }

/-- A plain mutex in the hands of a party. -/
def recorded (m : Mutex) (p : Party) : Mutex :=
  { m with
    word := .taken
    depth := if m.kind.manner = .counting then 1 else m.depth
    owner := .heldBy p
    users := m.users + 1 }

theorem isInHandsOf_recorded (husable : m.kind.isUsable = true)
    (hlinks : m.links < Word.capacity 16) (hplain : m.kind.family = .plain)
    (hkept : ¬ (m.kind.manner = .patient ∧ m.kind.elided = true)) (p : Party) :
    (m.recorded p).IsInHandsOf p where
  usable := husable
  word := HolderWord.taken_ne_free
  owner := rfl
  held h := absurd hplain h
  depth h := if_pos h
  kept h := hkept h.2
  fits := ⟨HolderWord.fits_taken, HolderWord.fits_heldBy p, hlinks⟩

/-- Nothing but the wait until the next try is changed by taking in earnest a mutex that
could be left out. -/
theorem exists_countDown (m : Mutex) : ∃ spins, m.countDown = { m with spins } := by
  unfold countDown
  split
  · exact ⟨_, rfl⟩
  · exact ⟨m.spins, rfl⟩

/-- A plain mutex that is ready is granted, and recorded unless it could be left out. -/
theorem IsReady.acquirePlain (hm : m.IsReady p) (hfits : m.Fits)
    (hplain : m.kind.family = .plain) :
    ∃ lent back, m.acquirePlain p = (.granted, lent) ∧ m.LendsTo p lent back := by
  rw [Mutex.acquirePlain, if_pos hm.word]
  by_cases helided : m.kind.manner = .patient ∧ m.kind.elided = true
  · -- whoever takes it is not on record, and only the word is given back
    obtain ⟨spins, hcount⟩ := exists_countDown { m with word := .taken }
    have hmay : { m with word := .taken, spins }.mayRelease p = true := by
      simp [mayRelease, hplain, helided]
    have hfitsBack : { m with word := .free, spins }.Fits :=
      ⟨HolderWord.fits_free, hfits.owner, hfits.links⟩
    refine ⟨{ m with word := .taken, spins }, { m with word := .free, spins },
      by simp [helided, hcount], rfl, ⟨HolderWord.fits_taken, hfits.owner, hfits.links⟩, ?_, rfl,
      hfitsBack, .inl ⟨hm.usable, rfl, hm.unasked, hm.recoverable⟩,
      fun hrest => ⟨rfl, rfl, ⟨hm.usable, rfl, hrest.owner⟩, hfitsBack⟩⟩
    rw [release_uncounted (m := { m with word := .taken, spins }) (not_unusable hm.usable)
      (by simp [helided]) hmay, if_pos ⟨hplain, helided⟩]
  · obtain ⟨back, hlent⟩ := (isInHandsOf_recorded hm.usable hfits.links hplain helided
      p).exists_lendsTo (m := m) rfl fun _ => rfl
    refine ⟨m.recorded p, back, ?_, hlent⟩
    cases hmanner : m.kind.manner <;> simp_all [recorded, record]

/-- **A mutex that is ready is granted to whoever asks.** -/
theorem IsReady.exists_lent (hm : m.IsReady p) (hfits : m.Fits) (waits : Bool) :
    ∃ lent back, m.acquire p waits = (.granted, lent) ∧ m.LendsTo p lent back := by
  have hnamed : m.kind.family ≠ .plain → ∃ back, m.LendsTo p (m.named p) back :=
    fun hfamily => (isInHandsOf_named hm.usable hfits.links hfamily p).exists_lendsTo rfl
      fun _ => rfl
  by_cases hplain : m.kind.family = .plain
  · rw [acquire_plain hm.usable hplain, if_neg hm.unasked]
    exact hm.acquirePlain hfits hplain
  · obtain ⟨back, hlent⟩ := hnamed hplain
    refine ⟨m.named p, back, ?_, hlent⟩
    rw [acquire_free hm.usable hplain hm.word, acquireFree_of_recoverable hm.recoverable]

/-! ### Taking once more -/

/-- A party who may takes a mutex once more. -/
theorem IsReentrant.acquire (hm : m.IsReentrant p) (waits : Bool) :
    m.acquire p waits = (.granted, { m with depth := m.depth + 1 }) := by
  have hasked : m.askAgain = (.granted, { m with depth := m.depth + 1 }) := by
    rw [askAgain, hm.counts]
    exact if_neg hm.room
  have hanswers : m.kind.answers = true := by simp [MutexKind.answers, hm.counts]
  cases hfamily : m.kind.family with
  | plain =>
      have howned : m.isOwnedBy p = true := decide_eq_true hm.owner
      rw [acquire_plain hm.usable hfamily, if_pos ⟨howned, hanswers⟩, hasked]
  | unusable e => exact absurd hfamily (not_unusable hm.usable e)
  | robust =>
      have hheld := hm.held (by simp [hfamily])
      rw [acquire_robust hm.usable hfamily, acquireRobust, if_neg (hm.alive hfamily),
        if_neg (word_ne_free_of_held hheld), if_pos hheld, hasked]
  | inheriting | robustInheriting =>
      have hheld := hm.held (by simp [hfamily])
      rw [acquire_inheriting hm.usable (by simp [MutexKind.isInheriting, hfamily]),
        acquireInheriting, if_pos ⟨hheld, hanswers⟩, hasked]

/-- **Whoever has a mutex and may take it once more is left with it**, or, where the count was
nought, with one that is at rest. -/
theorem IsReentrant.exists_lent (hm : m.IsReentrant p) (hfits : m.Fits) :
    ∃ back, m.LendsTo p { m with depth := m.depth + 1 } back := by
  have hrest := isAtRest_givenBack hm.usable hm.owner hm.held
  have honce : ({ m with depth := m.depth + 1 } : Mutex).giveBackOnce p none =
      if m.depth = 0 then (none, m.givenBack p) else (none, m) := by
    simp only [giveBackOnce, UInt32.add_sub_cancel]
  have hrelease : ({ m with depth := m.depth + 1 } : Mutex).release p =
      if m.depth = 0 then (none, m.givenBack p) else (none, m) := by
    rw [release_counted (m := { m with depth := m.depth + 1 }) (not_unusable hm.usable) hm.counts
      hm.owner, honce]
  have hnot : ¬ m.IsAtRest := fun hfree => by cases hfree.owner.symm.trans hm.owner
  have hfitsLent : ({ m with depth := m.depth + 1 } : Mutex).Fits :=
    ⟨hfits.word, hfits.owner, hfits.links⟩
  by_cases hdepth : m.depth = 0
  · rw [if_pos hdepth] at hrelease
    exact ⟨_, rfl, hfitsLent, hrelease, rfl, hrest.fits_givenBack hfits, .inl (hrest.isReady p),
      fun hfree => absurd hfree hnot⟩
  · rw [if_neg hdepth] at hrelease
    exact ⟨m, rfl, hfitsLent, hrelease, rfl, hfits, .inr hm, fun hfree => absurd hfree hnot⟩

/-- **A mutex that is open to a party is granted to it.** -/
theorem IsOpenTo.exists_lent (hm : m.IsOpenTo p) (hfits : m.Fits) (waits : Bool) :
    ∃ lent back, m.acquire p waits = (.granted, lent) ∧ m.LendsTo p lent back := by
  obtain hready | hreentrant := hm
  · exact hready.exists_lent hfits waits
  · obtain ⟨back, hlent⟩ := hreentrant.exists_lent hfits
    exact ⟨_, back, hreentrant.acquire waits, hlent⟩

end Mutex

/-! ## Words of a lock that are stored once more -/

/-- A place in none of the words that are written when a lock is stored: in front of them,
behind them or between two of them. -/
def LockLayout.IsApart (offset i : Nat) : Prop :=
  i < offset ∨ (offset + kindOffset ≤ i ∧ i < offset + spinsOffset) ∨
    (offset + spinsOffset + 2 ≤ i ∧ i < offset + linksOffset) ∨
    (offset + comersOffset + 8 ≤ i ∧ i < offset + groupsOffset) ∨
    (offset + groupsOffset + 8 ≤ i ∧ i < offset + readersOffset) ∨ offset + lockExtent ≤ i

/-- A place in one of the words of a mutex that say nothing of who has it: how often its
owner has taken it last, how long to look, and its links. -/
def LockLayout.IsPrivate (offset i : Nat) : Prop :=
  (offset + depthOffset ≤ i ∧ i < offset + ownerOffset) ∨
    (offset + spinsOffset ≤ i ∧ i < offset + spinsOffset + 2) ∨
    (offset + linksOffset ≤ i ∧ i < offset + comersOffset)

namespace Content

/-- Two contents that differ in the words of the lock at an offset at most. -/
structure SameApart (offset : Nat) (c c' : Content) : Prop where
  length : c'.length = c.length
  byte : ∀ i, IsApart offset i → c'.byte i = c.byte i
  signer : ∀ place, offset + lockExtent ≤ place → c'.signer? place = c.signer? place

/-- Two contents that differ in the words of the lock at an offset at most, of which the second
one has the given lock there. -/
structure Stores (offset : Nat) (l : RwLock) (c c' : Content) : Prop
    extends SameApart offset c c' where
  lock : c'.lockAt offset = l

/-- Two contents that differ in the words of the lock at an offset at most: its mutex was
taken and given back, and so many readers are counted in the second one. -/
structure Visited (offset : Nat) (readers : UInt32) (c c' : Content) : Prop
    extends SameApart offset c c' where
  mutex : (c.lockAt offset).mutex.SettlesTo (c'.lockAt offset).mutex
  queue : (c'.lockAt offset).queue = (c.lockAt offset).queue
  readers : (c'.lockAt offset).readers = readers

variable {c c₁ c₂ : Content} {offset : Nat}

theorem SameApart.refl (c : Content) : SameApart offset c c :=
  ⟨rfl, fun _ _ => rfl, fun _ _ => rfl⟩

theorem SameApart.trans (hfirst : SameApart offset c c₁) (hsecond : SameApart offset c₁ c₂) :
    SameApart offset c c₂ where
  length := hsecond.length.trans hfirst.length
  byte i hi := (hsecond.byte i hi).trans (hfirst.byte i hi)
  signer place hplace := (hsecond.signer place hplace).trans (hfirst.signer place hplace)

theorem Stores.trans {l l' : RwLock} (hfirst : Stores offset l c c₁)
    (hsecond : Stores offset l' c₁ c₂) : Stores offset l' c c₂ where
  toSameApart := hfirst.toSameApart.trans hsecond.toSameApart
  lock := hsecond.lock

theorem Visited.trans {readers readers' : UInt32} (hfirst : Visited offset readers c c₁)
    (hsecond : Visited offset readers' c₁ c₂) : Visited offset readers' c c₂ where
  toSameApart := hfirst.toSameApart.trans hsecond.toSameApart
  mutex := hfirst.mutex.trans hsecond.mutex
  queue := hsecond.queue.trans hfirst.queue
  readers := hsecond.readers

theorem isApart_of_outside {i : Nat} (hi : i < offset ∨ offset + lockExtent ≤ i) :
    IsApart offset i :=
  hi.imp_right fun hbehind => .inr (.inr (.inr (.inr hbehind)))

theorem byte_setLock_of_apart (c : Content) (l : RwLock) {i : Nat} (hi : IsApart offset i) :
    (c.setLock offset l).byte i = c.byte i := by
  simp only [IsApart, lockExtent, kindOffset, spinsOffset, linksOffset, comersOffset,
    groupsOffset, readersOffset] at hi
  simp only [setLock, setQueue, setMutex, wordOffset, depthOffset, ownerOffset, usersOffset,
    spinsOffset, linksOffset, comersOffset, groupsOffset, readersOffset]
  rw [byte_setNumber_of_outside _ (by omega), byte_setNumber_of_outside _ (by omega),
    byte_setNumber_of_outside _ (by omega), byte_setNumber_of_outside _ (by omega),
    byte_setNumber_of_outside _ (by omega), byte_setNumber_of_outside _ (by omega),
    byte_setNumber_of_outside _ (by omega), byte_setHolderWord_of_outside _ _ (by omega),
    byte_setNumber_of_outside _ (by omega), byte_setHolderWord_of_outside _ _ (by omega)]

theorem signer?_setLock_of_behind (c : Content) (l : RwLock) {place : Nat}
    (hplace : offset + lockExtent ≤ place) :
    (c.setLock offset l).signer? place = c.signer? place := by
  simp only [lockExtent, readersOffset] at hplace
  simp only [setLock, setQueue, setMutex, wordOffset, depthOffset, ownerOffset, usersOffset,
    spinsOffset, linksOffset, comersOffset, groupsOffset, readersOffset]
  rw [signer?_setNumber_of_outside _ (by omega), signer?_setNumber_of_outside _ (by omega),
    signer?_setNumber_of_outside _ (by omega), signer?_setNumber_of_outside _ (by omega),
    signer?_setNumber_of_outside _ (by omega), signer?_setNumber_of_outside _ (by omega),
    signer?_setNumber_of_outside _ (by omega), signer?_setHolderWord_of_outside _ _ (by omega),
    signer?_setNumber_of_outside _ (by omega), signer?_setHolderWord_of_outside _ _ (by omega)]

theorem sameApart_setLock (c : Content) (offset : Nat) (l : RwLock) :
    SameApart offset c (c.setLock offset l) where
  length := c.length_setLock l
  byte _ hi := c.byte_setLock_of_apart l hi
  signer _ hplace := c.signer?_setLock_of_behind l hplace

/-- A lock that was stored with the kind of mutex it had is found again. -/
theorem stores_setLock {l : RwLock} (hfits : l.mutex.Fits)
    (hin : offset + lockExtent ≤ c.length) (hkind : l.mutex.kind = (c.lockAt offset).mutex.kind) :
    Stores offset l c (c.setLock offset l) where
  toSameApart := c.sameApart_setLock offset l
  lock := by rw [lockAt_setLock c hfits hin, ← hkind]

/-- Four bytes stand for a number that fits into four bytes. -/
theorem toNat_number_four (c : Content) (offset : Nat) :
    (UInt32.ofNat (c.number offset 4)).toNat = c.number offset 4 := by
  have hlt := Word.ofBytes_lt (c.read offset 4)
  rw [length_read] at hlt
  exact UInt32.toNat_ofNat_of_lt' hlt

theorem toNat_number_eight (c : Content) (offset : Nat) :
    (UInt64.ofNat (c.number offset 8)).toNat = c.number offset 8 := by
  have hlt := Word.ofBytes_lt (c.read offset 8)
  rw [length_read] at hlt
  exact UInt64.toNat_ofNat_of_lt' hlt

/-- A word that names nobody is zero. -/
theorem number_of_free (hfree : c.holderWord offset = .free) : c.number offset 4 = 0 := by
  have hlt := Word.ofBytes_lt (c.read offset 4)
  rw [length_read] at hlt
  have hbound : c.number offset 4 < 4294967296 := hlt
  have hbearer := congrArg HolderWord.bearer hfree
  have hdead := congrArg HolderWord.dead hfree
  have hawaited := congrArg HolderWord.awaited hfree
  have hlow : c.number offset 4 % deadBit = 0 := by
    simp only [holderWord, HolderWord.free] at hbearer
    split at hbearer
    · split at hbearer
      · cases hbearer
      · exact Bearer.number.inj hbearer
    · exact Bearer.number.inj hbearer
  simp only [holderWord, HolderWord.free, Nat.testBit_eq_decide_div_mod_eq,
    decide_eq_false_iff_not] at hdead hawaited
  simp only [deadBit] at hlow
  omega

/-- A number that is the same has the same bytes. -/
theorem byte_eq_of_number {start count i : Nat}
    (heq : c₁.number start count = c.number start count) (hlow : start ≤ i)
    (hhigh : i < start + count) : c₁.byte i = c.byte i := by
  have hbyte := byte_eq_of_number_eq heq (show i - start < count by omega)
  rwa [Nat.add_sub_cancel' hlow] at hbyte

/-- Where as many have joined the queue of a lock and as many readers are counted, the bytes
behind the mutex are the same. -/
theorem SameApart.byte_behind (hsame : SameApart offset c c₁)
    (hqueue : (c₁.lockAt offset).queue = (c.lockAt offset).queue)
    (hreaders : (c₁.lockAt offset).readers = (c.lockAt offset).readers) {i : Nat}
    (hi : offset + comersOffset ≤ i) : c₁.byte i = c.byte i := by
  have hcomers : c₁.number (offset + comersOffset) 8 = c.number (offset + comersOffset) 8 := by
    have hsame := congrArg (fun q => q.comers.toNat) hqueue
    rwa [lockAt, lockAt, queueAt, queueAt, toNat_number_eight, toNat_number_eight] at hsame
  have heven : c₁.number (offset + groupsOffset) 4 = c.number (offset + groupsOffset) 4 := by
    have hsame := congrArg (fun q => q.even.toNat) hqueue
    rwa [lockAt, lockAt, queueAt, queueAt, toNat_number_four, toNat_number_four] at hsame
  have hodd : c₁.number (offset + groupsOffset + 4) 4 =
      c.number (offset + groupsOffset + 4) 4 := by
    have hsame := congrArg (fun q => q.odd.toNat) hqueue
    rwa [lockAt, lockAt, queueAt, queueAt, toNat_number_four, toNat_number_four] at hsame
  have hcount : c₁.number (offset + readersOffset) 4 = c.number (offset + readersOffset) 4 := by
    have hsame := congrArg UInt32.toNat hreaders
    rwa [lockAt, lockAt, toNat_number_four, toNat_number_four] at hsame
  by_cases hapart : IsApart offset i
  · exact hsame.byte i hapart
  · simp only [IsApart, lockExtent, kindOffset, spinsOffset, linksOffset, comersOffset,
      groupsOffset, readersOffset] at *
    -- what is left are the four numbers, in the order in which they lie
    by_cases h₁ : i < offset + 48
    · exact byte_eq_of_number hcomers (by omega) (by omega)
    · by_cases h₂ : i < offset + 68
      · exact byte_eq_of_number heven (by omega) (by omega)
      · by_cases h₃ : i < offset + 72
        · exact byte_eq_of_number hodd (by omega) (by omega)
        · exact byte_eq_of_number hcount (by omega) (by omega)

/-- **A visit changes no byte that says anything of the lock**, when as many readers are
counted as before. -/
theorem Visited.byte_eq (hvisited : Visited offset (c.lockAt offset).readers c c₁)
    (hrest : (c.lockAt offset).mutex.IsAtRest) {i : Nat} (hi : ¬ IsPrivate offset i) :
    c₁.byte i = c.byte i := by
  have hword : c₁.number (offset + wordOffset) 4 = c.number (offset + wordOffset) 4 := by
    rw [number_of_free hvisited.mutex.atRest.word, number_of_free hrest.word]
  have howner : c₁.number (offset + ownerOffset) 4 = c.number (offset + ownerOffset) 4 := by
    rw [number_of_free hvisited.mutex.atRest.owner, number_of_free hrest.owner]
  have husers : c₁.number (offset + usersOffset) 4 = c.number (offset + usersOffset) 4 := by
    have hsame := congrArg UInt32.toNat hvisited.mutex.users
    rwa [lockAt, lockAt, mutexAt, mutexAt, toNat_number_four, toNat_number_four] at hsame
  by_cases hapart : IsApart offset i
  · exact hvisited.byte i hapart
  · by_cases hbehind : offset + comersOffset ≤ i
    · exact hvisited.toSameApart.byte_behind hvisited.queue hvisited.readers hbehind
    · simp only [IsApart, IsPrivate, wordOffset, depthOffset, ownerOffset, usersOffset,
        kindOffset, spinsOffset, linksOffset, comersOffset] at *
      -- what is left are the three words that say who has the mutex
      by_cases h₁ : i < offset + 4
      · exact byte_eq_of_number hword (by omega) (by omega)
      · by_cases h₂ : i < offset + 12
        · exact byte_eq_of_number howner (by omega) (by omega)
        · exact byte_eq_of_number husers (by omega) (by omega)

/-- A lock whose mutex was lent while it was at rest was visited. -/
theorem Stores.visited {p : Party} {lent back : Mutex} {readers : UInt32}
    (hstores : Stores offset { c.lockAt offset with mutex := back, readers } c c₁)
    (hlent : (c.lockAt offset).mutex.LendsTo p lent back)
    (hrest : (c.lockAt offset).mutex.IsAtRest) : Visited offset readers c c₁ where
  toSameApart := hstores.toSameApart
  mutex := by
    rw [hstores.lock]
    exact hlent.settles hrest
  queue := by rw [hstores.lock]
  readers := by rw [hstores.lock]

end Content

/-! ## One file of a host, with another content -/

theorem Disk.modifyContent_self {d : Disk} {file : FileId} {mode : Nat} {c : Content}
    (hfile : d.file? file = some (.regular mode c)) : d.modifyContent file (fun _ => c) = d := by
  apply modifyFile_self
  intro node hnode
  cases hfile.symm.trans hnode
  rfl

namespace Host

variable {h : Host} {file : FileId} {offset : Nat} {c : Content}

/-- The host with another content of a file, and nothing else changed. -/
def withContent (h : Host) (file : FileId) (c : Content) : Host :=
  h.changeContent file fun _ => c

theorem isRegular_withContent (hreg : h.disk.IsRegular file) (c : Content) :
    (h.withContent file c).disk.IsRegular file :=
  (onlyFile_changeContent h file _).regular hreg

theorem content_withContent (hreg : h.disk.IsRegular file) (c : Content) :
    (h.withContent file c).disk.content file = c :=
  content_changeContent hreg

theorem lockAt_withContent (hreg : h.disk.IsRegular file) (c : Content) (offset : Nat) :
    (h.withContent file c).lockAt (.inFile file offset) = c.lockAt offset :=
  congrArg (fun c => Content.lockAt c offset) (content_withContent hreg c)

/-- The content that a file has is no change. -/
theorem withContent_content (hreg : h.disk.IsRegular file) :
    h.withContent file (h.disk.content file) = h := by
  obtain ⟨mode, c, hfile⟩ := hreg
  have hcontent : h.disk.content file = c := by rw [Disk.content, hfile]
  rw [hcontent, withContent, changeContent, Disk.modifyContent_self hfile]

/-- Only the last change of a content is left. -/
theorem changeContent_withContent (h : Host) (file : FileId) (c : Content)
    (f : Content → Content) :
    (h.withContent file c).changeContent file f = h.withContent file (f c) := by
  simp only [withContent, changeContent, Disk.modifyContent, Disk.modifyFile,
    List.modify_modify_eq]
  congr 3
  funext node
  cases node <;> rfl

theorem setLock_withContent (h : Host) (file : FileId) (c : Content) (offset : Nat)
    (l : RwLock) :
    (h.withContent file c).setLock (.inFile file offset) l =
      h.withContent file (c.setLock offset l) :=
  changeContent_withContent h file c _

/-- A mutex is stored in the place of one of its kind. -/
theorem exists_setMutex (hreg : h.disk.IsRegular file) (hin : offset + lockExtent ≤ c.length)
    {m : Mutex} (hfits : m.Fits) (hkind : m.kind = (c.lockAt offset).mutex.kind) :
    ∃ c', (h.withContent file c).setMutex (.inFile file offset) m = h.withContent file c' ∧
      c.Stores offset { c.lockAt offset with mutex := m } c' := by
  have hlock := lockAt_withContent hreg c offset
  by_cases hsame : m = (c.lockAt offset).mutex
  · refine ⟨c, ?_, .refl c, ?_⟩
    · simp only [setMutex, hlock, if_pos hsame]
    · rw [hsame]
  · refine ⟨_, ?_, Content.stores_setLock hfits hin hkind⟩
    simp only [setMutex, hlock, if_neg hsame, setLock_withContent]

/-! ## Visits -/

variable {p : Party}

/-- The host once it was said that a mutex was recovered, if it was. -/
def afterGrant (h : Host) (grant : Grant) (holder : String) : Host :=
  match grant with
  | .recovered => stateAfter ((sayRecovered holder : HostM Error Unit) h)
  | _ => h

/-- Whoever asks for a mutex leaves it as `Mutex.acquire` says. -/
theorem exists_tryMutex (hreg : h.disk.IsRegular file) (hin : offset + lockExtent ≤ c.length)
    {limit : Int} {grant : Grant} {m : Mutex}
    (hacquire : (c.lockAt offset).mutex.acquire p (0 ≤ limit) = (grant, m)) (hfits : m.Fits)
    (hkind : m.kind = (c.lockAt offset).mutex.kind) {ε : Type} :
    ∃ c', (tryMutex (.inFile file offset) p limit : HostM ε Grant) (h.withContent file c) =
        .ok grant (h.withContent file c') ∧
      c.Stores offset { c.lockAt offset with mutex := m } c' := by
  obtain ⟨c', hset, hstores⟩ := exists_setMutex hreg hin hfits hkind
  refine ⟨c', ?_, hstores⟩
  apply modifyGet_of_eq
  rw [lockAt_withContent hreg, hacquire, ← hset]

/-- **A visit**: the mutex of a lock is had, some count of readers is stored, and the mutex is
given back. -/
theorem exists_visit (hreg : h.disk.IsRegular file) (hin : offset + lockExtent ≤ c.length)
    {limit : Int} {grant : Grant} {lent back : Mutex}
    (hacquire : (c.lockAt offset).mutex.acquire p (0 ≤ limit) = (grant, lent))
    (hhad : grant = .granted ∨ grant = .recovered)
    (hlent : (c.lockAt offset).mutex.LendsTo p lent back) (mode : LockMode) (holder : String)
    (readers : UInt32) {ε : Type} :
    ∃ c₁ c₂, takeMutex (.inFile file offset) p limit mode holder (h.withContent file c) =
        .ok () ((h.afterGrant grant holder).withContent file c₁) ∧
      (c₁.lockAt offset).readers = (c.lockAt offset).readers ∧
      (releaseMutex (.inFile file offset) p : HostM ε Unit)
        (((h.afterGrant grant holder).withContent file c₁).setLock (.inFile file offset)
          { c₁.lockAt offset with readers }) =
        .ok () ((h.afterGrant grant holder).withContent file c₂) ∧
      c.Stores offset { c.lockAt offset with mutex := back, readers } c₂ := by
  obtain ⟨c₁, htry, hfirst⟩ :=
    exists_tryMutex (ε := Error) hreg hin hacquire hlent.fits hlent.kind
  have htake : takeMutex (.inFile file offset) p limit mode holder (h.withContent file c) =
      .ok () ((h.afterGrant grant holder).withContent file c₁) := by
    unfold takeMutex
    refine (bind_of_ok htry).trans ?_
    obtain rfl | rfl := hhad <;> rfl
  have hreg' : (h.afterGrant grant holder).disk.IsRegular file := by
    obtain rfl | rfl := hhad <;> exact hreg
  generalize h.afterGrant grant holder = h' at htake hreg'
  -- the lock while the mutex is held, with the new count
  have hsecond : c₁.Stores offset { c.lockAt offset with mutex := lent, readers }
      (c₁.setLock offset { c₁.lockAt offset with readers }) := by
    have hstores := Content.stores_setLock (l := { c₁.lockAt offset with readers })
      (c₁.fits_mutexAt offset) (by rwa [hfirst.length]) rfl
    rw [hfirst.lock] at hstores ⊢
    exact hstores
  have hboth := hfirst.trans hsecond
  generalize hc₂ : c₁.setLock offset { c₁.lockAt offset with readers } = c₂ at hsecond hboth
  -- and once it is given back
  obtain ⟨c₃, hset, hthird⟩ := exists_setMutex hreg' (by rwa [hboth.length]) hlent.fitsBack
    (by
      rw [hboth.lock]
      exact hlent.kindBack.trans hlent.kind.symm)
  have hrelease : (tryRelease (.inFile file offset) p : HostM ε _) (h'.withContent file c₂) =
      .ok none (h'.withContent file c₃) := by
    apply modifyGet_of_eq
    rw [lockAt_withContent hreg', hboth.lock, hlent.release, ← hset]
  refine ⟨c₁, c₃, htake, by rw [hfirst.lock], ?_, ?_⟩
  · rw [setLock_withContent, hc₂]
    exact bind_of_ok hrelease
  · have hall := hboth.trans hthird
    rw [hboth.lock] at hall
    exact hall

/-- **A reader is let in** by whoever has the mutex, if the count can go higher. -/
theorem lockRead_had (hreg : h.disk.IsRegular file) (hin : offset + lockExtent ≤ c.length)
    {timeout readTimeout : Span} {grant : Grant} {lent back : Mutex}
    (hacquire : (c.lockAt offset).mutex.acquire p
      (0 ≤ (deadline h.now (timeout.shorter readTimeout)).toNanos) = (grant, lent))
    (hhad : grant = .granted ∨ grant = .recovered)
    (hlent : (c.lockAt offset).mutex.LendsTo p lent back)
    (hroom : (c.lockAt offset).readers ≠ RwLock.maxReaders) (holder : String) :
    ∃ c', lockRead (.inFile file offset) p timeout readTimeout holder (h.withContent file c) =
        .ok () ((h.afterGrant grant holder).withContent file c') ∧
      c.Stores offset { c.lockAt offset with
        mutex := back, readers := (c.lockAt offset).readers + 1 } c' := by
  obtain ⟨c₁, c₂, htake, hreaders, hrelease, hstores⟩ := exists_visit hreg hin hacquire hhad
    hlent .read holder ((c.lockAt offset).readers + 1) (ε := Abort)
  refine ⟨c₂, ?_, hstores⟩
  have henter : (c₁.lockAt offset).enter? =
      some { c₁.lockAt offset with readers := (c.lockAt offset).readers + 1 } := by
    rw [RwLock.enter?, hreaders, if_neg hroom]
  have hreg' : (h.afterGrant grant holder).disk.IsRegular file := by
    obtain rfl | rfl := hhad <;> exact hreg
  unfold lockRead
  refine get_bind_eq.trans ?_
  refine (bind_of_ok (mapFailure_of_ok htake)).trans ?_
  refine mapFailure_of_ok ?_
  unfold countIn
  refine get_bind_eq.trans ?_
  rw [lockAt_withContent hreg', henter]
  exact (bind_of_ok rfl).trans hrelease

/-- **A reader is let out at once** when a mutex is open and any reader is counted. -/
theorem unlockRead_open (hreg : h.disk.IsRegular file)
    (hin : offset + lockExtent ≤ c.length) (hopen : (c.lockAt offset).mutex.IsOpenTo p)
    (hcounted : (c.lockAt offset).readers ≠ 0) (readTimeout : Span) (holder : String)
    {ε : Type} :
    ∃ c' lent back, (unlockRead (.inFile file offset) p readTimeout holder : HostM ε Unit)
        (h.withContent file c) = .ok () (h.withContent file c') ∧
      (c.lockAt offset).mutex.LendsTo p lent back ∧
      c.Stores offset { c.lockAt offset with
        mutex := back, readers := (c.lockAt offset).readers - 1 } c' := by
  obtain ⟨lent, back, hacquire, hlent⟩ := hopen.exists_lent (c.fits_mutexAt offset)
    (0 ≤ (deadline (h.withContent file c).now readTimeout).toNanos)
  obtain ⟨c₁, c₂, htake, hreaders, hrelease, hstores⟩ := exists_visit hreg hin hacquire
    (.inl rfl) hlent .read holder ((c.lockAt offset).readers - 1) (ε := ε)
  refine ⟨c₂, lent, back, ?_, hlent, hstores⟩
  have hleave : (c₁.lockAt offset).leave? =
      some { c₁.lockAt offset with readers := (c.lockAt offset).readers - 1 } := by
    rw [RwLock.leave?, hreaders, if_neg hcounted]
  unfold unlockRead
  refine get_bind_eq.trans ?_
  refine (bind_of_ok (attempt_of_ok htake)).trans ?_
  show countOut (.inFile file offset) p holder (h.withContent file c₁) = _
  unfold countOut
  refine get_bind_eq.trans ?_
  rw [lockAt_withContent hreg, hleave]
  exact (bind_of_ok rfl).trans hrelease

/-- **A reader is let in at once** when a lock rests and the count can go higher. -/
theorem lockRead_resting (hreg : h.disk.IsRegular file) (hin : offset + lockExtent ≤ c.length)
    (hrest : (c.lockAt offset).mutex.IsAtRest)
    (hroom : (c.lockAt offset).readers ≠ RwLock.maxReaders) (p : Party)
    (timeout readTimeout : Span) (holder : String) :
    ∃ c', lockRead (.inFile file offset) p timeout readTimeout holder (h.withContent file c) =
        .ok () (h.withContent file c') ∧
      c.Visited offset ((c.lockAt offset).readers + 1) c' := by
  obtain ⟨lent, back, hacquire, hlent⟩ := (hrest.isReady p).exists_lent (c.fits_mutexAt offset)
    (0 ≤ (deadline h.now (timeout.shorter readTimeout)).toNanos)
  obtain ⟨c', hlock, hstores⟩ := lockRead_had hreg hin hacquire (.inl rfl) hlent hroom holder
  exact ⟨c', hlock, hstores.visited hlent hrest⟩

/-- **A reader is let out at once** when a lock rests and any reader is counted. -/
theorem unlockRead_resting (hreg : h.disk.IsRegular file)
    (hin : offset + lockExtent ≤ c.length) (hrest : (c.lockAt offset).mutex.IsAtRest)
    (hcounted : (c.lockAt offset).readers ≠ 0) (p : Party) (readTimeout : Span)
    (holder : String) {ε : Type} :
    ∃ c', (unlockRead (.inFile file offset) p readTimeout holder : HostM ε Unit)
        (h.withContent file c) = .ok () (h.withContent file c') ∧
      c.Visited offset ((c.lockAt offset).readers - 1) c' := by
  obtain ⟨c', lent, back, hunlock, hlent, hstores⟩ :=
    unlockRead_open hreg hin (.inl (hrest.isReady p)) hcounted readTimeout holder
  exact ⟨c', hunlock, hstores.visited hlent hrest⟩

/-! ## Idle locks -/

/-- A visit writes no words but those of the lock. -/
theorem onlyLockAt_visited (hreg : h.disk.IsRegular file) {c' : Content} {readers : UInt32}
    (hvisited : (h.disk.content file).Visited offset readers c') :
    OnlyLockAt file offset h (h.withContent file c') where
  toOnlyFile := onlyFile_changeContent h file _
  length := by
    rw [content_withContent hreg]
    exact hvisited.length
  outside i hi := by
    rw [content_withContent hreg]
    exact hvisited.byte i (Content.isApart_of_outside hi)

/-- **Whoever asks for an idle lock to read is counted at once.** -/
theorem lockRead_idle_at (hhas : h.HasLockAt file offset)
    (hidle : (h.lockAt (.inFile file offset)).IsIdle)
    (p : Party) (timeout readTimeout : Span) (holder : String) :
    ∃ h', lockRead (.inFile file offset) p timeout readTimeout holder h = .ok () h' ∧
      OnlyLockAt file offset h h' ∧ (h'.lockAt (.inFile file offset)).mutex.IsFree ∧
      (h'.lockAt (.inFile file offset)).readers = 1 := by
  have hzero : ((h.disk.content file).lockAt offset).readers = 0 := hidle.readers
  have hroom : ((h.disk.content file).lockAt offset).readers ≠ RwLock.maxReaders := by
    rw [hzero]
    decide
  obtain ⟨c', hlock, hvisited⟩ := lockRead_resting hhas.regular hhas.covers
    hidle.mutex.isAtRest hroom p timeout readTimeout holder
  rw [withContent_content hhas.regular] at hlock
  refine ⟨_, hlock, onlyLockAt_visited hhas.regular hvisited, ?_, ?_⟩
  · rw [lockAt_withContent hhas.regular]
    exact hvisited.mutex.isFree hidle.mutex
  · rw [lockAt_withContent hhas.regular, hvisited.readers, hzero]
    rfl

end Host

end Subscription
