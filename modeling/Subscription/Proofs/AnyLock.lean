import Subscription.Proofs.Deadlines
import Subscription.Proofs.RestingLock
import Subscription.Proofs.UseFrames

/-!
# A lock in any state

The words of a lock may say anything, and somebody may have it, alive or dead, be it the party
itself that asks.  It either has the mutex in the end, and can give it back, or is told why not
(`Mutex.IsOnRecord.answers`).  It leaves a mark in the words of the mutex either way, and in no
other word (`Content.MarkedAt.byte_eq`).  The mark neither helps nor hurts: whoever asks again is
told the same (`Mutex.TriedBy`).

So a reader is let in and out again, or is told what hinders it (`Host.lockRead_any`).  It has to
be one who waits: where a mutex lends priority, one whose deadline lies before the epoch is
refused what others are waiting for.  And it has to be on record where it takes a mutex once more,
for only who is on record can give that back.
-/

namespace Subscription

open LockLayout

/-- A mutex where a party that may take it once more because its word names it is on record, as
whoever has taken it is. -/
def Mutex.IsOnRecord (m : Mutex) (p : Party) : Prop :=
  m.kind.manner = .counting → m.kind.family ≠ .plain → m.isHeldBy p → m.owner = .heldBy p

/-- Why a party that waits for a mutex does not get it, if it does not. -/
def Mutex.hindrance (m : Mutex) (p : Party) (mode : LockMode) (holder : String) : Option Error :=
  match (m.acquire p true).1 with
  | .granted | .recovered => none
  | .busy => some (.lockTimeout mode.name holder)
  | .refused e => some (.lockFailed mode.name holder e)

/-- A mutex, and what is left of it when a party has tried to have it, and given it back if it
could: that party is told the same when it tries again, and where nobody has the mutex, nobody
has it afterwards. -/
structure Mutex.TriedBy (p : Party) (m m' : Mutex) : Prop where
  kind : m'.kind = m.kind
  record : m.IsOnRecord p → m'.IsOnRecord p
  hindrance : m'.hindrance p = m.hindrance p
  settles : m.IsAtRest → m.SettlesTo m'

theorem HolderWord.contested_ne_free : HolderWord.contested ≠ .free := by decide

theorem HolderWord.fits_contested : HolderWord.contested.Fits := by
  intro n hn
  cases hn
  decide

namespace Mutex

variable {m m' lent back : Mutex} {p : Party} {waits : Bool}

theorem IsAtRest.settlesTo (hm : m.IsAtRest) (hfits : m.Fits) : m.SettlesTo m :=
  ⟨rfl, rfl, hm, hfits⟩

theorem IsOpenTo.isOnRecord (hm : m.IsOpenTo p) : m.IsOnRecord p := by
  intro _ _ hheld
  obtain hready | hreentrant := hm
  · exact absurd hready.word (word_ne_free_of_held hheld)
  · exact hreentrant.owner

namespace TriedBy

theorem refl (hfits : m.Fits) : m.TriedBy p m where
  kind := rfl
  record := id
  hindrance := rfl
  settles hm := hm.settlesTo hfits

theorem trans {last : Mutex} (hfirst : m.TriedBy p m') (hsecond : m'.TriedBy p last) :
    m.TriedBy p last where
  kind := hsecond.kind.trans hfirst.kind
  record hm := hsecond.record (hfirst.record hm)
  hindrance := hsecond.hindrance.trans hfirst.hindrance
  settles hm := (hfirst.settles hm).trans (hsecond.settles (hfirst.settles hm).atRest)

end TriedBy

/-! ### What a mutex answers -/

theorem hindrance_of_had {grant : Grant} (hacquire : (m.acquire p true).1 = grant)
    (hhad : grant = .granted ∨ grant = .recovered) : m.hindrance p = fun _ _ => none := by
  funext mode holder
  unfold hindrance
  rw [hacquire]
  obtain rfl | rfl := hhad <;> rfl

/-- Nothing is in the way of one to whom a mutex is open. -/
theorem IsOpenTo.hindrance (hm : m.IsOpenTo p) (hfits : m.Fits) :
    m.hindrance p = fun _ _ => none := by
  obtain ⟨lent, back, hacquire, -⟩ := hm.exists_lent hfits true
  exact hindrance_of_had (congrArg Prod.fst hacquire) (.inl rfl)

/-- A mutex that was had, and given back. -/
theorem LendsTo.triedBy (hlent : m.LendsTo p lent back) (hfree : m.hindrance p = fun _ _ => none) :
    m.TriedBy p back where
  kind := hlent.kindBack
  record _ := hlent.reopens.isOnRecord
  hindrance := (hlent.reopens.hindrance hlent.fitsBack).trans hfree.symm
  settles := hlent.settles

/-- A mutex that was not had, and would not be had by asking again. -/
theorem triedBy_of_again {grant : Grant} (hfits : m.Fits)
    (hacquire : m.acquire p true = (grant, m')) (hnot : grant ≠ .granted)
    (hkind : m'.kind = m.kind) (hrecord : m.IsOnRecord p → m'.IsOnRecord p)
    (hagain : (m'.acquire p true).1 = grant) : m.TriedBy p m' where
  kind := hkind
  record := hrecord
  hindrance := by
    funext mode holder
    rw [Mutex.hindrance, Mutex.hindrance, hagain, hacquire]
  settles hrest := by
    obtain ⟨lent, back, hgranted, -⟩ := (hrest.isReady p).exists_lent hfits true
    exact absurd (congrArg Prod.fst (hacquire.symm.trans hgranted)) hnot

/-- What a mutex answers to one who waits: it is had, and can be given back, or it is not had,
and the same is answered again. -/
def Answers (m : Mutex) (p : Party) : Prop :=
  (∃ grant m', m.acquire p true = (grant, m') ∧ grant ≠ .granted ∧ grant ≠ .recovered ∧
    m.TriedBy p m' ∧ m'.Fits) ∨
  ∃ grant lent back, m.acquire p true = (grant, lent) ∧
    (grant = .granted ∨ grant = .recovered) ∧ m.LendsTo p lent back

theorem IsOpenTo.answers (hm : m.IsOpenTo p) (hfits : m.Fits) : m.Answers p := by
  obtain ⟨lent, back, hacquire, hlent⟩ := hm.exists_lent hfits true
  exact .inr ⟨_, lent, back, hacquire, .inl rfl, hlent⟩

/-- A mutex that is left as it is answers the same again. -/
theorem answers_of_left {grant : Grant} (hfits : m.Fits) (hacquire : m.acquire p true = (grant, m))
    (hnot : grant ≠ .granted) (hnot' : grant ≠ .recovered) : m.Answers p :=
  .inl ⟨grant, m, hacquire, hnot, hnot', .refl hfits, hfits⟩

/-- Whoever finds a plain mutex taken leaves a mark. -/
theorem acquirePlain_taken (hword : m.word ≠ .free) :
    ∃ spins, m.acquirePlain p = (.busy, { m with word := .contested, spins }) := by
  rw [acquirePlain, if_neg hword]
  obtain ⟨spins, hcount⟩ := exists_countDown { m with word := .contested }
  cases hmanner : m.kind.manner with
  | patient =>
      by_cases helided : m.kind.elided = true
      · refine ⟨spins, ?_⟩
        simp only [hmanner, if_pos helided, hcount]
      · refine ⟨m.spins, ?_⟩
        simp only [hmanner, if_neg helided]
  | spinning =>
      simp only [hmanner]
      exact ⟨_, rfl⟩
  | _ => exact ⟨m.spins, by simp only [hmanner]⟩

/-- A plain mutex that is taken, and that its owner does not ask for again. -/
theorem answers_of_taken (hfits : m.Fits) (husable : m.kind.isUsable = true)
    (hplain : m.kind.family = .plain) (hunasked : ¬ (m.isOwnedBy p ∧ m.kind.answers))
    (hword : m.word ≠ .free) : m.Answers p := by
  have hacquire : ∀ m' : Mutex, m'.kind = m.kind → m'.owner = m.owner →
      m'.acquire p true = m'.acquirePlain p := by
    intro m' hkind howner
    rw [acquire_plain (hkind ▸ husable) (hkind ▸ hplain), isOwnedBy, howner, hkind]
    exact if_neg hunasked
  obtain ⟨spins, htaken⟩ := acquirePlain_taken (p := p) hword
  have hfirst := (hacquire m rfl rfl).trans htaken
  -- the mark says that the mutex is taken, so that it is found taken again
  obtain ⟨spins', hmarked⟩ := acquirePlain_taken (p := p)
    (m := { m with word := .contested, spins }) HolderWord.contested_ne_free
  have hagain := (hacquire { m with word := .contested, spins } rfl rfl).trans hmarked
  refine .inl ⟨_, _, hfirst, by decide, by decide, triedBy_of_again hfits hfirst (by decide) rfl
    (fun _ _ hfamily => absurd hplain hfamily) (congrArg Prod.fst hagain), ?_⟩
  exact ⟨HolderWord.fits_contested, hfits.owner, hfits.links⟩

/-- A mutex that names its holder, and that is waited for in vain. -/
theorem answers_of_await (hfits : m.Fits)
    (hacquire : ∀ m' : Mutex, m'.kind = m.kind → m'.word.bearer = m.word.bearer →
      m'.word.dead = m.word.dead → m'.word ≠ .free → m'.acquire p true = (.busy, m'.await true))
    (hword : m.word ≠ .free) : m.Answers p := by
  have hmarked : (m.await true).word ≠ .free := by
    intro hfree
    have hawaited := congrArg HolderWord.awaited hfree
    simp [await, HolderWord.free] at hawaited
  have hfirst := hacquire m rfl rfl rfl hword
  have hagain := hacquire (m.await true) rfl rfl rfl hmarked
  exact .inl ⟨_, _, hfirst, by decide, by decide, triedBy_of_again hfits hfirst (by decide) rfl id
    (congrArg Prod.fst hagain), ⟨hfits.word, hfits.owner, hfits.links⟩⟩

/-- What its owner never put in order is refused to everybody, now and later. -/
theorem answers_of_lost (hfits : m.Fits) (husable : m.kind.isUsable = true)
    (hfamily : m.kind.family ≠ .plain) (hlost : m.kind.isRobust = true ∧ m.owner = .unrecoverable)
    (hacquire : m.acquire p true = m.acquireFree p) : m.Answers p := by
  have hfree : ∀ m' : Mutex, m'.kind = m.kind → m'.owner = m.owner →
      m'.acquireFree p = (.refused .notRecoverable, { m' with word := .free, depth := 0 }) := by
    intro m' hkind howner
    rw [acquireFree, if_pos (by rw [hkind, howner]; exact hlost)]
  have hfirst := hacquire.trans (hfree m rfl rfl)
  have hagain : ({ m with word := .free, depth := 0 } : Mutex).acquire p true =
      (.refused .notRecoverable, { m with word := .free, depth := 0 }) := by
    rw [acquire_free (m := { m with word := .free, depth := 0 }) husable hfamily rfl]
    exact hfree _ rfl rfl
  refine .inl ⟨_, _, hfirst, by decide, by decide, triedBy_of_again hfits hfirst (by decide) rfl
    (fun _ _ _ hheld => ?_) (congrArg Prod.fst hagain), ?_⟩
  · exact absurd rfl (word_ne_free_of_held hheld)
  · exact ⟨HolderWord.fits_free, hfits.owner, hfits.links⟩

/-- Whoever takes a mutex from a dead one has it. -/
theorem isInHandsOf_recover (husable : m.kind.isUsable = true) (hfamily : m.kind.family ≠ .plain)
    (p : Party) : (m.recover p).IsInHandsOf p where
  usable := husable
  word := by
    intro hfree
    cases congrArg HolderWord.bearer hfree
  owner := rfl
  held _ := decide_eq_true rfl
  depth _ := rfl
  kept h := hfamily h.1
  fits :=
    { word := fun n hn => by cases hn
      owner := HolderWord.fits_heldBy p
      links := no_links_fit }

/-- Where the holder died, the mutex is had by the next one. -/
theorem answers_of_dead (husable : m.kind.isUsable = true) (hfamily : m.kind.family ≠ .plain)
    (hword : m.word ≠ .free) (m₀ : Mutex)
    (hacquire : m.acquire p true = (.recovered, m₀.recover p)) (hkind : m₀.kind = m.kind) :
    m.Answers p := by
  rw [← hkind] at husable hfamily
  obtain ⟨back, hlent⟩ := (isInHandsOf_recover husable hfamily p).exists_lendsTo hkind
    fun hrest => absurd hrest.word hword
  exact .inr ⟨_, _, back, hacquire, .inr rfl, hlent⟩

/-- Where a mutex is there to be taken, it is had, unless it cannot be used any more. -/
theorem answers_of_free (hfits : m.Fits) (husable : m.kind.isUsable = true)
    (hfamily : m.kind.family ≠ .plain) (hacquire : m.acquire p true = m.acquireFree p) :
    m.Answers p := by
  by_cases hlost : m.kind.isRobust = true ∧ m.owner = .unrecoverable
  · exact answers_of_lost hfits husable hfamily hlost hacquire
  · obtain ⟨back, hlent⟩ := (isInHandsOf_named husable hfits.links hfamily p).exists_lendsTo
      (m := m) rfl fun _ => rfl
    exact .inr ⟨_, _, back, hacquire.trans (acquireFree_of_recoverable hlost p), .inl rfl, hlent⟩

/-- An owner who asks again has the mutex once more, or leaves it as it is. -/
theorem answers_of_asked (hfits : m.Fits) (hacquire : m.acquire p true = m.askAgain)
    (hreentrant : m.kind.manner = .counting → m.depth + 1 ≠ 0 → m.IsReentrant p) :
    m.Answers p := by
  cases hmanner : m.kind.manner with
  | patient | spinning =>
      have hbusy : m.askAgain = (.busy, m) := by rw [askAgain, hmanner]
      exact answers_of_left hfits (hacquire.trans hbusy) (by decide) (by decide)
  | checking =>
      have hrefused : m.askAgain = (.refused .deadlock, m) := by rw [askAgain, hmanner]
      exact answers_of_left hfits (hacquire.trans hrefused) (by decide) (by decide)
  | counting =>
      by_cases hfull : m.depth + 1 = 0
      · have hrefused : m.askAgain = (.refused .tryAgain, m) := by
          rw [askAgain, hmanner]
          exact if_pos hfull
        exact answers_of_left hfits (hacquire.trans hrefused) (by decide) (by decide)
      · exact IsOpenTo.answers (.inr (hreentrant hmanner hfull)) hfits

/-! ### Each family of mutexes -/

theorem answers_plain (hfits : m.Fits) (husable : m.kind.isUsable = true)
    (hplain : m.kind.family = .plain) : m.Answers p := by
  by_cases hasked : m.isOwnedBy p ∧ m.kind.answers
  · refine answers_of_asked hfits ((acquire_plain husable hplain).trans (if_pos hasked)) ?_
    intro hcounts hroom
    have howner : m.owner = .heldBy p := of_decide_eq_true hasked.1
    exact ⟨husable, hcounts, howner, absurd hplain, by simp [hplain], hroom⟩
  · by_cases hword : m.word = .free
    · refine IsOpenTo.answers (.inl ⟨husable, hword, hasked, ?_⟩) hfits
      simp [MutexKind.isRobust, hplain]
    · exact answers_of_taken hfits husable hplain hasked hword

theorem isHeldBy_congr (hbearer : m'.word.bearer = m.word.bearer) :
    m'.isHeldBy p = m.isHeldBy p := by
  rw [isHeldBy, isHeldBy, hbearer]

/-- A robust mutex that is taken, and whose holder is alive. -/
theorem acquireRobust_taken (halive : ¬ m.word.dead = true) (hword : m.word ≠ .free) :
    m.acquireRobust p waits =
      if m.isHeldBy p ∧ m.kind.answers then m.askAgain else (.busy, m.await waits) := by
  rw [acquireRobust, if_neg halive, if_neg hword]
  by_cases hheld : m.isHeldBy p = true
  · rw [if_pos hheld]
    cases hmanner : m.kind.manner with
    | patient | spinning => simp [askAgain, MutexKind.answers, hmanner]
    | checking => simp [askAgain, MutexKind.answers, hmanner, hheld]
    | counting =>
        by_cases hfull : m.depth + 1 = 0 <;>
          simp [askAgain, MutexKind.answers, hmanner, hheld, hfull]
  · rw [if_neg hheld, if_neg fun h => hheld h.1]

theorem IsOnRecord.answers_robust (hm : m.IsOnRecord p) (hfits : m.Fits)
    (husable : m.kind.isUsable = true) (hrobust : m.kind.family = .robust) : m.Answers p := by
  have hfamily : m.kind.family ≠ .plain := by simp [hrobust]
  by_cases hword : m.word = .free
  · exact answers_of_free hfits husable hfamily (acquire_free husable hfamily hword)
  · by_cases hdead : m.word.dead = true
    · refine answers_of_dead husable hfamily hword m ?_ rfl
      rw [acquire_robust husable hrobust, acquireRobust, if_pos hdead]
    · by_cases hasked : m.isHeldBy p ∧ m.kind.answers
      · refine answers_of_asked hfits ?_ fun hcounts hroom => ?_
        · rw [acquire_robust husable hrobust, acquireRobust_taken hdead hword, if_pos hasked]
        · exact ⟨husable, hcounts, hm hcounts hfamily hasked.1, fun _ => hasked.1,
            fun _ => hdead, hroom⟩
      · refine answers_of_await hfits ?_ hword
        intro m' hkind hbearer halive htaken
        rw [acquire_robust (hkind ▸ husable) (hkind ▸ hrobust),
          acquireRobust_taken (halive ▸ hdead) htaken, isHeldBy_congr hbearer, hkind,
          if_neg hasked]

theorem IsOnRecord.answers_inheriting (hm : m.IsOnRecord p) (hfits : m.Fits)
    (husable : m.kind.isUsable = true) (hinherits : m.kind.isInheriting = true) :
    m.Answers p := by
  have hfamily : m.kind.family ≠ .plain := by
    intro hplain
    simp [MutexKind.isInheriting, hplain] at hinherits
  by_cases hasked : m.isHeldBy p ∧ m.kind.answers
  · refine answers_of_asked hfits ?_ fun hcounts hroom => ?_
    · rw [acquire_inheriting husable hinherits, acquireInheriting, if_pos hasked]
    · exact ⟨husable, hcounts, hm hcounts hfamily hasked.1, fun _ => hasked.1,
        fun hrobust => by simp [MutexKind.isInheriting, hrobust] at hinherits, hroom⟩
  · by_cases hword : m.word = .free
    · exact answers_of_free hfits husable hfamily (acquire_free husable hfamily hword)
    · have hordered : ∀ m' : Mutex, m'.kind = m.kind → m'.word.bearer = m.word.bearer →
          m'.word ≠ .free → m'.acquire p true = m'.acquireOrdered p := by
        intro m' hkind hbearer htaken
        rw [acquire_inheriting (hkind ▸ husable) (hkind ▸ hinherits), acquireInheriting,
          isHeldBy_congr hbearer, hkind, if_neg hasked, if_neg htaken, if_pos rfl]
      have hfirst := hordered m rfl rfl hword
      by_cases hheld : m.isHeldBy p = true
      · rw [acquireOrdered, if_pos hheld] at hfirst
        exact answers_of_left hfits hfirst (by decide) (by decide)
      · by_cases hnobody : m.word.bearer = .number 0
        · rw [acquireOrdered, if_neg hheld, if_pos hnobody] at hfirst
          by_cases hdead : m.word.dead = true
          · rw [if_pos hdead] at hfirst
            exact answers_of_dead husable hfamily hword _ hfirst rfl
          · rw [if_neg hdead] at hfirst
            exact answers_of_free hfits husable hfamily hfirst
        · refine answers_of_await hfits ?_ hword
          intro m' hkind hbearer _ htaken
          rw [hordered m' hkind hbearer htaken, acquireOrdered, isHeldBy_congr hbearer,
            if_neg hheld, if_neg (hbearer ▸ hnobody)]

/-- **A mutex answers**, whatever its words say. -/
theorem IsOnRecord.answers (hm : m.IsOnRecord p) (hfits : m.Fits) : m.Answers p := by
  by_cases husable : m.kind.isUsable = true
  · cases hfamily : m.kind.family with
    | plain => exact answers_plain hfits husable hfamily
    | robust => exact hm.answers_robust hfits husable hfamily
    | inheriting | robustInheriting =>
        exact hm.answers_inheriting hfits husable (by simp [MutexKind.isInheriting, hfamily])
    | unusable e => exact absurd hfamily (not_unusable husable e)
  · exact answers_of_left hfits (acquire_unusable husable) (by decide) (by decide)

end Mutex

/-! ## What is left of a visit -/

/-- Two contents that differ in the words of the mutex at an offset at most, which a party has
tried to have. -/
structure Content.MarkedAt (p : Party) (offset : Nat) (c c' : Content) : Prop
    extends SameApart offset c c' where
  mutex : (c.lockAt offset).mutex.TriedBy p (c'.lockAt offset).mutex
  queue : (c'.lockAt offset).queue = (c.lockAt offset).queue
  readers : (c'.lockAt offset).readers = (c.lockAt offset).readers

/-- A place in one of the words of a mutex that are written when somebody asks for it: who has it
and how often, how long to look, and its links. -/
def LockLayout.IsMutexWord (offset i : Nat) : Prop :=
  (offset ≤ i ∧ i < offset + kindOffset) ∨
    (offset + spinsOffset ≤ i ∧ i < offset + spinsOffset + 2) ∨
    (offset + linksOffset ≤ i ∧ i < offset + comersOffset)

/-- Two hosts that differ in what time it is and in what has been logged. -/
structure Host.Later (h h' : Host) : Prop where
  disk : h'.disk = h.disk
  leavers : h'.leavers = h.leavers
  waiters : h'.waiters = h.waiters
  log : h.log <+: h'.log

namespace Content

variable {p : Party} {offset : Nat} {c c' c₁ : Content}

theorem MarkedAt.trans (hfirst : c.MarkedAt p offset c₁) (hsecond : c₁.MarkedAt p offset c') :
    c.MarkedAt p offset c' where
  toSameApart := hfirst.toSameApart.trans hsecond.toSameApart
  mutex := hfirst.mutex.trans hsecond.mutex
  queue := hsecond.queue.trans hfirst.queue
  readers := hsecond.readers.trans hfirst.readers

theorem Stores.markedAt {m : Mutex}
    (hstores : c.Stores offset { c.lockAt offset with mutex := m } c')
    (htried : (c.lockAt offset).mutex.TriedBy p m) : c.MarkedAt p offset c' where
  toSameApart := hstores.toSameApart
  mutex := by
    rw [hstores.lock]
    exact htried
  queue := by rw [hstores.lock]
  readers := by rw [hstores.lock]

/-- **A mark is left in no other word** than those of the mutex. -/
theorem MarkedAt.byte_eq (hmarked : c.MarkedAt p offset c') {i : Nat}
    (hi : ¬ IsMutexWord offset i) : c'.byte i = c.byte i := by
  by_cases hbehind : offset + comersOffset ≤ i
  · exact hmarked.toSameApart.byte_behind hmarked.queue hmarked.readers hbehind
  · apply hmarked.byte
    simp only [IsMutexWord, IsApart, kindOffset, spinsOffset, linksOffset, comersOffset] at *
    omega

/-- A mutex that nobody has is visited, and given back. -/
theorem MarkedAt.visited (hmarked : c.MarkedAt p offset c')
    (hrest : (c.lockAt offset).mutex.IsAtRest) :
    Visited offset (c.lockAt offset).readers c c' where
  toSameApart := hmarked.toSameApart
  mutex := hmarked.mutex.settles hrest
  queue := hmarked.queue
  readers := hmarked.readers

end Content

namespace Host

variable {h h' h₁ : Host} {file : FileId} {offset : Nat} {c : Content} {p : Party}

theorem Later.refl (h : Host) : h.Later h := ⟨rfl, rfl, rfl, List.prefix_rfl⟩

theorem Later.trans (hfirst : h.Later h₁) (hsecond : h₁.Later h') : h.Later h' where
  disk := hsecond.disk.trans hfirst.disk
  leavers := hsecond.leavers.trans hfirst.leavers
  waiters := hsecond.waiters.trans hfirst.waiters
  log := hfirst.log.trans hsecond.log

theorem later_afterGrant (h : Host) (grant : Grant) (holder : String) :
    h.Later (h.afterGrant grant holder) := by
  cases grant with
  | recovered => exact ⟨rfl, rfl, rfl, List.prefix_append _ _⟩
  | _ => exact .refl h

/-- Whoever waits for a mutex in vain is told why, and has left a mark in it. -/
theorem takeMutex_hindered (hreg : h.disk.IsRegular file)
    (hin : offset + lockExtent ≤ c.length) (hleavers : h.leavers = []) (hwaiters : h.waiters = [])
    {limit : Int} (hlimit : 0 ≤ limit) {grant : Grant} {m : Mutex}
    (hacquire : (c.lockAt offset).mutex.acquire p true = (grant, m)) (hnot : grant ≠ .granted)
    (hnot' : grant ≠ .recovered) (htried : (c.lockAt offset).mutex.TriedBy p m) (hfits : m.Fits)
    (mode : LockMode) (holder : String) :
    ∃ e h' c', (c.lockAt offset).mutex.hindrance p mode holder = some e ∧
      takeMutex (.inFile file offset) p limit mode holder (h.withContent file c) =
        .error e (h'.withContent file c') ∧ h.Later h' ∧ c.MarkedAt p offset c' := by
  have hwaits : (c.lockAt offset).mutex.acquire p (0 ≤ limit) = (grant, m) := by
    rw [decide_eq_true hlimit, hacquire]
  obtain ⟨c', htry, hstores⟩ := exists_tryMutex (ε := Error) hreg hin hwaits hfits htried.kind
  have hmarked := hstores.markedAt htried
  unfold takeMutex Mutex.hindrance
  rw [hacquire]
  cases grant with
  | granted => exact absurd rfl hnot
  | recovered => exact absurd rfl hnot'
  | refused e => exact ⟨_, h, c', rfl, bind_of_ok htry, .refl h, hmarked⟩
  | busy =>
      refine ⟨_, h.waitUntil limit, c', rfl, (bind_of_ok htry).trans ?_,
        ⟨rfl, rfl, rfl, List.prefix_rfl⟩, hmarked⟩
      have hpass : (pass limit : HostM Error Unit) (h.withContent file c') =
          .ok () ((h.waitUntil limit).withContent file c') :=
        pass_unattended (h := h.withContent file c') hleavers hwaiters limit
      exact bind_of_ok hpass

/-- **A lock is read under, or it is not**: a reader who is let in is let out again, and one who
is not is told why. -/
theorem lockRead_any (hreg : h.disk.IsRegular file) (hin : offset + lockExtent ≤ c.length)
    (hleavers : h.leavers = []) (hwaiters : h.waiters = [])
    (hrecord : (c.lockAt offset).mutex.IsOnRecord p)
    (hroom : (c.lockAt offset).readers ≠ RwLock.maxReaders) {timeout readTimeout : Span}
    (hlimit : 0 ≤ (deadline h.now (timeout.shorter readTimeout)).toNanos) (holder : String) :
    (∃ e h' c', (c.lockAt offset).mutex.hindrance p .read holder = some e ∧
      lockRead (.inFile file offset) p timeout readTimeout holder (h.withContent file c) =
        .error (.error e) (h'.withContent file c') ∧ h.Later h' ∧ c.MarkedAt p offset c') ∨
    ((c.lockAt offset).mutex.hindrance p .read holder = none ∧
      ∃ h' c₁ c₂, lockRead (.inFile file offset) p timeout readTimeout holder
          (h.withContent file c) = .ok () (h'.withContent file c₁) ∧
        (unlockRead (.inFile file offset) p readTimeout holder : HostM Failure Unit)
          (h'.withContent file c₁) = .ok () (h'.withContent file c₂) ∧
        h.Later h' ∧ c.SameApart offset c₁ ∧ c.MarkedAt p offset c₂) := by
  obtain ⟨grant, m, hacquire, hnot, hnot', htried, hfits⟩ |
    ⟨grant, lent, back, hacquire, hhad, hlent⟩ := hrecord.answers (c.fits_mutexAt offset)
  · obtain ⟨e, h', c', hhindrance, htake, hlater, hmarked⟩ := takeMutex_hindered hreg hin hleavers
      hwaiters hlimit hacquire hnot hnot' htried hfits .read holder
    refine .inl ⟨e, h', c', hhindrance, ?_, hlater, hmarked⟩
    unfold lockRead
    exact get_bind_eq.trans (bind_of_error (mapFailure_of_error htake))
  · have hfree := Mutex.hindrance_of_had (congrArg Prod.fst hacquire) hhad
    have hwaits : (c.lockAt offset).mutex.acquire p
        (0 ≤ (deadline h.now (timeout.shorter readTimeout)).toNanos) = (grant, lent) := by
      rw [decide_eq_true hlimit, hacquire]
    obtain ⟨c₁, hlock, hfirst⟩ := lockRead_had hreg hin hwaits hhad hlent hroom holder
    have hlater := later_afterGrant h grant holder
    have hcounted : (c₁.lockAt offset).readers ≠ 0 := by
      rw [hfirst.lock]
      exact RwLock.add_one_ne_zero hroom
    have hopen : (c₁.lockAt offset).mutex.IsOpenTo p := by
      rw [hfirst.lock]
      exact hlent.reopens
    obtain ⟨c₂, lent₂, back₂, hunlock, hlent₂, hsecond⟩ := unlockRead_open (ε := Failure)
      (h := h.afterGrant grant holder) (by rwa [hlater.disk]) (by rwa [hfirst.length]) hopen
      hcounted readTimeout holder
    refine .inr ⟨congrFun (congrFun hfree _) _, _, c₁, c₂, hlock, hunlock, hlater,
      hfirst.toSameApart, ?_⟩
    have htried : (c.lockAt offset).mutex.TriedBy p back₂ := by
      refine (hlent.triedBy hfree).trans ?_
      rw [hfirst.lock] at hlent₂
      exact hlent₂.triedBy (hlent.reopens.hindrance hlent.fitsBack)
    have hboth := hfirst.toSameApart.trans hsecond.toSameApart
    refine Content.Stores.markedAt ⟨hboth, ?_⟩ htried
    rw [hsecond.lock, hfirst.lock]
    simp only [UInt32.add_sub_cancel]

end Host

end Subscription
