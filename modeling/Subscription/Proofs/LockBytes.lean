import Subscription.Lock.Layout
import Subscription.Proofs.ContentBytes

/-!
# A lock survives being stored

The words of a lock lie in `readersOffset + 4` bytes of a content.  What is
stored there comes back word by word (`lockAt_setLock`), but for the kind of
the mutex, which nobody changes, and nothing else in the content is touched
(`byte_setLock_of_outside`).  So whatever is written behind a lock leaves it
alone (`lockAt_congr`).

A number that stands for a holder has thirty bits; a word with a larger one
would not come back (`HolderWord.Fits`).  Words that were read fit.
-/

namespace Subscription

open LockLayout

/-- The bytes that the words of a lock lie in. -/
def lockExtent : Nat := readersOffset + 4

/-- Whether a word for a holder leaves room for its flags. -/
def HolderWord.Fits (w : HolderWord) : Prop :=
  ∀ n, w.bearer = .number n → n < deadBit

/-- Whether all words of a mutex leave room for what is stored beside them. -/
structure Mutex.Fits (m : Mutex) : Prop where
  word : m.word.Fits
  owner : m.owner.Fits
  links : m.links < Word.capacity 16

namespace Content

variable (c : Content) {offset i : Nat}

/-! ## Words for holders -/

/-- The four bytes of a number. -/
theorem read_four (offset : Nat) :
    c.read offset 4 =
      [c.byte offset, c.byte (offset + 1), c.byte (offset + 2), c.byte (offset + 3)] := by
  apply List.ext_getElem?
  intro k
  by_cases hk : k < 4
  · rw [c.getElem?_read hk]
    have hcases : k = 0 ∨ k = 1 ∨ k = 2 ∨ k = 3 := by omega
    rcases hcases with rfl | rfl | rfl | rfl <;> rfl
  · rw [List.getElem?_eq_none (by simp; omega), List.getElem?_eq_none (by simp; omega)]

/-- A word for a holder depends on its bytes and on who has signed it. -/
theorem holderWord_congr {c c' : Content}
    (hbytes : ∀ k < 4, c.byte (offset + k) = c'.byte (offset + k))
    (hsigner : c.signer? offset = c'.signer? offset) :
    c.holderWord offset = c'.holderWord offset := by
  rw [holderWord, holderWord, number_congr hbytes, hsigner]

@[simp] theorem length_setHolderWord (w : HolderWord) :
    (c.setHolderWord offset w).length = c.length := by
  unfold setHolderWord
  cases w.bearer <;> rfl

theorem byte_setHolderWord_of_outside (w : HolderWord)
    (hout : i < offset ∨ offset + 4 ≤ i) :
    (c.setHolderWord offset w).byte i = c.byte i := by
  unfold setHolderWord
  cases w.bearer with
  | number n => exact c.byte_setNumber_of_outside hout
  | party p =>
      rw [byte_sign_of_outside _ _ (by simp [Signature.bytes]; omega)]
      exact c.byte_setNumber_of_outside hout

theorem signer?_setHolderWord_of_outside (w : HolderWord) {place : Nat}
    (hout : place + Signature.bytes.length ≤ offset ∨ offset + 4 ≤ place) :
    (c.setHolderWord offset w).signer? place = c.signer? place := by
  unfold setHolderWord
  cases w.bearer with
  | number n => exact c.signer?_setNumber_of_outside hout
  | party p =>
      have hsign : Signature.bytes.length ≤ 4 := by decide
      rw [signer?_sign_of_outside _ _ (by omega)]
      exact c.signer?_setNumber_of_outside hout

theorem number_setHolderWord_of_outside (w : HolderWord) {start size : Nat}
    (hout : start + size ≤ offset ∨ offset + 4 ≤ start) :
    (c.setHolderWord offset w).number start size = c.number start size :=
  number_congr fun k hk => c.byte_setHolderWord_of_outside w (by omega)

/-- A signature takes the lower two of the four bytes of a number. -/
theorem read_four_sign (p : Party) (hin : offset + 4 ≤ c.length) :
    (c.sign offset p).read offset 4 =
      Signature.bytes ++ [c.byte (offset + 2), c.byte (offset + 3)] := by
  have hpage := le_pageEnd c.length
  have hlen : Signature.bytes.length = 2 := rfl
  have h₀ : (c.sign offset p).byte offset = 0xFF := by
    rw [byte_sign, byte_write, if_pos (by omega), Nat.sub_self]
    rfl
  have h₁ : (c.sign offset p).byte (offset + 1) = 0x7F := by
    rw [byte_sign, byte_write, if_pos (by omega), Nat.add_sub_cancel_left]
    rfl
  rw [read_four, h₀, h₁, byte_sign_of_outside _ _ (by omega), byte_sign_of_outside _ _ (by omega)]
  rfl

/-- A word that fits is read back. -/
theorem holderWord_setHolderWord {w : HolderWord} (hfits : w.Fits)
    (hin : offset + 4 ≤ c.length) : (c.setHolderWord offset w).holderWord offset = w := by
  obtain ⟨bearer, dead, awaited⟩ := w
  cases bearer with
  | number n =>
      have hn : n < deadBit := hfits n rfl
      have hflags : n + flags ⟨.number n, dead, awaited⟩ < Word.capacity 4 := by
        have hcap : Word.capacity 4 = 4294967296 := by decide
        cases dead <;> cases awaited <;> simp [flags, deadBit, awaitedBit] at hn ⊢ <;> omega
      have hsigner : ((c.setNumber offset 4 (n + flags ⟨.number n, dead, awaited⟩)).signer?
          offset) = none := c.signer?_write (by simp [Word.toBytes])
      simp only [setHolderWord, holderWord, hsigner, c.number_setNumber hin,
        Nat.mod_eq_of_lt hflags, Nat.testBit_eq_decide_div_mod_eq]
      cases dead <;> cases awaited <;> simp [flags, deadBit, awaitedBit] at hn ⊢ <;> omega
  | party p =>
      let stored := c.setNumber offset 4 (flags ⟨.party p, dead, awaited⟩)
      have hstored : stored.read offset 4 = Word.toBytes 4 (flags ⟨.party p, dead, awaited⟩) := by
        have hinside : offset + (Word.toBytes 4 (flags ⟨.party p, dead, awaited⟩)).length ≤
            c.length := by
          rw [Word.length_toBytes]
          exact hin
        have hsame := c.read_write_same hinside
        rwa [Word.length_toBytes] at hsame
      have hnumber : (stored.sign offset p).number offset 4 =
          Word.ofBytes (Signature.bytes ++ [stored.byte (offset + 2), stored.byte (offset + 3)]) := by
        rw [number, read_four_sign stored p (by simpa [stored] using hin)]
      show (stored.sign offset p).holderWord offset = _
      simp only [holderWord, signer?_sign, hnumber]
      -- the flags stand in the upper two bytes, which the signature leaves alone
      rw [read_four] at hstored
      cases dead <;> cases awaited <;>
        simp [flags, deadBit, awaitedBit, Word.toBytes] at hstored <;>
        obtain ⟨-, -, h₂, h₃⟩ := hstored <;> rw [h₂, h₃] <;> rfl

/-- Words that were read fit. -/
theorem fits_holderWord (offset : Nat) : (c.holderWord offset).Fits := by
  intro n hn
  have hlt : c.number offset 4 % deadBit < deadBit := Nat.mod_lt _ (by decide)
  simp only [holderWord] at hn
  split at hn
  · split at hn
    · cases hn
    · cases hn
      exact hlt
  · cases hn
    exact hlt

/-! ## Mutexes and locks -/

/-- Storing a mutex does not change the length. -/
@[simp] theorem length_setMutex (m : Mutex) : (c.setMutex offset m).length = c.length := by
  simp only [setMutex, length_setNumber, length_setHolderWord]

/-- The lengths of what holds the words of a mutex, for arithmetic. -/
theorem lengths_of_words : Signature.bytes.length = 2 ∧ lockExtent = 92 := ⟨rfl, rfl⟩

theorem byte_setMutex_of_outside (m : Mutex)
    (hout : i < offset ∨ offset + comersOffset ≤ i) :
    (c.setMutex offset m).byte i = c.byte i := by
  simp only [comersOffset] at hout
  simp only [setMutex, wordOffset, depthOffset, ownerOffset, usersOffset, spinsOffset,
    linksOffset]
  rw [byte_setNumber_of_outside _ (by omega), byte_setNumber_of_outside _ (by omega),
    byte_setNumber_of_outside _ (by omega), byte_setHolderWord_of_outside _ _ (by omega),
    byte_setNumber_of_outside _ (by omega), byte_setHolderWord_of_outside _ _ (by omega)]

/-- A word for a holder is not touched by storing a number elsewhere. -/
theorem holderWord_setNumber_of_outside {start size n : Nat}
    (hout : offset + 4 ≤ start ∨ start + size ≤ offset) :
    (c.setNumber start size n).holderWord offset = c.holderWord offset :=
  holderWord_congr (fun k hk => c.byte_setNumber_of_outside (by omega))
    (c.signer?_setNumber_of_outside (by rw [lengths_of_words.1]; omega))

theorem holderWord_setHolderWord_of_outside (w : HolderWord) {start : Nat}
    (hout : offset + 4 ≤ start ∨ start + 4 ≤ offset) :
    (c.setHolderWord start w).holderWord offset = c.holderWord offset :=
  holderWord_congr (fun k hk => c.byte_setHolderWord_of_outside w (by omega))
    (c.signer?_setHolderWord_of_outside w (by rw [lengths_of_words.1]; omega))

/-- A mutex depends on its bytes and on who has signed two of its words. -/
theorem mutexAt_congr {c c' : Content}
    (hbytes : ∀ k < comersOffset, c.byte (offset + k) = c'.byte (offset + k))
    (hword : c.signer? (offset + wordOffset) = c'.signer? (offset + wordOffset))
    (howner : c.signer? (offset + ownerOffset) = c'.signer? (offset + ownerOffset)) :
    c.mutexAt offset = c'.mutexAt offset := by
  have hnumber : ∀ start size, start + size ≤ comersOffset →
      c.number (offset + start) size = c'.number (offset + start) size := by
    intro start size hle
    apply number_congr
    intro k hk
    rw [Nat.add_assoc]
    exact hbytes (start + k) (by omega)
  have hholder : ∀ start, start + 4 ≤ comersOffset →
      c.signer? (offset + start) = c'.signer? (offset + start) →
      c.holderWord (offset + start) = c'.holderWord (offset + start) := by
    intro start hle hsigner
    apply holderWord_congr _ hsigner
    intro k hk
    rw [Nat.add_assoc]
    exact hbytes (start + k) (by omega)
  simp only [mutexAt, hnumber kindOffset 4 (by decide), hholder wordOffset (by decide) hword,
    hnumber depthOffset 4 (by decide), hholder ownerOffset (by decide) howner,
    hnumber usersOffset 4 (by decide), hnumber spinsOffset 2 (by decide),
    hnumber linksOffset 16 (by decide)]

/-- A mutex that was read fits. -/
theorem fits_mutexAt (offset : Nat) : (c.mutexAt offset).Fits where
  word := c.fits_holderWord _
  owner := c.fits_holderWord _
  links := by
    have hlt := Word.ofBytes_lt (c.read (offset + linksOffset) 16)
    rwa [length_read] at hlt

/-- **A stored mutex comes back**, but for its kind, which is not stored. -/
theorem mutexAt_setMutex {m : Mutex} (hfits : m.Fits)
    (hin : offset + comersOffset ≤ c.length) :
    (c.setMutex offset m).mutexAt offset = { m with kind := (c.mutexAt offset).kind } := by
  have hlen : offset + 40 ≤ c.length := hin
  have hlow : Word.capacity 4 = 4294967296 := by decide
  have hshort : Word.capacity 2 = 65536 := by decide
  have hlinks : m.links % Word.capacity 16 = m.links := Nat.mod_eq_of_lt hfits.links
  have hdepth := m.depth.toNat_lt
  have husers := m.users.toNat_lt
  have hspins := m.spins.toUInt16.toNat_lt
  simp only [mutexAt, setMutex, wordOffset, depthOffset, ownerOffset, usersOffset, kindOffset,
    spinsOffset, linksOffset]
  -- each word is read past the later writes, down to its own
  congr 1
  · rw [number_setNumber_of_outside _ (by omega), number_setNumber_of_outside _ (by omega),
      number_setNumber_of_outside _ (by omega), number_setHolderWord_of_outside _ _ (by omega),
      number_setNumber_of_outside _ (by omega), number_setHolderWord_of_outside _ _ (by omega)]
  · rw [holderWord_setNumber_of_outside _ (by omega), holderWord_setNumber_of_outside _ (by omega),
      holderWord_setNumber_of_outside _ (by omega),
      holderWord_setHolderWord_of_outside _ _ (by omega),
      holderWord_setNumber_of_outside _ (by omega),
      holderWord_setHolderWord _ hfits.word (by omega)]
  · rw [number_setNumber_of_outside _ (by omega), number_setNumber_of_outside _ (by omega),
      number_setNumber_of_outside _ (by omega), number_setHolderWord_of_outside _ _ (by omega),
      number_setNumber _ (by rw [length_setHolderWord]; omega), Nat.mod_eq_of_lt (by omega),
      UInt32.ofNat_toNat]
  · rw [holderWord_setNumber_of_outside _ (by omega), holderWord_setNumber_of_outside _ (by omega),
      holderWord_setNumber_of_outside _ (by omega),
      holderWord_setHolderWord _ hfits.owner
        (by rw [length_setNumber, length_setHolderWord]; omega)]
  · rw [number_setNumber_of_outside _ (by omega), number_setNumber_of_outside _ (by omega),
      number_setNumber _ (by simp only [length_setNumber, length_setHolderWord]; omega),
      Nat.mod_eq_of_lt (by omega), UInt32.ofNat_toNat]
  · rw [number_setNumber_of_outside _ (by omega),
      number_setNumber _ (by simp only [length_setNumber, length_setHolderWord]; omega),
      Nat.mod_eq_of_lt (by omega)]
    exact Int16.toBitVec_inj.1 (by simp)
  · rw [number_setNumber _ (by simp only [length_setNumber, length_setHolderWord]; omega), hlinks]

@[simp] theorem length_setQueue (q : Queue) : (c.setQueue offset q).length = c.length := by
  simp only [setQueue, length_setNumber]

theorem byte_setQueue_of_outside (q : Queue)
    (hout : i < offset + comersOffset ∨ offset + groupsOffset + 8 ≤ i) :
    (c.setQueue offset q).byte i = c.byte i := by
  simp only [comersOffset, groupsOffset] at hout
  simp only [setQueue, comersOffset, groupsOffset]
  rw [byte_setNumber_of_outside _ (by omega), byte_setNumber_of_outside _ (by omega),
    byte_setNumber_of_outside _ (by omega)]

theorem signer?_setQueue_of_outside (q : Queue) {place : Nat}
    (hout : place + Signature.bytes.length ≤ offset + comersOffset) :
    (c.setQueue offset q).signer? place = c.signer? place := by
  simp only [comersOffset] at hout
  simp only [setQueue, comersOffset, groupsOffset]
  rw [signer?_setNumber_of_outside _ (by omega), signer?_setNumber_of_outside _ (by omega),
    signer?_setNumber_of_outside _ (by omega)]

/-- A stored queue comes back. -/
theorem queueAt_setQueue (q : Queue) (hin : offset + groupsOffset + 8 ≤ c.length) :
    (c.setQueue offset q).queueAt offset = q := by
  have hlen : offset + 72 ≤ c.length := hin
  have hlow : Word.capacity 4 = 4294967296 := by decide
  have hlong : Word.capacity 8 = 18446744073709551616 := by decide
  have hcomers := q.comers.toNat_lt
  have heven := q.even.toNat_lt
  have hodd := q.odd.toNat_lt
  obtain ⟨comers, even, odd⟩ := q
  simp only [queueAt, setQueue, comersOffset, groupsOffset] at *
  congr 1
  · rw [number_setNumber_of_outside _ (by omega), number_setNumber_of_outside _ (by omega),
      number_setNumber _ (by omega), Nat.mod_eq_of_lt (by omega), UInt64.ofNat_toNat]
  · rw [number_setNumber_of_outside _ (by omega),
      number_setNumber _ (by rw [length_setNumber]; omega), Nat.mod_eq_of_lt (by omega),
      UInt32.ofNat_toNat]
  · rw [number_setNumber _ (by simp only [length_setNumber]; omega),
      Nat.mod_eq_of_lt (by omega), UInt32.ofNat_toNat]

@[simp] theorem length_setLock (l : RwLock) : (c.setLock offset l).length = c.length := by
  rw [setLock, length_setNumber, length_setQueue, length_setMutex]

/-- Storing a lock touches nothing behind it and nothing before it. -/
theorem byte_setLock_of_outside (l : RwLock)
    (hout : i < offset ∨ offset + lockExtent ≤ i) :
    (c.setLock offset l).byte i = c.byte i := by
  simp only [lockExtent, readersOffset] at hout
  simp only [setLock, readersOffset]
  rw [byte_setNumber_of_outside _ (by omega),
    byte_setQueue_of_outside _ _ (by simp only [comersOffset, groupsOffset]; omega),
    byte_setMutex_of_outside _ _ (by simp only [comersOffset]; omega)]

/-- A lock depends on its bytes and on who has signed two of its words. -/
theorem lockAt_congr {c c' : Content}
    (hbytes : ∀ k < lockExtent, c.byte (offset + k) = c'.byte (offset + k))
    (hword : c.signer? (offset + wordOffset) = c'.signer? (offset + wordOffset))
    (howner : c.signer? (offset + ownerOffset) = c'.signer? (offset + ownerOffset)) :
    c.lockAt offset = c'.lockAt offset := by
  have hnumber : ∀ start size, start + size ≤ lockExtent →
      c.number (offset + start) size = c'.number (offset + start) size := by
    intro start size hle
    apply number_congr
    intro k hk
    rw [Nat.add_assoc]
    exact hbytes (start + k) (by omega)
  have hmutex : c.mutexAt offset = c'.mutexAt offset :=
    mutexAt_congr (fun k hk => hbytes k (Nat.lt_trans hk (by decide))) hword howner
  have hqueue : c.queueAt offset = c'.queueAt offset := by
    simp only [queueAt, hnumber comersOffset 8 (by decide), hnumber groupsOffset 4 (by decide),
      Nat.add_assoc, hnumber (groupsOffset + 4) 4 (by decide)]
  simp only [lockAt, hmutex, hqueue, hnumber readersOffset 4 (by decide)]

/-- A mutex that lies in front of a queue is not touched by storing the queue and
the readers. -/
theorem mutexAt_setLock (l : RwLock) :
    (c.setLock offset l).mutexAt offset = (c.setMutex offset l.mutex).mutexAt offset := by
  apply mutexAt_congr
  · intro k hk
    simp only [comersOffset] at hk
    simp only [setLock, readersOffset]
    rw [byte_setNumber_of_outside _ (by omega),
      byte_setQueue_of_outside _ _ (by simp only [comersOffset]; omega)]
  · simp only [setLock, readersOffset, wordOffset]
    rw [signer?_setNumber_of_outside _ (by rw [lengths_of_words.1]; omega),
      signer?_setQueue_of_outside _ _
        (by rw [lengths_of_words.1]; simp only [comersOffset]; omega)]
  · simp only [setLock, readersOffset, ownerOffset]
    rw [signer?_setNumber_of_outside _ (by rw [lengths_of_words.1]; omega),
      signer?_setQueue_of_outside _ _
        (by rw [lengths_of_words.1]; simp only [comersOffset]; omega)]

/-- **A stored lock comes back**, but for the kind of its mutex. -/
theorem lockAt_setLock {l : RwLock} (hfits : l.mutex.Fits)
    (hin : offset + lockExtent ≤ c.length) :
    (c.setLock offset l).lockAt offset =
      { l with mutex := { l.mutex with kind := (c.lockAt offset).mutex.kind } } := by
  have hlen : offset + 92 ≤ c.length := hin
  have hlow : Word.capacity 4 = 4294967296 := by decide
  have hreaders := l.readers.toNat_lt
  have hmutex : (c.setLock offset l).mutexAt offset =
      { l.mutex with kind := (c.mutexAt offset).kind } := by
    rw [mutexAt_setLock, mutexAt_setMutex _ hfits (by simp only [comersOffset]; omega)]
  have hqueue : (c.setLock offset l).queueAt offset = l.queue := by
    have hinside : offset + groupsOffset + 8 ≤ (c.setMutex offset l.mutex).length := by
      rw [length_setMutex]
      simp only [groupsOffset]
      omega
    rw [← (c.setMutex offset l.mutex).queueAt_setQueue l.queue hinside]
    simp only [queueAt, setLock, comersOffset, groupsOffset, readersOffset]
    rw [number_setNumber_of_outside _ (by omega), number_setNumber_of_outside _ (by omega),
      number_setNumber_of_outside _ (by omega)]
  have hcount : UInt32.ofNat ((c.setLock offset l).number (offset + readersOffset) 4)
      = l.readers := by
    simp only [setLock]
    rw [number_setNumber _ (by rw [length_setQueue, length_setMutex]; exact hlen),
      Nat.mod_eq_of_lt (by omega), UInt32.ofNat_toNat]
  rw [lockAt, hmutex, hqueue, hcount]
  rfl

end Content

end Subscription
