import Mathlib.Logic.Function.Basic
import Subscription.Proofs.SegmentName
import Subscription.Store.Basic

/-!
# Xpaths that differ in one byte

The hash in the name of a segment has 32 bits, so that some xpaths share one.  Two of the same
length that differ in a single byte never do, whatever stands before that byte and behind it.

* No step of the hash loses anything.  Adding a word that was shifted to the left multiplies by
  an odd number, which has an inverse (`Hash.add_shiftLeft_injective`), and what was xored with
  its own upper bits can be read from the top (`Hash.xor_shiftRight_injective`).
* So the states differ once the byte is stirred in (`Hash.stir_ne`), every further byte keeps
  them apart (`Hash.foldl_stir_injective`), and so does the end (`Hash.finish_injective`).
-/

namespace Subscription

/-- Two lists of the same length that differ in one place and in no other. -/
def DifferOnce {α : Type} (xs ys : List α) : Prop :=
  xs.length = ys.length ∧ ∃ i : Nat, xs[i]? ≠ ys[i]? ∧ ∀ j, j ≠ i → xs[j]? = ys[j]?

/-- What stands before the place is the same, and so is what stands behind it. -/
theorem DifferOnce.exists_around {α : Type} {xs ys : List α} (h : DifferOnce xs ys) :
    ∃ front x y back, x ≠ y ∧ xs = front ++ x :: back ∧ ys = front ++ y :: back := by
  obtain ⟨hlength, i, hhere, helse⟩ := h
  have hi : i < xs.length := by
    refine Nat.not_le.1 fun hout => hhere ?_
    rw [List.getElem?_eq_none hout, List.getElem?_eq_none (hlength ▸ hout)]
  have hfront : ys.take i = xs.take i := by
    apply List.ext_getElem?
    intro j
    by_cases hj : j < i
    · rw [List.getElem?_take_of_lt hj, List.getElem?_take_of_lt hj, helse j (Nat.ne_of_lt hj)]
    · rw [List.getElem?_take_eq_none (Nat.le_of_not_lt hj),
        List.getElem?_take_eq_none (Nat.le_of_not_lt hj)]
  have hback : ys.drop (i + 1) = xs.drop (i + 1) := by
    apply List.ext_getElem?
    intro j
    rw [List.getElem?_drop, List.getElem?_drop, helse _ (by omega)]
  have hi' : i < ys.length := hlength ▸ hi
  refine ⟨xs.take i, xs[i], ys[i], xs.drop (i + 1), ?_, ?_, ?_⟩
  · intro hsame
    rw [List.getElem?_eq_getElem hi, List.getElem?_eq_getElem hi', hsame] at hhere
    exact hhere rfl
  · rw [← List.drop_eq_getElem_cons hi, List.take_append_drop]
  · rw [← hfront, ← hback, ← List.drop_eq_getElem_cons hi', List.take_append_drop]

namespace Hash

/-! ## Steps that lose nothing -/

/-- What a word is multiplied by when it is shifted to the left and added to itself. -/
def spreadFactor (k : UInt32) : UInt32 := 1 + ((1 : UInt32) <<< k)

theorem add_shiftLeft (x k : UInt32) : x + (x <<< k) = x * spreadFactor k := by
  have hshift : x <<< k = x * ((1 : UInt32) <<< k) := by
    apply UInt32.toBitVec_inj.1
    simp only [UInt32.toBitVec_shiftLeft, UInt32.toBitVec_mul, BitVec.shiftLeft_eq',
      UInt32.toBitVec_one]
    rw [BitVec.shiftLeft_eq_mul_twoPow, ← BitVec.twoPow_eq]
  rw [hshift, spreadFactor, UInt32.mul_add, UInt32.mul_one]

theorem add_shiftLeft_injective (k inverse : UInt32) (hinverse : spreadFactor k * inverse = 1) :
    Function.Injective fun x : UInt32 => x + (x <<< k) := by
  intro x y hsame
  have hproducts : x * spreadFactor k = y * spreadFactor k := by
    rw [← add_shiftLeft, ← add_shiftLeft]
    exact hsame
  calc x = x * spreadFactor k * inverse := by rw [UInt32.mul_assoc, hinverse, UInt32.mul_one]
    _ = y * spreadFactor k * inverse := by rw [hproducts]
    _ = y := by rw [UInt32.mul_assoc, hinverse, UInt32.mul_one]

/-- The upper bits are there as they were, and each bit is found with the help of one above it. -/
theorem xor_shiftRight_injective {k : UInt32} (hk : 0 < k.toNat % 32) :
    Function.Injective fun x : UInt32 => x ^^^ (x >>> k) := by
  intro x y hsame
  have hbits : ∀ depth i, 32 - i ≤ depth → x.toBitVec.getLsbD i = y.toBitVec.getLsbD i := by
    intro depth
    induction depth with
    | zero =>
        intro i hi
        rw [BitVec.getLsbD_of_ge _ _ (by omega), BitVec.getLsbD_of_ge _ _ (by omega)]
    | succ depth ih =>
        intro i hi
        have habove := ih (k.toNat % 32 + i) (by omega)
        have hbit := congrArg (fun z : UInt32 => z.toBitVec.getLsbD i) hsame
        simpa [habove] using hbit
  exact UInt32.toBitVec_inj.1 (BitVec.eq_of_getLsbD_eq fun i _ => hbits _ i (Nat.le_refl _))

/-- What is stirred in can be taken out again. -/
theorem add_eq_of_stir_eq {s t : UInt32} {b c : UInt8} (hsame : stir s b = stir t c) :
    s + b.toUInt32 = t + c.toUInt32 := by
  have hspread := xor_shiftRight_injective (k := 6) (by decide) hsame
  exact add_shiftLeft_injective 10 0xC00FFC01 (by decide) hspread

/-- No two states come together when a byte is stirred in. -/
theorem stir_injective (b : UInt8) : Function.Injective fun state => stir state b :=
  fun _ _ hsame => (UInt32.add_left_inj _).1 (add_eq_of_stir_eq hsame)

/-- Different bytes lead to different states. -/
theorem stir_ne (state : UInt32) {b c : UInt8} (hne : b ≠ c) : stir state b ≠ stir state c :=
  fun hsame => hne (UInt8.toUInt32_inj.1 ((UInt32.add_right_inj _).1 (add_eq_of_stir_eq hsame)))

theorem finish_injective : Function.Injective finish := by
  intro s t hsame
  have hfolded := add_shiftLeft_injective 15 0x3FFF8001 (by decide) hsame
  have hspread := xor_shiftRight_injective (k := 11) (by decide) hfolded
  exact add_shiftLeft_injective 3 0x38E38E39 (by decide) hspread

/-- States that differ go on to differ, however many bytes follow. -/
theorem foldl_stir_injective (bytes : List UInt8) :
    Function.Injective fun state => bytes.foldl stir state := by
  induction bytes with
  | nil => exact fun _ _ hsame => hsame
  | cons b rest ih => exact ih.comp (stir_injective b)

/-- One byte is enough to make another hash. -/
theorem ofBytes_ne (front back : List UInt8) {b c : UInt8} (hne : b ≠ c) :
    ofBytes (front ++ b :: back) ≠ ofBytes (front ++ c :: back) := by
  intro hsame
  have hstates := finish_injective hsame
  rw [foldl_stir_append, foldl_stir_append] at hstates
  exact stir_ne _ hne (foldl_stir_injective back hstates)

end Hash

theorem hashText_ne {x y : String} (hdiffer : DifferOnce (Utf8.bytes x) (Utf8.bytes y)) :
    hashText x ≠ hashText y := by
  obtain ⟨front, b, c, back, hne, hx, hy⟩ := hdiffer.exists_around
  rw [hashText, hashText, hx, hy]
  exact Hash.ofBytes_ne front back hne

/-- **One byte tells segments apart.**  Sequences of bytes that differ in one byte have different
hashes.  So do xpaths of the same length that differ in one byte, and where segments of a module
are named after them, the names are different, and so are the segments of the subscriptions to
data and to RPCs under these xpaths.  (The segments of datastores and of notifications are not
named after any xpath.) -/
theorem SegmentKey.one_byte_tells_apart :
    (∀ (front back : List UInt8) (b c : UInt8), b ≠ c →
      Hash.ofBytes (front ++ b :: back) ≠ Hash.ofBytes (front ++ c :: back)) ∧
    ∀ x y : String, DifferOnce (Utf8.bytes x) (Utf8.bytes y) →
      hashText x ≠ hashText y ∧
      (∀ (module : String) (suffix : Suffix),
        SegmentKey.name ⟨module, suffix, some (hashText x)⟩ ≠
          SegmentKey.name ⟨module, suffix, some (hashText y)⟩) ∧
      ∀ (module : String) (service : Service) (pipe pipe' : UInt32),
        (Descriptor.mk module (service.topic x) pipe).key.name ≠
          (Descriptor.mk module (service.topic y) pipe').key.name := by
  refine ⟨fun front back b c hne => Hash.ofBytes_ne front back hne, fun x y hdiffer => ?_⟩
  have hhash : hashText x ≠ hashText y := hashText_ne hdiffer
  have hnames (module : String) (suffix : Suffix) :
      SegmentKey.name ⟨module, suffix, some (hashText x)⟩ ≠
        SegmentKey.name ⟨module, suffix, some (hashText y)⟩ := by
    intro hsame
    have hkeys := name_injective hsame
    simp only [SegmentKey.mk.injEq, Option.some.injEq, true_and] at hkeys
    exact hhash hkeys
  refine ⟨hhash, hnames, fun module service pipe pipe' => ?_⟩
  cases service with
  | data => exact hnames module .state
  | rpc => exact hnames module .rpc

/-- Two leaves with names of one letter. -/
theorem SegmentKey.one_byte_tells_apart_leaves :
    DifferOnce (Utf8.bytes "/m:a") (Utf8.bytes "/m:b") ∧
    SegmentKey.name ⟨"m", .state, some (hashText "/m:a")⟩ ≠
      SegmentKey.name ⟨"m", .state, some (hashText "/m:b")⟩ := by
  have hdiffer : DifferOnce (Utf8.bytes "/m:a") (Utf8.bytes "/m:b") := by
    have hx : Utf8.bytes "/m:a" = [47, 109, 58, 97] := rfl
    have hy : Utf8.bytes "/m:b" = [47, 109, 58, 98] := rfl
    rw [hx, hy]
    refine ⟨rfl, 3, by decide, fun j hj => ?_⟩
    match j with
    | 0 | 1 | 2 => rfl
    | 3 => exact absurd rfl hj
    | _ + 4 => rfl
  exact ⟨hdiffer, (one_byte_tells_apart.2 _ _ hdiffer).2.1 "m" .state⟩

end Subscription
