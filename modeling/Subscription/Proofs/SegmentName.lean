import Subscription.Name.Basic
import Mathlib.Data.List.Basic

/-!
# The names of segments

All parties find a segment by its name alone, so that two keys must never come
to the same name (`SegmentKey.name_injective`), whatever the module is called:
its name may itself have dots in it, and even end like that of a segment.  The
name is read from its end.

* The suffix has no dot in it, and neither has the hash.
* The last part is the hash where there is one, as it has eight digits and no
  suffix has eight letters.

A module with a slash in its name gives a name that leads into a directory; such
a name still begins with `sr_` and ends in no slash (`SegmentKey.toList_name`,
`SegmentKey.getLast?_name`).
-/

namespace Subscription

/-! ## Hexadecimal digits -/

/-- What a hexadecimal digit stands for. -/
def hexDigitValue (c : Char) : Nat :=
  if c.isDigit then c.toNat - '0'.toNat else c.toNat - 'a'.toNat + 10

/-- What a run of hexadecimal digits stands for. -/
def hexValue (digits : List Char) : Nat :=
  digits.foldl (fun value c => 16 * value + hexDigitValue c) 0

theorem hexDigitValue_digitChar {d : Nat} (hd : d < 16) : hexDigitValue d.digitChar = d := by
  revert d
  decide

theorem hexValue_replicate_append (k : Nat) (digits : List Char) :
    hexValue (List.replicate k '0' ++ digits) = hexValue digits := by
  induction k with
  | zero => rfl
  | succ k ih =>
      rw [List.replicate_succ, List.cons_append]
      exact ih

/-- The digits of a number stand for it. -/
theorem hexValue_toDigits (n : Nat) : hexValue (Nat.toDigits 16 n) = n := by
  induction n using Nat.strongRecOn with
  | _ n ih =>
      rw [Nat.toDigits_eq_if (by decide)]
      split
      · simp only [hexValue, List.foldl_cons, List.foldl_nil]
        rw [hexDigitValue_digitChar ‹n < 16›]
        omega
      · have hprefix := ih (n / 16) (by omega)
        unfold hexValue at hprefix ⊢
        rw [List.foldl_append, hprefix, List.foldl_cons, List.foldl_nil,
          hexDigitValue_digitChar (Nat.mod_lt n (by decide))]
        omega

theorem hexDigits_injective {w n m : Nat} (hsame : hexDigits w n = hexDigits w m) : n = m := by
  have hvalue := congrArg (fun text : String => hexValue text.toList) hsame
  simpa only [hexDigits, String.toList_ofList, hexValue_replicate_append,
    hexValue_toDigits] using hvalue

/-- A number that fits has as many digits as are asked for. -/
theorem length_hexDigits {w n : Nat} (hw : 0 < w) (hn : n < Nat.pow 16 w) :
    (hexDigits w n).toList.length = w := by
  have hdigits : (Nat.toDigits 16 n).length ≤ w := (Nat.length_toDigits_le_iff (by decide) hw).2 hn
  simp only [hexDigits, String.toList_ofList, List.length_append, List.length_replicate]
  omega

/-- Every character is a digit. -/
theorem mem_hexDigits {w n : Nat} {c : Char} (hc : c ∈ (hexDigits w n).toList) :
    ∃ d < 16, c = Nat.digitChar d := by
  have htoDigits : ∀ n, ∀ c ∈ Nat.toDigits 16 n, ∃ d < 16, c = Nat.digitChar d := by
    intro n
    induction n using Nat.strongRecOn with
    | _ n ih =>
        rw [Nat.toDigits_eq_if (by decide)]
        split
        · intro c hc
          exact ⟨n, ‹n < 16›, by simpa using hc⟩
        · intro c hc
          rcases List.mem_append.1 hc with hfront | hlast
          · exact ih (n / 16) (by omega) c hfront
          · exact ⟨n % 16, Nat.mod_lt n (by decide), by simpa using hlast⟩
  simp only [hexDigits, String.toList_ofList, List.mem_append, List.mem_replicate] at hc
  rcases hc with ⟨-, rfl⟩ | hc
  · exact ⟨0, by decide, rfl⟩
  · exact htoDigits n c hc

/-! ## The parts of a name -/

namespace Suffix

/-- No suffix has as many letters as a hash has digits. -/
theorem length_name_ne (s : Suffix) : s.name.toList.length ≠ 8 := by
  cases s <;> decide

theorem name_injective {s s' : Suffix} (hsame : s.name = s'.name) : s = s' := by
  revert hsame
  cases s <;> cases s' <;> decide

end Suffix

namespace SegmentKey

/-- What a name ends with, behind the dot that follows the module: the suffix, and
the hash where there is one. -/
def parts (key : SegmentKey) : List (List Char) :=
  key.suffix.name.toList ::
    match key.hash with
    | some hash => [(hexDigits 8 hash.toNat).toList]
    | none => []

/-- A name, from the module on. -/
def body (key : SegmentKey) : List Char :=
  key.module.toList ++ key.parts.flatMap fun part => '.' :: part

/-- Every name begins alike. -/
theorem toList_name (key : SegmentKey) :
    key.name.toList = ['s', 'r', '_'] ++ key.body := by
  cases hhash : key.hash <;> simp [name, body, parts, hhash]

theorem toNat_hash_lt (hash : UInt32) : hash.toNat < Nat.pow 16 8 := hash.toNat_lt

/-- The suffix and the hash consist of letters and digits. -/
theorem mem_parts {key : SegmentKey} {part : List Char} (hpart : part ∈ key.parts) :
    part ≠ [] ∧ ∀ c ∈ part, c ≠ '.' ∧ c ≠ '/' := by
  have hsuffix : ∀ s : Suffix, s.name.toList ≠ [] ∧
      ∀ c ∈ s.name.toList, c ≠ '.' ∧ c ≠ '/' := by
    intro s
    cases s <;> simp [Suffix.name]
  have hdigit : ∀ d < 16, Nat.digitChar d ≠ '.' ∧ Nat.digitChar d ≠ '/' := by decide
  have hhash : ∀ hash : UInt32, (hexDigits 8 hash.toNat).toList ≠ [] ∧
      ∀ c ∈ (hexDigits 8 hash.toNat).toList, c ≠ '.' ∧ c ≠ '/' := by
    intro hash
    have hlength := length_hexDigits (by decide) (toNat_hash_lt hash)
    refine ⟨fun hnil => by simp [hnil] at hlength, ?_⟩
    intro c hc
    obtain ⟨d, hd, rfl⟩ := mem_hexDigits hc
    exact hdigit d hd
  unfold parts at hpart
  rcases List.mem_cons.1 hpart with rfl | hpart
  · exact hsuffix _
  · cases hkey : key.hash with
    | none => simp [hkey] at hpart
    | some hash =>
        rw [hkey, List.mem_singleton] at hpart
        subst hpart
        exact hhash hash

/-- The parts between the dots: those of the module, the suffix and the hash. -/
theorem splitOn_body (key : SegmentKey) :
    key.body.splitOn '.' = key.module.toList.splitOn '.' ++ key.parts := by
  have hrun : ∀ (parts : List (List Char)), (∀ part ∈ parts, '.' ∉ part) → ∀ front : List Char,
      (front ++ parts.flatMap fun part => '.' :: part).splitOn '.' =
        front.splitOn '.' ++ parts := by
    intro parts
    induction parts with
    | nil => simp
    | cons part rest ih =>
        intro hdots front
        have hpart := hdots part List.mem_cons_self
        have hrest := ih (fun p hp => hdots p (List.mem_cons_of_mem _ hp)) part
        rw [List.flatMap_cons, List.cons_append, List.splitOn_append_cons_self, hrest,
          List.splitOn_eq_singleton hpart]
        simp
  exact hrun _ (fun part hpart hdot => ((mem_parts hpart).2 _ hdot).1 rfl) _

/-- Whether there is a hash can be told from the length of the last part. -/
theorem length_getLast?_parts (front : List (List Char)) (key : SegmentKey) :
    (front ++ key.parts).getLast?.map List.length = some 8 ↔ key.hash.isSome = true := by
  cases hkey : key.hash with
  | none =>
      have hshort := Suffix.length_name_ne key.suffix
      simpa [parts, hkey] using hshort
  | some hash =>
      have hlength := length_hexDigits (by decide) (toNat_hash_lt hash)
      simpa [parts, hkey, List.getLast?_append] using hlength

theorem length_parts (key : SegmentKey) :
    key.parts.length = if key.hash.isSome then 2 else 1 := by
  cases hkey : key.hash <;> simp [parts, hkey]

/-- The suffix and the hash are read off the parts. -/
theorem of_parts_eq {key key' : SegmentKey} (hsame : key.parts = key'.parts) :
    key.suffix = key'.suffix ∧ key.hash = key'.hash := by
  have hlength := congrArg List.length hsame
  rw [length_parts, length_parts] at hlength
  have hsuffix : key.suffix = key'.suffix :=
    Suffix.name_injective (String.toList_inj.1 (List.head_eq_of_cons_eq hsame))
  have hrest := List.tail_eq_of_cons_eq hsame
  refine ⟨hsuffix, ?_⟩
  cases hkey : key.hash with
  | none =>
      cases hkey' : key'.hash with
      | none => rfl
      | some hash' => simp [hkey, hkey'] at hlength
  | some hash =>
      cases hkey' : key'.hash with
      | none => simp [hkey, hkey'] at hlength
      | some hash' =>
          rw [hkey, hkey'] at hrest
          have hnumber := hexDigits_injective (String.toList_inj.1 (List.head_eq_of_cons_eq hrest))
          exact congrArg some (UInt32.toNat_inj.1 hnumber)

/-- The parts can be told from those of the module in front of them. -/
theorem parts_of_append_eq {front front' : List (List Char)} {key key' : SegmentKey}
    (hsame : front ++ key.parts = front' ++ key'.parts) :
    front = front' ∧ key.parts = key'.parts := by
  have hhash : key.hash.isSome = key'.hash.isSome := by
    rw [Bool.eq_iff_iff, ← length_getLast?_parts front, ← length_getLast?_parts front', hsame]
  refine List.append_inj' hsame ?_
  rw [length_parts, length_parts, hhash]

/-- **No two segments share a name.** -/
theorem name_injective {key key' : SegmentKey} (hsame : key.name = key'.name) : key = key' := by
  have hbody : key.body = key'.body := by
    have hlists := congrArg String.toList hsame
    rw [toList_name, toList_name] at hlists
    exact List.append_cancel_left hlists
  have hsplit := congrArg (List.splitOn '.') hbody
  rw [splitOn_body, splitOn_body] at hsplit
  obtain ⟨hmodules, hparts⟩ := parts_of_append_eq hsplit
  obtain ⟨hsuffix, hhash⟩ := of_parts_eq hparts
  have hmodule : key.module = key'.module := by
    have hjoined := congrArg (List.intercalate ['.']) hmodules
    rw [List.intercalate_splitOn, List.intercalate_splitOn] at hjoined
    exact String.toList_inj.1 hjoined
  cases key
  cases key'
  simp_all

/-- A name ends in a letter or a digit. -/
theorem getLast?_name (key : SegmentKey) :
    ∃ c, key.name.toList.getLast? = some c ∧ c ≠ '/' := by
  have hlast : ∀ part ∈ key.parts, ∃ c, part.getLast? = some c ∧ c ≠ '/' := by
    intro part hpart
    obtain ⟨hne, hchars⟩ := mem_parts hpart
    refine ⟨part.getLast hne, List.getLast?_eq_some_getLast hne, ?_⟩
    exact (hchars _ (List.getLast_mem hne)).2
  rw [toList_name, body]
  cases hhash : key.hash with
  | none =>
      obtain ⟨c, hc, hslash⟩ := hlast key.suffix.name.toList (by simp [parts])
      refine ⟨c, ?_, hslash⟩
      simp [parts, hhash, List.getLast?_append, List.getLast?_cons, hc]
  | some hash =>
      obtain ⟨c, hc, hslash⟩ := hlast (hexDigits 8 hash.toNat).toList (by simp [parts, hhash])
      refine ⟨c, ?_, hslash⟩
      simp [parts, hhash, List.getLast?_append, List.getLast?_cons, hc]

end SegmentKey

end Subscription
