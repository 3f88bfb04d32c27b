import Mathlib.Data.List.Basic
import Mathlib.Tactic.SplitIfs
import Subscription.Proofs.LeafText

/-!
# Texts that are taken for decimal numbers

A decimal number is digits behind an optional sign, and digits again behind the point, if there
is one (`Decimal.IsDecimal`).  A decimal leaf takes other texts as well
(`Decimal.IsLoose`): words for infinity and for what is no number at all, numbers with digits on
one side of the point only, and numbers with an exponent.

* A text has a double just when it is a decimal number or one of those
  (`Binary64.isSome_parse_iff`), and it is never both (`Decimal.IsLoose.not_isDecimal`).
* Rounding never comes to what is no number (`Binary64.isNaN_ofDecimal`).  So the texts that mean
  no number are those that say so in a word (`Binary64.isNaN_parse_iff`).  Only their values
  differ from themselves.

A leaf with any other text is refused, and the error carries the text
(`Node.decimals_are_strict_iff`).
-/

namespace Subscription

/-! ## Texts -/

namespace Decimal

/-- An optional sign. -/
inductive IsSign : List Char → Prop
  | missing : IsSign []
  | plus : IsSign ['+']
  | minus : IsSign ['-']

/-- A decimal number. -/
inductive IsDecimal : List Char → Prop
  | whole {sign digits : List Char} (hsign : IsSign sign) (hdigits : AreDigits digits) :
      IsDecimal (sign ++ digits)
  | pointed {sign digits fraction : List Char} (hsign : IsSign sign) (hdigits : AreDigits digits)
      (hfraction : AreDigits fraction) : IsDecimal (sign ++ (digits ++ '.' :: fraction))

/-- Digits with at most one point among, before or behind them. -/
inductive IsFigures : List Char → Prop
  | whole {digits : List Char} (hdigits : AreDigits digits) : IsFigures digits
  | pointed {digits fraction : List Char} (hdigits : AreDigits digits)
      (hfraction : AreDigits fraction) : IsFigures (digits ++ '.' :: fraction)
  | pointLast {digits : List Char} (hdigits : AreDigits digits) : IsFigures (digits ++ ['.'])
  | pointFirst {fraction : List Char} (hfraction : AreDigits fraction) :
      IsFigures ('.' :: fraction)

/-- An exponent behind its mark. -/
inductive IsExponent : List Char → Prop
  | marked {mark : Char} {sign digits : List Char} (hmark : mark = 'e' ∨ mark = 'E')
      (hsign : IsSign sign) (hdigits : AreDigits digits) : IsExponent (mark :: (sign ++ digits))

/-- A word in any case. -/
def IsWord (word : String) (text : List Char) : Prop := text.map Char.toLower = word.toList

instance (word : String) (text : List Char) : Decidable (IsWord word text) :=
  inferInstanceAs (Decidable (_ = _))

/-- What is taken for a number although it is no decimal number. -/
inductive IsLoose : List Char → Prop
  | infinite {sign text : List Char} (hsign : IsSign sign)
      (hword : IsWord "inf" text ∨ IsWord "infinity" text) : IsLoose (sign ++ text)
  | notANumber {sign text : List Char} (hsign : IsSign sign) (hword : IsWord "nan" text) :
      IsLoose (sign ++ text)
  | pointLast {sign digits : List Char} (hsign : IsSign sign) (hdigits : AreDigits digits) :
      IsLoose (sign ++ (digits ++ ['.']))
  | pointFirst {sign fraction : List Char} (hsign : IsSign sign)
      (hfraction : AreDigits fraction) : IsLoose (sign ++ '.' :: fraction)
  | scaled {sign figures exponent : List Char} (hsign : IsSign sign)
      (hfigures : IsFigures figures) (hexponent : IsExponent exponent) :
      IsLoose (sign ++ (figures ++ exponent))

/-- A text that says that it is no number. -/
def IsNaNText (text : List Char) : Prop :=
  ∃ sign word, IsSign sign ∧ IsWord "nan" word ∧ text = sign ++ word

variable {sign body digits rest text : List Char}

/-! ### Where a number begins and ends -/

theorem areDigits_iff : AreDigits digits ↔ digits ≠ [] ∧ ∀ d ∈ digits, d.isDigit = true := by
  simp only [isDigit_iff]
  exact ⟨fun h => ⟨h.nonempty, h.ascii⟩, fun h => ⟨h.1, h.2⟩⟩

/-- What a number begins with tells whether it has a sign. -/
def HasNoSign (body : List Char) : Prop := ∀ c ∈ body.head?, c ≠ '+' ∧ c ≠ '-'

/-- The sign of a text is what stands in front of a body without a sign. -/
theorem IsSign.append_inj {sign' body' : List Char} (hsign : IsSign sign) (hsign' : IsSign sign')
    (hbody : HasNoSign body) (hbody' : HasNoSign body') (heq : sign ++ body = sign' ++ body') :
    sign = sign' ∧ body = body' := by
  have hhead : ∀ {c : Char} {more : List Char}, HasNoSign (c :: more) → c ≠ '+' ∧ c ≠ '-' :=
    fun h => h _ rfl
  cases hsign <;> cases hsign' <;> simp only [List.nil_append, List.cons_append] at heq
  case missing.missing => exact ⟨rfl, heq⟩
  case missing.plus => exact absurd rfl (hhead (heq ▸ hbody)).1
  case missing.minus => exact absurd rfl (hhead (heq ▸ hbody)).2
  case plus.missing => exact absurd rfl (hhead (heq ▸ hbody')).1
  case minus.missing => exact absurd rfl (hhead (heq ▸ hbody')).2
  case plus.plus => exact ⟨rfl, List.tail_eq_of_cons_eq heq⟩
  case minus.minus => exact ⟨rfl, List.tail_eq_of_cons_eq heq⟩
  case plus.minus => exact absurd (List.head_eq_of_cons_eq heq) (by decide)
  case minus.plus => exact absurd (List.head_eq_of_cons_eq heq) (by decide)

theorem AreDigits.exists_cons (hdigits : AreDigits digits) :
    ∃ d more, digits = d :: more ∧ d.isDigit = true := by
  cases digits with
  | nil => exact absurd rfl hdigits.nonempty
  | cons d more => exact ⟨d, more, rfl, isDigit_iff.2 (hdigits.ascii d List.mem_cons_self)⟩

theorem ne_of_isDigit {c d : Char} (hc : c.isDigit = true) (hd : d.isDigit = false) : c ≠ d := by
  intro heq
  rw [heq, hd] at hc
  cases hc

/-- Figures begin with a digit or with the point, and have no other characters. -/
theorem IsFigures.mem (hfigures : IsFigures body) {c : Char} (hc : c ∈ body) :
    c.isDigit = true ∨ c = '.' := by
  have hdigit : ∀ {digits : List Char}, AreDigits digits → c ∈ digits → c.isDigit = true :=
    fun h hc => isDigit_iff.2 (h.ascii c hc)
  cases hfigures with
  | whole hdigits => exact .inl (hdigit hdigits hc)
  | pointed hdigits hfraction =>
      rcases List.mem_append.1 hc with hc | hc
      · exact .inl (hdigit hdigits hc)
      · rcases List.mem_cons.1 hc with rfl | hc
        · exact .inr rfl
        · exact .inl (hdigit hfraction hc)
  | pointLast hdigits =>
      rcases List.mem_append.1 hc with hc | hc
      · exact .inl (hdigit hdigits hc)
      · exact .inr (List.mem_singleton.1 hc)
  | pointFirst hfraction =>
      rcases List.mem_cons.1 hc with rfl | hc
      · exact .inr rfl
      · exact .inl (hdigit hfraction hc)

theorem IsFigures.ne_nil (hfigures : IsFigures body) : body ≠ [] := by
  cases hfigures with
  | whole hdigits => exact hdigits.nonempty
  | pointed | pointLast | pointFirst => simp

/-- What begins with figures has no sign. -/
theorem IsFigures.hasNoSign (hfigures : IsFigures body) (rest : List Char) :
    HasNoSign (body ++ rest) := by
  intro c hc
  cases hbody : body with
  | nil => exact absurd hbody hfigures.ne_nil
  | cons first more =>
      rw [hbody, List.cons_append, List.head?_cons, Option.mem_some_iff] at hc
      subst hc
      rcases hfigures.mem (hbody ▸ List.mem_cons_self) with hdigit | rfl
      · exact ⟨ne_of_isDigit hdigit rfl, ne_of_isDigit hdigit rfl⟩
      · decide

theorem toLower_of_isDigit {c : Char} (hc : c.isDigit = true) : c.toLower = c := by
  have hlast : c.toNat ≤ '9'.toNat := (isDigit_iff.1 hc).2
  have hupper : ¬ ('A' ≤ c ∧ c ≤ 'Z') := by
    intro hupper
    have hfirst : 'A'.toNat ≤ c.toNat := hupper.1
    have hnine : '9'.toNat = 57 := rfl
    have hletter : 'A'.toNat = 65 := rfl
    omega
  exact dif_neg hupper

/-- A word of letters does not begin like a number. -/
theorem IsWord.not_figures {word : String} {first : Char} {more : List Char}
    (hword : IsWord word (body ++ rest)) (hfirst : word.toList = first :: more)
    (hletter : first.isDigit = false) (hpoint : first ≠ '.') : ¬ IsFigures body := by
  intro hfigures
  cases hbody : body with
  | nil => exact absurd hbody hfigures.ne_nil
  | cons c others =>
      have hsame : c.toLower = first := by
        rw [IsWord, hbody, hfirst, List.cons_append, List.map_cons] at hword
        exact List.head_eq_of_cons_eq hword
      rcases hfigures.mem (hbody ▸ List.mem_cons_self : c ∈ body) with hdigit | rfl
      · rw [toLower_of_isDigit hdigit] at hsame
        exact ne_of_isDigit hdigit hletter hsame
      · exact hpoint hsame.symm

/-- A word of letters has no sign. -/
theorem IsWord.hasNoSign {word : String} {first : Char} {more : List Char}
    (hword : IsWord word body) (hfirst : word.toList = first :: more)
    (hplus : first ≠ '+') (hminus : first ≠ '-') : HasNoSign body := by
  intro c hc
  cases hbody : body with
  | nil =>
      rw [hbody] at hc
      cases hc
  | cons d others =>
      rw [hbody, List.head?_cons, Option.mem_some_iff] at hc
      subst hc
      have hsame : d.toLower = first := by
        rw [IsWord, hbody, hfirst, List.map_cons] at hword
        exact List.head_eq_of_cons_eq hword
      constructor
      · intro hd
        subst hd
        exact hplus hsame.symm
      · intro hd
        subst hd
        exact hminus hsame.symm

/-! ### Reading -/

/-- A text begins with its digits, maybe none. -/
theorem exists_digits (text : List Char) : ∃ digits rest, text = digits ++ rest ∧
    (∀ d ∈ digits, d.isDigit = true) ∧ ∀ c ∈ rest.head?, c.isDigit = false := by
  refine ⟨text.takeWhile Char.isDigit, text.dropWhile Char.isDigit,
    List.takeWhile_append_dropWhile.symm, ?_, ?_⟩
  · exact List.all_eq_true.1 List.all_takeWhile
  · intro c hc
    have hstop := List.head?_dropWhile_not Char.isDigit text
    rw [hc] at hstop
    exact hstop

section Scan

variable (hdigits : ∀ d ∈ digits, d.isDigit = true) (hrest : ∀ c ∈ rest.head?, c.isDigit = false)

include hdigits hrest

theorem takeWhile_digits : (digits ++ rest).takeWhile Char.isDigit = digits := by
  rw [List.takeWhile_append_of_pos hdigits]
  cases rest with
  | nil => simp
  | cons c more => simp [hrest c rfl]

theorem dropWhile_digits : (digits ++ rest).dropWhile Char.isDigit = rest := by
  rw [List.dropWhile_append_of_pos hdigits]
  cases rest with
  | nil => simp
  | cons c more => simp [hrest c rfl]

end Scan

/-- Behind a number there is nothing, or an exponent. -/
def IsEnding (rest : List Char) : Prop := rest = [] ∨ IsExponent rest

theorem exponent?_eq (text : List Char) : exponent? text = IntegerType.int64.signedValue? text := by
  cases text with
  | nil => rfl
  | cons c digits =>
      by_cases hplus : c = '+'
      · rw [hplus]
        rfl
      · by_cases hminus : c = '-'
        · rw [hminus]
          rfl
        · simp [exponent?, IntegerType.signedValue?, hplus, hminus]

theorem isSome_exponent?_iff : (exponent? text).isSome = true ↔
    ∃ sign digits, IsSign sign ∧ AreDigits digits ∧ text = sign ++ digits := by
  rw [exponent?_eq, Option.isSome_iff_exists]
  simp only [IntegerType.signedValue?_eq_some_iff]
  constructor
  · intro h
    obtain ⟨v, hv⟩ := h
    cases hv with
    | plain hdigits => exact ⟨[], _, .missing, hdigits, rfl⟩
    | plus hdigits => exact ⟨['+'], _, .plus, hdigits, rfl⟩
    | minus hdigits _ => exact ⟨['-'], _, .minus, hdigits, rfl⟩
  · intro h
    obtain ⟨sign, digits, hsign, hdigits, rfl⟩ := h
    cases hsign with
    | missing => exact ⟨_, .plain hdigits⟩
    | plus => exact ⟨_, .plus hdigits⟩
    | minus => exact ⟨_, .minus hdigits rfl⟩

/-- What is read behind the digits. -/
def ending? (number : Int → Unsigned) : List Char → Option Unsigned
  | [] => some (number 0)
  | mark :: more => if mark = 'e' ∨ mark = 'E' then (exponent? more).map number else none

theorem isSome_ending?_iff (number : Int → Unsigned) :
    (ending? number rest).isSome = true ↔ IsEnding rest := by
  cases rest with
  | nil => exact ⟨fun _ => .inl rfl, fun _ => rfl⟩
  | cons mark more =>
      by_cases hmark : mark = 'e' ∨ mark = 'E'
      · rw [ending?, if_pos hmark, Option.isSome_map, isSome_exponent?_iff]
        constructor
        · intro h
          obtain ⟨sign, digits, hsign, hdigits, rfl⟩ := h
          exact .inr (.marked hmark hsign hdigits)
        · intro h
          rcases h with h | h
          · cases h
          · cases h with
            | marked _ hsign hdigits => exact ⟨_, _, hsign, hdigits, rfl⟩
      · rw [ending?, if_neg hmark]
        constructor
        · intro h
          cases h
        · intro h
          rcases h with h | h
          · cases h
          · cases h with
            | marked hother _ _ => exact absurd hother hmark

/-- A number without a sign: figures, and an exponent behind them or none. -/
def IsUnsigned (body : List Char) : Prop :=
  ∃ figures rest, body = figures ++ rest ∧ IsFigures figures ∧ IsEnding rest

theorem IsEnding.head (hending : IsEnding rest) :
    (∀ c ∈ rest.head?, c.isDigit = false) ∧ ∀ more, rest ≠ '.' :: more := by
  rcases hending with rfl | hexponent
  · exact ⟨nofun, nofun⟩
  · cases hexponent with
    | marked hmark _ _ =>
        rcases hmark with rfl | rfl
        · exact ⟨fun c hc => by cases hc; rfl, nofun⟩
        · exact ⟨fun c hc => by cases hc; rfl, nofun⟩

/-- The number that is read from digits in front of a point and behind it. -/
def joined? (digits fraction rest : List Char) : Option Unsigned :=
  if digits = [] ∧ fraction = [] then none
  else ending? (fun e => ⟨Nat.ofDigitChars 10 (digits ++ fraction) 0, e - fraction.length⟩) rest

theorem unsigned?_whole (hdigits : ∀ d ∈ digits, d.isDigit = true)
    (hrest : ∀ c ∈ rest.head?, c.isDigit = false) (hpoint : ∀ more, rest ≠ '.' :: more) :
    unsigned? (digits ++ rest) = joined? digits [] rest := by
  unfold unsigned? joined?
  rw [takeWhile_digits hdigits hrest, dropWhile_digits hdigits hrest]
  cases rest with
  | nil => rfl
  | cons c more =>
      dsimp only
      split
      · next heq => exact absurd heq (hpoint _)
      · rfl

theorem unsigned?_pointed {behind : List Char} (hdigits : ∀ d ∈ digits, d.isDigit = true)
    (hbehind : ∀ d ∈ behind, d.isDigit = true) (hrest : ∀ c ∈ rest.head?, c.isDigit = false) :
    unsigned? (digits ++ '.' :: (behind ++ rest)) = joined? digits behind rest := by
  have hpoint : ∀ c ∈ ('.' :: (behind ++ rest)).head?, c.isDigit = false := by
    intro c hc
    cases hc
    rfl
  unfold unsigned? joined?
  rw [takeWhile_digits hdigits hpoint, dropWhile_digits hdigits hpoint]
  simp only [takeWhile_digits hbehind hrest, dropWhile_digits hbehind hrest]
  cases rest <;> rfl

theorem isSome_joined?_iff {fraction : List Char} : (joined? digits fraction rest).isSome = true ↔
    ¬ (digits = [] ∧ fraction = []) ∧ IsEnding rest := by
  unfold joined?
  split
  · next hnone => simp [hnone]
  · next hsome => rw [isSome_ending?_iff, and_iff_right hsome]

/-- Digits with a point behind them or before them, and maybe more digits beyond the point. -/
theorem isFigures_pointed {behind : List Char} (hdigits : ∀ d ∈ digits, d.isDigit = true)
    (hbehind : ∀ d ∈ behind, d.isDigit = true) (hsome : ¬ (digits = [] ∧ behind = [])) :
    IsFigures (digits ++ '.' :: behind) := by
  by_cases hfront : digits = []
  · subst hfront
    exact .pointFirst (areDigits_iff.2 ⟨fun hnone => hsome ⟨rfl, hnone⟩, hbehind⟩)
  · by_cases hback : behind = []
    · subst hback
      exact .pointLast (areDigits_iff.2 ⟨hfront, hdigits⟩)
    · exact .pointed (areDigits_iff.2 ⟨hfront, hdigits⟩) (areDigits_iff.2 ⟨hback, hbehind⟩)

/-- **The numbers without a sign** are what is read as one. -/
theorem isSome_unsigned?_iff : (unsigned? text).isSome = true ↔ IsUnsigned text := by
  constructor
  · intro hread
    obtain ⟨digits, rest, rfl, hdigits, hrest⟩ := exists_digits text
    by_cases hpoint : ∃ more, rest = '.' :: more
    · obtain ⟨more, rfl⟩ := hpoint
      obtain ⟨behind, rest, rfl, hbehind, hrest'⟩ := exists_digits more
      rw [unsigned?_pointed hdigits hbehind hrest', isSome_joined?_iff] at hread
      obtain ⟨hsome, hending⟩ := hread
      exact ⟨digits ++ '.' :: behind, rest, by simp,
        isFigures_pointed hdigits hbehind hsome, hending⟩
    · rw [unsigned?_whole hdigits hrest fun more heq => hpoint ⟨more, heq⟩,
        isSome_joined?_iff] at hread
      obtain ⟨hsome, hending⟩ := hread
      have hnonempty : digits ≠ [] := fun heq => hsome ⟨heq, rfl⟩
      exact ⟨digits, rest, rfl, .whole (areDigits_iff.2 ⟨hnonempty, hdigits⟩), hending⟩
  · intro h
    obtain ⟨figures, rest, rfl, hfigures, hending⟩ := h
    obtain ⟨hdigit, hpoint⟩ := hending.head
    cases hfigures with
    | whole hdigits =>
        obtain ⟨hnonempty, hdigits⟩ := areDigits_iff.1 hdigits
        rw [unsigned?_whole hdigits hdigit hpoint, isSome_joined?_iff]
        exact ⟨fun h => hnonempty h.1, hending⟩
    | pointed hdigits hfraction =>
        obtain ⟨hnonempty, hdigits⟩ := areDigits_iff.1 hdigits
        obtain ⟨-, hfraction⟩ := areDigits_iff.1 hfraction
        rw [List.append_assoc, List.cons_append, unsigned?_pointed hdigits hfraction hdigit,
          isSome_joined?_iff]
        exact ⟨fun h => hnonempty h.1, hending⟩
    | pointLast hdigits =>
        obtain ⟨hnonempty, hdigits⟩ := areDigits_iff.1 hdigits
        have hnone : ∀ d ∈ ([] : List Char), d.isDigit = true := nofun
        have hread := unsigned?_pointed hdigits hnone hdigit
        rw [List.nil_append] at hread
        rw [List.append_assoc, List.cons_append, List.nil_append, hread, isSome_joined?_iff]
        exact ⟨fun h => hnonempty h.1, hending⟩
    | pointFirst hfraction =>
        obtain ⟨hnonempty, hfraction⟩ := areDigits_iff.1 hfraction
        have hnone : ∀ d ∈ ([] : List Char), d.isDigit = true := nofun
        have hread := unsigned?_pointed hnone hfraction hdigit
        rw [List.nil_append] at hread
        rw [List.cons_append, hread, isSome_joined?_iff]
        exact ⟨fun h => hnonempty h.2, hending⟩

/-! ### Signs and words -/

/-- The words that a text may have in the place of a number. -/
def IsNumberWord (body : List Char) : Prop :=
  (IsWord "inf" body ∨ IsWord "infinity" body) ∨ IsWord "nan" body

theorem IsNumberWord.hasNoSign (hword : IsNumberWord body) : HasNoSign body := by
  rcases hword with (hword | hword) | hword <;>
    exact hword.hasNoSign rfl (by decide) (by decide)

theorem IsUnsigned.hasNoSign (hunsigned : IsUnsigned body) : HasNoSign body := by
  obtain ⟨figures, rest, rfl, hfigures, -⟩ := hunsigned
  exact hfigures.hasNoSign rest

theorem IsNumberWord.not_isUnsigned (hword : IsNumberWord body) : ¬ IsUnsigned body := by
  intro hunsigned
  obtain ⟨figures, rest, rfl, hfigures, -⟩ := hunsigned
  rcases hword with (hword | hword) | hword <;>
    exact hword.not_figures rfl rfl (by decide) hfigures

theorem ofList_eq_iff {word : String} :
    String.ofList (body.map Char.toLower) = word ↔ IsWord word body := by
  rw [IsWord]
  exact ⟨fun h => by rw [← h, String.toList_ofList], fun h => by rw [h, String.ofList_toList]⟩

theorem read_eq (negative : Bool) (body : List Char) :
    read negative body = match unsigned? body with
      | some u => some (Binary64.ofDecimal negative u.digits u.exponent)
      | none =>
          if IsWord "inf" body ∨ IsWord "infinity" body then some (Binary64.infinity negative)
          else if IsWord "nan" body then some Binary64.notANumber
          else none := by
  unfold read
  cases unsigned? body with
  | some u => rfl
  | none => simp only [ofList_eq_iff]

/-- What has a double, when it has no sign. -/
theorem isSome_read_iff {negative : Bool} :
    (read negative body).isSome = true ↔ IsUnsigned body ∨ IsNumberWord body := by
  rw [read_eq, ← isSome_unsigned?_iff, IsNumberWord]
  cases unsigned? body with
  | some u => simp
  | none =>
      by_cases hinfinite : IsWord "inf" body ∨ IsWord "infinity" body
      · simp [hinfinite]
      · by_cases hnone : IsWord "nan" body <;> simp [hinfinite, hnone]

theorem hasNoSign_of_read {negative : Bool} {x : Binary64} (hread : read negative body = some x) :
    HasNoSign body := by
  rcases isSome_read_iff.1 (Option.isSome_of_eq_some hread) with hunsigned | hword
  · exact hunsigned.hasNoSign
  · exact hword.hasNoSign

/-- What is read of a text: its sign, and what is behind it. -/
theorem parse_eq_some_iff {text : String} {x : Binary64} :
    Binary64.parse text = some x ↔ ∃ sign body, IsSign sign ∧ text.toList = sign ++ body ∧
      read (decide (sign = ['-'])) body = some x := by
  constructor
  · intro hparse
    unfold Binary64.parse at hparse
    split at hparse
    · next body htext => exact ⟨['+'], body, .plus, htext, hparse⟩
    · next body htext => exact ⟨['-'], body, .minus, htext, hparse⟩
    · exact ⟨[], _, .missing, rfl, hparse⟩
  · intro h
    obtain ⟨sign, body, hsign, htext, hread⟩ := h
    have hbody := hasNoSign_of_read hread
    unfold Binary64.parse
    cases hsign with
    | plus =>
        rw [htext]
        exact hread
    | minus =>
        rw [htext]
        exact hread
    | missing =>
        -- The text is its own body, so that it begins with no sign.
        rw [List.nil_append] at htext
        rw [htext]
        split
        · exact absurd rfl (hbody _ rfl).1
        · exact absurd rfl (hbody _ rfl).2
        · exact hread

/-- Decimal numbers and what is taken for them have a sign or none, and then a number or a word. -/
theorem isDecimal_or_isLoose_iff : IsDecimal text ∨ IsLoose text ↔
    ∃ sign body, IsSign sign ∧ text = sign ++ body ∧ (IsUnsigned body ∨ IsNumberWord body) := by
  constructor
  · intro h
    rcases h with hdecimal | hloose
    · cases hdecimal with
      | whole hsign hdigits =>
          exact ⟨_, _, hsign, rfl, .inl ⟨_, [], (List.append_nil _).symm, .whole hdigits, .inl rfl⟩⟩
      | pointed hsign hdigits hfraction =>
          exact ⟨_, _, hsign, rfl,
            .inl ⟨_, [], (List.append_nil _).symm, .pointed hdigits hfraction, .inl rfl⟩⟩
    · cases hloose with
      | infinite hsign hword => exact ⟨_, _, hsign, rfl, .inr (.inl hword)⟩
      | notANumber hsign hword => exact ⟨_, _, hsign, rfl, .inr (.inr hword)⟩
      | pointLast hsign hdigits =>
          exact ⟨_, _, hsign, rfl,
            .inl ⟨_, [], (List.append_nil _).symm, .pointLast hdigits, .inl rfl⟩⟩
      | pointFirst hsign hfraction =>
          exact ⟨_, _, hsign, rfl,
            .inl ⟨_, [], (List.append_nil _).symm, .pointFirst hfraction, .inl rfl⟩⟩
      | scaled hsign hfigures hexponent =>
          exact ⟨_, _, hsign, rfl, .inl ⟨_, _, rfl, hfigures, .inr hexponent⟩⟩
  · intro h
    obtain ⟨sign, body, hsign, rfl, hunsigned | hword⟩ := h
    · obtain ⟨figures, rest, rfl, hfigures, rfl | hexponent⟩ := hunsigned
      · rw [List.append_nil]
        cases hfigures with
        | whole hdigits => exact .inl (.whole hsign hdigits)
        | pointed hdigits hfraction => exact .inl (.pointed hsign hdigits hfraction)
        | pointLast hdigits => exact .inr (.pointLast hsign hdigits)
        | pointFirst hfraction => exact .inr (.pointFirst hsign hfraction)
      · exact .inr (.scaled hsign hfigures hexponent)
    · rcases hword with hword | hword
      · exact .inr (.infinite hsign hword)
      · exact .inr (.notANumber hsign hword)

/-- A decimal number begins with a digit behind its sign, and ends with one. -/
theorem IsDecimal.exists_figures (hdecimal : IsDecimal text) :
    ∃ sign figures, IsSign sign ∧ IsFigures figures ∧ text = sign ++ figures ∧
      (∀ c ∈ figures.head?, c.isDigit = true) ∧ ∀ c ∈ figures.getLast?, c.isDigit = true := by
  cases hdecimal with
  | whole hsign hdigits =>
      have hall := (areDigits_iff.1 hdigits).2
      exact ⟨_, _, hsign, .whole hdigits, rfl, fun c hc => hall c (List.mem_of_mem_head? hc),
        fun c hc => hall c (List.mem_of_mem_getLast? hc)⟩
  | @pointed sign digits fraction hsign hdigits hfraction =>
      refine ⟨_, _, hsign, .pointed hdigits hfraction, rfl, ?_, ?_⟩
      · intro c hc
        obtain ⟨d, more, rfl, hd⟩ := AreDigits.exists_cons hdigits
        cases hc
        exact hd
      · intro c hc
        have hpoint : digits ++ '.' :: fraction = (digits ++ ['.']) ++ fraction := by simp
        rw [hpoint, List.getLast?_append_of_ne_nil _ hfraction.nonempty] at hc
        exact (areDigits_iff.1 hfraction).2 c (List.mem_of_mem_getLast? hc)

/-- **What is only taken for a decimal number is none.** -/
theorem IsLoose.not_isDecimal (hloose : IsLoose text) : ¬ IsDecimal text := by
  intro hdecimal
  obtain ⟨sign', figures', hsign', hfigures', heq, hhead, hlast⟩ := hdecimal.exists_figures
  have hplain : HasNoSign figures' := by
    have hnoSign := hfigures'.hasNoSign []
    rwa [List.append_nil] at hnoSign
  cases hloose with
  | infinite hsign hword =>
      have hnumber : IsNumberWord _ := .inl hword
      obtain ⟨-, rfl⟩ := hsign.append_inj hsign' hnumber.hasNoSign hplain heq
      exact hnumber.not_isUnsigned ⟨_, [], (List.append_nil _).symm, hfigures', .inl rfl⟩
  | notANumber hsign hword =>
      have hnumber : IsNumberWord _ := .inr hword
      obtain ⟨-, rfl⟩ := hsign.append_inj hsign' hnumber.hasNoSign hplain heq
      exact hnumber.not_isUnsigned ⟨_, [], (List.append_nil _).symm, hfigures', .inl rfl⟩
  | pointLast hsign hdigits =>
      have hfigures := (IsFigures.pointLast hdigits).hasNoSign []
      rw [List.append_nil] at hfigures
      obtain ⟨-, rfl⟩ := hsign.append_inj hsign' hfigures hplain heq
      exact absurd (hlast '.' (by simp)) (by decide)
  | pointFirst hsign hfraction =>
      have hfigures := (IsFigures.pointFirst hfraction).hasNoSign []
      rw [List.append_nil] at hfigures
      obtain ⟨-, rfl⟩ := hsign.append_inj hsign' hfigures hplain heq
      exact absurd (hhead '.' rfl) (by decide)
  | scaled hsign hfigures hexponent =>
      obtain ⟨-, rfl⟩ := hsign.append_inj hsign' (hfigures.hasNoSign _) hplain heq
      cases hexponent with
      | @marked mark sign digits hmark _ _ =>
          rcases hmark with rfl | rfl <;>
            rcases hfigures'.mem (List.mem_append_right _ List.mem_cons_self) with h | h <;>
              exact absurd h (by decide)

end Decimal

/-! ## Doubles -/

namespace Binary64

variable {negative : Bool} {magnitude : Nat} {text : String} {x : Binary64}

/-- Whether two doubles are the same number.  What is no number is not even the same as itself,
and there are two zeros. -/
def isEqual (x y : Binary64) : Bool :=
  !x.isNaN && !y.isNaN && (x == y || (x.magnitude == 0 && y.magnitude == 0))

theorem isEqual_self (x : Binary64) : x.isEqual x = !x.isNaN := by
  cases hnan : x.isNaN <;> simp [isEqual, hnan]

theorem magnitude_ofMagnitude (hmagnitude : magnitude < signBit) :
    (ofMagnitude negative magnitude).magnitude = magnitude := by
  have hsign : signBit = 0x8000000000000000 := rfl
  have hbits : ∀ n < 0x10000000000000000, (UInt64.ofNat n).toNat = n :=
    fun n hn => UInt64.toNat_ofNat_of_lt hn
  rw [hsign] at hmagnitude
  rw [Binary64.magnitude, ofMagnitude, hsign]
  cases negative
  · rw [if_neg (by decide), hbits _ (by omega)]
    omega
  · rw [if_pos rfl, hbits _ (by omega)]
    omega

theorem isNaN_ofMagnitude (hmagnitude : magnitude ≤ infinityBits) :
    (ofMagnitude negative magnitude).isNaN = false := by
  have hinfinity : infinityBits < signBit := by decide
  rw [isNaN, magnitude_ofMagnitude (Nat.lt_of_le_of_lt hmagnitude hinfinity)]
  exact decide_eq_false (Nat.not_lt_of_le hmagnitude)

theorem isNaN_infinity (negative : Bool) : (infinity negative).isNaN = false :=
  isNaN_ofMagnitude (Nat.le_refl _)

theorem nearestMagnitude_le (num den : Nat) : nearestMagnitude num den ≤ infinityBits := by
  unfold nearestMagnitude
  split
  · exact Nat.zero_le _
  · exact Nat.min_le_right _ _

/-- **Rounding comes to a number**, or to infinity. -/
theorem isNaN_ofDecimal (negative : Bool) (digits : Nat) (exponent : Int) :
    (ofDecimal negative digits exponent).isNaN = false := by
  unfold ofDecimal
  dsimp only
  split_ifs
  · exact isNaN_ofMagnitude (Nat.zero_le _)
  · exact isNaN_infinity negative
  · exact isNaN_ofMagnitude (nearestMagnitude_le _ _)
  · exact isNaN_ofMagnitude (nearestMagnitude_le _ _)

theorem isNaN_notANumber : notANumber.isNaN = true := by decide

/-- **The texts of doubles** are the decimal numbers, and what is taken for one. -/
theorem isSome_parse_iff :
    (parse text).isSome = true ↔ Decimal.IsDecimal text.toList ∨ Decimal.IsLoose text.toList := by
  rw [Decimal.isDecimal_or_isLoose_iff, Option.isSome_iff_exists]
  simp only [Decimal.parse_eq_some_iff]
  constructor
  · intro h
    obtain ⟨x, sign, body, hsign, htext, hread⟩ := h
    exact ⟨sign, body, hsign, htext,
      Decimal.isSome_read_iff.1 (Option.isSome_of_eq_some hread)⟩
  · intro h
    obtain ⟨sign, body, hsign, htext, hbody⟩ := h
    obtain ⟨x, hread⟩ := Option.isSome_iff_exists.1 (Decimal.isSome_read_iff.2 hbody)
    exact ⟨x, sign, body, hsign, htext, hread⟩

/-- What is no number behind a sign says so in a word. -/
theorem isNaN_of_read {body : List Char} (hread : Decimal.read negative body = some x) :
    x.isNaN = true ↔ Decimal.IsWord "nan" body := by
  rw [Decimal.read_eq] at hread
  cases hunsigned : Decimal.unsigned? body with
  | some u =>
      rw [hunsigned] at hread
      cases hread
      have hnumber := Decimal.isSome_unsigned?_iff.1 (Option.isSome_of_eq_some hunsigned)
      rw [isNaN_ofDecimal]
      exact ⟨nofun, fun hword => absurd hnumber (Decimal.IsNumberWord.not_isUnsigned (.inr hword))⟩
  | none =>
      rw [hunsigned] at hread
      dsimp only at hread
      split_ifs at hread with hinfinite hnan
      · obtain rfl := Option.some.inj hread
        rw [isNaN_infinity]
        refine ⟨nofun, fun hword => ?_⟩
        rw [Decimal.IsWord] at hword
        simp only [Decimal.IsWord, hword] at hinfinite
        exact absurd hinfinite (by decide)
      · obtain rfl := Option.some.inj hread
        exact ⟨fun _ => hnan, fun _ => isNaN_notANumber⟩

/-- **What is no number** says so in a word. -/
theorem isNaN_parse_iff (hparse : parse text = some x) :
    x.isNaN = true ↔ Decimal.IsNaNText text.toList := by
  obtain ⟨sign, body, hsign, htext, hread⟩ := Decimal.parse_eq_some_iff.1 hparse
  rw [isNaN_of_read hread]
  constructor
  · intro hword
    exact ⟨sign, body, hsign, hword, htext⟩
  · intro h
    obtain ⟨sign', word, hsign', hword, htext'⟩ := h
    have hword' : Decimal.IsNumberWord word := .inr hword
    obtain ⟨-, rfl⟩ := hsign.append_inj hsign' (Decimal.hasNoSign_of_read hread)
      hword'.hasNoSign (htext.symm.trans htext')
    exact hword

end Binary64

/-! ## Leaves -/

/-- Whether two data are equal, doubles as numbers. -/
def ValueData.isEqual : ValueData → ValueData → Bool
  | .decimal64 x, .decimal64 y => x.isEqual y
  | data, other => data == other

/-- Whether two values are equal. -/
def Value.isEqual (value other : Value) : Bool :=
  value.xpath == other.xpath && value.isDefault == other.isDefault &&
    value.data.isEqual other.data

/-- Data that is no number although it is the data of a decimal leaf. -/
def ValueData.IsNaN (data : ValueData) : Prop := ∃ x, data = .decimal64 x ∧ x.isNaN = true

theorem ValueData.isEqual_self_iff (data : ValueData) :
    data.isEqual data = true ↔ ¬ data.IsNaN := by
  cases data with
  | decimal64 x =>
      rw [isEqual, Binary64.isEqual_self]
      simp [IsNaN]
  | _ => simp [isEqual, IsNaN]

/-- Only data that is no number makes a value differ from itself. -/
theorem Value.isEqual_self_iff (value : Value) :
    value.isEqual value = true ↔ ¬ value.data.IsNaN := by
  simp [Value.isEqual, ValueData.isEqual_self_iff]

theorem typedData_decimal64_eq_ok_iff {text : String} {data : ValueData} :
    typedData .decimal64 text = .ok data ↔
      ∃ x, Binary64.parse text = some x ∧ data = .decimal64 x := by
  rw [typedData]
  cases Binary64.parse text <;> simp [eq_comm]

/-- Only decimal leaves have doubles. -/
theorem eq_decimal64_of_typedData {type : LeafType} {text : String} {x : Binary64}
    (hdata : typedData type text = .ok (.decimal64 x)) : type = .decimal64 := by
  cases type with
  | decimal64 => rfl
  | integer t =>
      obtain ⟨v, -, h⟩ := typedData_integer_eq_ok_iff.1 hdata
      cases h
  | boolean =>
      obtain ⟨b, -, h⟩ := typedData_boolean_eq_ok_iff.1 hdata
      cases h
  | binary | bits | empty | enumeration | identityRef | instanceId | string => cases hdata

namespace Node

open Decimal

variable {node : Node} {xpath : String} {value : Value}

theorem ofNode_decimal64_eq_ok_iff (hleaf : node.IsLeaf .decimal64) :
    Value.ofNode node xpath = .ok value ↔ ∃ text x, node.value = some text ∧
      Binary64.parse text = some x ∧ value = ⟨xpath, node.isDefault, .decimal64 x⟩ := by
  have hempty : LeafType.decimal64 ≠ .empty := nofun
  simp only [ofNode_leaf_eq_ok_iff hleaf, leafData_eq_ok_iff hempty,
    typedData_decimal64_eq_ok_iff]
  grind

theorem isLeaf_of_decimal64 {x : Binary64} (hvalue : Value.ofNode node xpath = .ok value)
    (hdata : value.data = .decimal64 x) : node.IsLeaf .decimal64 := by
  have hleaf : ∀ type, node.IsLeaf type → node.IsLeaf .decimal64 := by
    intro type hleaf
    obtain ⟨data, hleafData, rfl⟩ := (ofNode_leaf_eq_ok_iff hleaf).1 hvalue
    have hx : data = .decimal64 x := hdata
    subst hx
    by_cases hempty : type = .empty
    · subst hempty
      cases hleafData
    · obtain ⟨text, -, htyped⟩ := (leafData_eq_ok_iff hempty).1 hleafData
      exact eq_decimal64_of_typedData htyped ▸ hleaf
  cases hkind : node.kind with
  | leaf type => exact hleaf type (.inl hkind)
  | leafList type => exact hleaf type (.inr hkind)
  | container presence =>
      rw [Value.ofNode, Node.data, hkind] at hvalue
      cases presence <;> cases hvalue <;> cases hdata
  | list | notification | anyXml | anyData =>
      rw [Value.ofNode, Node.data, hkind] at hvalue
      cases hvalue
      cases hdata

/-- A node has a value that is no number just when it is a decimal leaf whose text says so. -/
theorem isNaN_ofNode_iff (hvalue : Value.ofNode node xpath = .ok value) :
    value.data.IsNaN ↔
      node.IsLeaf .decimal64 ∧ ∃ text, node.value = some text ∧ IsNaNText text.toList := by
  constructor
  · intro hnan
    obtain ⟨x, hdata, hx⟩ := hnan
    have hleaf := isLeaf_of_decimal64 hvalue hdata
    obtain ⟨text, x', htext, hparse, rfl⟩ := (ofNode_decimal64_eq_ok_iff hleaf).1 hvalue
    cases hdata
    exact ⟨hleaf, text, htext, (Binary64.isNaN_parse_iff hparse).1 hx⟩
  · intro h
    obtain ⟨hleaf, text, htext, hnan⟩ := h
    obtain ⟨text', x, htext', hparse, rfl⟩ := (ofNode_decimal64_eq_ok_iff hleaf).1 hvalue
    obtain rfl : text' = text := Option.some.inj (htext'.symm.trans htext)
    exact ⟨x, rfl, (Binary64.isNaN_parse_iff hparse).2 hnan⟩

/-- **Decimal leaves take more than decimal numbers.**  A decimal leaf has a value just when its
text is a decimal number or is taken for one, and any other text is refused with an error that
carries it; so a value comes from a decimal number just where the text is not one of those that
are only taken for one.  A value of any node is the same as itself just when it does not come
from a decimal leaf whose text says that it is no number. -/
theorem decimals_are_strict_iff (node : Node) (xpath : String) :
    (∀ text, node.IsLeaf .decimal64 → node.value = some text →
      ((∃ value, Value.ofNode node xpath = .ok value) ↔
        IsDecimal text.toList ∨ IsLoose text.toList) ∧
      (¬ IsDecimal text.toList → ¬ IsLoose text.toList →
        ∃ e, Value.ofNode node xpath = .error e ∧ e.kind = .validation ∧
          e.message = "Validation failed: " ++
            ("Value \"" ++ text ++ "\" is not a valid " ++ "decimal64" ++ " number.")) ∧
      (((∃ value, Value.ofNode node xpath = .ok value) → IsDecimal text.toList) ↔
        ¬ IsLoose text.toList)) ∧
    (∀ value, Value.ofNode node xpath = .ok value →
      (value.data.IsNaN ↔
        node.IsLeaf .decimal64 ∧ ∃ text, node.value = some text ∧ IsNaNText text.toList) ∧
      (value.isEqual value = true ↔ ¬ value.data.IsNaN)) := by
  refine ⟨?_, fun value hvalue => ⟨isNaN_ofNode_iff hvalue, value.isEqual_self_iff⟩⟩
  intro text hleaf htext
  have hok : (∃ value, Value.ofNode node xpath = .ok value) ↔
      IsDecimal text.toList ∨ IsLoose text.toList := by
    simp only [← Binary64.isSome_parse_iff, ofNode_decimal64_eq_ok_iff hleaf, htext,
      Option.isSome_iff_exists]
    grind
  refine ⟨hok, ?_, ?_⟩
  · intro hdecimal hloose
    have hparse : Binary64.parse text = none := by
      rw [← Option.not_isSome_iff_eq_none, Binary64.isSome_parse_iff]
      exact not_or.2 ⟨hdecimal, hloose⟩
    have htyped : typedData .decimal64 text = .error (.invalid (.number text "decimal64")) := by
      rw [typedData, hparse]
    refine ⟨.invalid (.number text "decimal64"), ?_, rfl, rfl⟩
    rcases hleaf with hkind | hkind <;>
      rw [Value.ofNode, Node.data, hkind, htext] <;>
      exact congrArg (Except.map _) htyped
  · rw [hok]
    constructor
    · intro h hloose
      exact hloose.not_isDecimal (h (.inr hloose))
    · intro hloose h
      exact h.resolve_right hloose

/-- A leaf with a decimal number. -/
def thaw : Node := leaf "m" "level" .decimal64 "-2.50"

/-- The decimal number has a value, which is the same as itself. -/
theorem decimals_are_strict_iff_thaw :
    thaw.IsLeaf .decimal64 ∧ thaw.value = some "-2.50" ∧ IsDecimal "-2.50".toList ∧
      ∃ value, Value.ofNode thaw "/m:level" = .ok value ∧ value.isEqual value = true := by
  have hleaf : thaw.IsLeaf .decimal64 := .inl rfl
  have hwhole : AreDigits ['2'] := ((digitsValue?_eq_some_iff (n := 2)).1 rfl).1
  have hpart : AreDigits ['5', '0'] := ((digitsValue?_eq_some_iff (n := 50)).1 rfl).1
  have hdecimal : IsDecimal "-2.50".toList := .pointed .minus hwhole hpart
  obtain ⟨htexts, hvalues⟩ := decimals_are_strict_iff thaw "/m:level"
  obtain ⟨value, hvalue⟩ := (htexts "-2.50" hleaf rfl).1.2 (.inl hdecimal)
  obtain ⟨hnan, hequal⟩ := hvalues value hvalue
  refine ⟨hleaf, rfl, hdecimal, value, hvalue, hequal.2 fun h => ?_⟩
  obtain ⟨-, text, htext, sign, word, hsign, hword, heq⟩ := hnan.1 h
  obtain rfl : "-2.50" = text := Option.some.inj htext
  cases hsign with
  | missing =>
      obtain rfl : "-2.50".toList = word := heq
      exact absurd hword (by decide)
  | plus => cases heq
  | minus =>
      obtain rfl : "2.50".toList = word := List.tail_eq_of_cons_eq heq
      exact absurd hword (by decide)

/-- A text that is no decimal number has a value all the same, and the value differs from
itself. -/
theorem no_number_is_taken :
    ¬ IsDecimal "nan".toList ∧
      ∃ value, Value.ofNode (leaf "m" "l" .decimal64 "nan") "/m:l" = .ok value ∧
        value.data.IsNaN ∧ value.isEqual value = false := by
  have hloose : IsLoose ([] ++ "nan".toList) := .notANumber .missing (by decide)
  refine ⟨hloose.not_isDecimal, ⟨"/m:l", false, .decimal64 Binary64.notANumber⟩, ?_, ?_, ?_⟩
  · decide
  · exact ⟨_, rfl, Binary64.isNaN_notANumber⟩
  · decide

end Node

end Subscription
