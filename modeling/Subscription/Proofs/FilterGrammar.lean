import Mathlib.Data.List.Basic
import Subscription.Proofs.FilterCuts

/-!
# The grammar of filters

A filter is read by two scanners: one cuts the text into steps, the other one cuts a
step into its predicates, and each of them has its own rules for quotes, brackets,
equals signs and colons.  Here a text is described by its layout instead: the pieces
of each step (`StepText`) and of each predicate (`PredicateText`), blanks included.

* `reader_accepts_iff` says which texts are filters.  Their layouts are the legible
  ones, and no text has two of them (`written_injective`).
* The grammar that is documented for filters (`InGrammar`) is narrower.  A filter is
  outside of it exactly when some key stands behind a colon and what comes before that
  colon is not an identifier, or the key is a dot: the reader drops it unseen
  (`reader_exceeds_grammar`).
* Every filter of the grammar is read back as it has been written
  (`written_reads_back`).
-/

namespace Subscription

namespace Filter

/-! ## Layouts -/

/-- What a predicate is written as: in brackets, a key, an equals sign and a quoted
value. -/
structure PredicateText where
  /-- The blanks before the key. -/
  indent : List Char
  /-- What stands before the key proper, with the colon that ends it. -/
  scope : List Char
  key : List Char
  /-- The blanks behind the key. -/
  behind : List Char
  /-- The blanks before the value. -/
  gap : List Char
  quote : Char
  value : List Char
  /-- The blanks behind the value. -/
  trail : List Char
  deriving DecidableEq, Repr

namespace PredicateText

/-- The text before the equals sign. -/
def left (p : PredicateText) : List Char := p.indent ++ (p.scope ++ p.key ++ p.behind)

/-- The text behind the equals sign, up to the bracket and past it. -/
def right (p : PredicateText) (rest : List Char) : List Char :=
  p.gap ++ p.quote :: (p.value ++ p.quote :: (p.trail ++ ']' :: rest))

def chars (p : PredicateText) : List Char := '[' :: (p.left ++ '=' :: p.right [])

/-- What is stored of a predicate. -/
def predicate (p : PredicateText) : Predicate := ⟨String.ofList p.key, String.ofList p.value⟩

/-- What the reader asks of a predicate. -/
structure Legible (p : PredicateText) : Prop where
  indent : Blanks p.indent
  scope : IsScope p.scope
  scope_begins : Begins p.scope
  scope_equals : '=' ∉ p.scope
  key : p.key = ['.'] ∨ isIdent p.key = true
  behind : Blanks p.behind
  gap : Blanks p.gap
  quote : XPath.isQuote p.quote = true
  value : p.quote ∉ p.value
  trail : Blanks p.trail

/-- What the documentation allows before a key: nothing, or one identifier and a colon
when the key is an identifier itself. -/
def Scoped (p : PredicateText) : Prop :=
  p.scope = [] ∨ isIdent p.key = true ∧ ∃ m, isIdent m = true ∧ p.scope = m ++ [':']

/-- What the documentation asks of a predicate. -/
structure Documented (p : PredicateText) : Prop where
  indent : Blanks p.indent
  scope : p.Scoped
  key : p.key = ['.'] ∨ isIdent p.key = true
  behind : Blanks p.behind
  gap : Blanks p.gap
  quote : XPath.isQuote p.quote = true
  value : p.quote ∉ p.value
  trail : Blanks p.trail

end PredicateText

/-- What a step is written as. -/
structure StepText where
  module : Option (List Char)
  name : List Char
  predicates : List PredicateText
  deriving DecidableEq, Repr

namespace StepText

/-- The text before the predicates. -/
def head (s : StepText) : List Char := s.module.elim [] (· ++ [':']) ++ s.name

def chars (s : StepText) : List Char := s.head ++ s.predicates.flatMap PredicateText.chars

/-- What is stored of a step. -/
def step (s : StepText) : Step :=
  ⟨s.module.map String.ofList, String.ofList s.name, s.predicates.map PredicateText.predicate⟩

/-- What the reader asks of the head of a step. -/
structure Headed (s : StepText) : Prop where
  module : ∀ m ∈ s.module, isIdent m = true
  name : s.name = ['*'] ∨ isIdent s.name = true

/-- What the reader asks of a step: that its predicates are legible, and that the quotes
and brackets which their scopes may contain do not hide the end of the step. -/
structure Legible (s : StepText) : Prop extends s.Headed where
  predicates : ∀ p ∈ s.predicates, p.Legible
  closes : Closes 0 s.chars

/-- What the documentation asks of a step. -/
structure Documented (s : StepText) : Prop extends s.Headed where
  predicates : ∀ p ∈ s.predicates, p.Documented

end StepText

/-- The text of a list of steps. -/
def written (layout : List StepText) : List Char := layout.flatMap fun s => '/' :: s.chars

/-- The filter is the one that the text, written as laid out, stands for.  Its first step
names a module. -/
structure Reads (layout : List StepText) (text : String) (f : Filter) : Prop where
  prefixed : ∃ first ∈ layout.head?, first.module.isSome = true
  spelled : text.toList = written layout
  filter : f = ⟨text, layout.map StepText.step⟩

/-- The text is in the documented grammar, and this is its filter. -/
def InGrammar (text : String) (f : Filter) : Prop :=
  ∃ layout, (∀ s ∈ layout, s.Documented) ∧ Reads layout text f

/-! ## Characters of a layout -/

theorem code_of_isIdentRest {c : Char} (hc : isIdentRest c = true) :
    45 ≤ c.toNat ∧ c.toNat ≤ 122 := by
  delta isIdentRest Char.isAlphanum Char.isAlpha Char.isUpper Char.isLower Char.isDigit at hc
  simp only [Bool.or_eq_true, Bool.and_eq_true, decide_eq_true_eq, beq_iff_eq, ge_iff_le,
    UInt32.le_iff_toNat_le] at hc
  change (((((65 ≤ c.toNat ∧ c.toNat ≤ 90) ∨ (97 ≤ c.toNat ∧ c.toNat ≤ 122)) ∨
    (48 ≤ c.toNat ∧ c.toNat ≤ 57)) ∨ c = '_') ∨ c = '-') ∨ c = '.' at hc
  rcases hc with ((((hupper | hlower) | hdigit) | rfl) | rfl) | rfl
  · omega
  · omega
  · omega
  · decide
  · decide
  · decide

theorem code_of_isBlank {c : Char} (hc : isBlank c = true) : c.toNat ≤ 32 ∨ 133 ≤ c.toNat := by
  simp only [isBlank, blankRanges, List.any_cons, List.any_nil, Bool.or_eq_true,
    Bool.and_eq_true, decide_eq_true_eq, Bool.false_eq_true, or_false] at hc
  omega

theorem isBlank_of_isIdentRest {c : Char} (hc : isIdentRest c = true) : isBlank c = false := by
  rw [Bool.eq_false_iff]
  intro hblank
  have hcode := code_of_isIdentRest hc
  have hother := code_of_isBlank hblank
  omega

theorem isIdentRest_of_isIdent {text : List Char} (hident : isIdent text = true) :
    ∀ c ∈ text, isIdentRest c = true := by
  cases text with
  | nil => cases hident
  | cons first rest =>
      simp only [isIdent, isIdentStart, Bool.and_eq_true, Bool.or_eq_true,
        List.all_eq_true] at hident
      intro c hc
      rcases List.mem_cons.1 hc with rfl | hc
      · rcases hident.1 with halpha | hunder
        · simp [isIdentRest, Char.isAlphanum, halpha]
        · simp [isIdentRest, hunder]
      · exact hident.2 c hc

theorem isIdent_ne_nil {text : List Char} (hident : isIdent text = true) : text ≠ [] := by
  rintro rfl
  cases hident

/-- A key contains neither blanks nor marks. -/
theorem isIdentRest_of_key {key : List Char} (hkey : key = ['.'] ∨ isIdent key = true) :
    ∀ c ∈ key, isIdentRest c = true := by
  rcases hkey with rfl | hident
  · exact List.all_eq_true.1 rfl
  · exact isIdentRest_of_isIdent hident

theorem key_ne_nil {key : List Char} (hkey : key = ['.'] ∨ isIdent key = true) : key ≠ [] := by
  rcases hkey with rfl | hident
  · decide
  · exact isIdent_ne_nil hident

section Marks

variable {kind : Char → Bool} {text : List Char} {mark c : Char}

/-- A text of one kind of characters has no mark that is not of this kind. -/
theorem notMem_of_kind (htext : ∀ c ∈ text, kind c = true) (hmark : kind mark = false) :
    mark ∉ text := by
  intro hmem
  rw [htext mark hmem] at hmark
  cases hmark

theorem IsPlain.of_kind (hc : kind c = true)
    (hmarks : ['\x27', '\x22', '[', ']', '/'].any kind = false) (depth : Nat) :
    IsPlain depth c := by
  have hother : c ∉ ['\x27', '\x22', '[', ']', '/'] :=
    fun hmem => List.any_eq_false.1 hmarks c hmem hc
  simp only [List.mem_cons, List.not_mem_nil, or_false, not_or] at hother
  obtain ⟨hsingle, hdouble, hopen, hclose, hslash⟩ := hother
  exact ⟨by simp [XPath.isQuote, hsingle, hdouble], hopen, hclose, fun h => absurd h hslash⟩

end Marks

/-- Neither identifiers nor blanks quote or bracket anything. -/
theorem isPlain_of_isIdentRest {c : Char} (hc : isIdentRest c = true) (depth : Nat) :
    IsPlain depth c :=
  .of_kind hc rfl depth

theorem isPlain_of_isBlank {c : Char} (hc : isBlank c = true) (depth : Nat) : IsPlain depth c :=
  .of_kind hc rfl depth

theorem notMem_of_ident {text : List Char} (hident : isIdent text = true) {mark : Char}
    (hmark : isIdentRest mark = false) : mark ∉ text :=
  notMem_of_kind (isIdentRest_of_isIdent hident) hmark

/-! ## Reading a predicate -/

theorem isBlank_of_isQuote {q : Char} (hquote : XPath.isQuote q = true) : isBlank q = false := by
  simp only [XPath.isQuote, Bool.or_eq_true, beq_iff_eq] at hquote
  rcases hquote with rfl | rfl <;> decide

theorem parseLiteral_eq_some_iff {text value behind : List Char} :
    parseLiteral text = some (value, behind) ↔
      ∃ q, XPath.isQuote q = true ∧ q ∉ value ∧ text = q :: (value ++ q :: behind) := by
  cases text with
  | nil => simp [parseLiteral]
  | cons q rest =>
      rw [parseLiteral]
      constructor
      · intro hread
        split at hread
        next hquote =>
          obtain ⟨rfl, hvalue⟩ := splitAtFirst_eq_some_iff.1 hread
          exact ⟨q, hquote, hvalue, rfl⟩
        next => cases hread
      · rintro ⟨q', hquote, hvalue, htext⟩
        obtain ⟨rfl, rfl⟩ := List.cons.inj htext
        rw [if_pos hquote, splitAtFirst_append hvalue]

namespace PredicateText

variable {p p' : PredicateText}

theorem chars_append (p : PredicateText) (rest : List Char) :
    p.chars ++ rest = '[' :: (p.left ++ '=' :: p.right rest) := by
  simp [chars, right]

theorem Legible.core_begins (hp : p.Legible) : Begins (p.scope ++ p.key) := by
  intro c hc
  cases hscope : p.scope with
  | nil =>
      rw [hscope, List.nil_append] at hc
      exact isBlank_of_isIdentRest (isIdentRest_of_key hp.key c (List.mem_of_mem_head? hc))
  | cons d rest =>
      rw [hscope] at hc
      exact hp.scope_begins c (by rw [hscope]; exact hc)

theorem Legible.core_ends (hp : p.Legible) : Ends (p.scope ++ p.key) := by
  intro c hc
  rw [List.getLast?_append_of_ne_nil _ (key_ne_nil hp.key)] at hc
  exact isBlank_of_isIdentRest (isIdentRest_of_key hp.key c (List.mem_of_mem_getLast? hc))

theorem Legible.trim_left (hp : p.Legible) : trim p.left = p.scope ++ p.key :=
  trim_append hp.indent hp.core_begins hp.core_ends hp.behind

theorem Legible.trimStart_left (hp : p.Legible) :
    trimStart p.left = p.scope ++ p.key ++ p.behind := by
  refine trimStart_append hp.indent fun c hc => hp.core_begins c ?_
  have hne : p.scope ++ p.key ≠ [] := by simp [key_ne_nil hp.key]
  rwa [List.head?_append_of_ne_nil _ hne] at hc

theorem Legible.equals_notMem_left (hp : p.Legible) : '=' ∉ p.left := by
  simp only [left, List.mem_append, not_or]
  exact ⟨notMem_of_kind hp.indent (by decide), ⟨hp.scope_equals,
    notMem_of_kind (isIdentRest_of_key hp.key) (by decide)⟩, notMem_of_kind hp.behind (by decide)⟩

theorem Legible.trimStart_right (hp : p.Legible) (rest : List Char) :
    trimStart (p.right rest) = p.quote :: (p.value ++ p.quote :: (p.trail ++ ']' :: rest)) :=
  trimStart_append hp.gap fun c hc => by
    obtain rfl : p.quote = c := by simpa using hc
    exact isBlank_of_isQuote hp.quote

theorem Legible.trimStart_trail (hp : p.Legible) (rest : List Char) :
    trimStart (p.trail ++ ']' :: rest) = ']' :: rest :=
  trimStart_append hp.trail fun c hc => by
    obtain rfl : ']' = c := by simpa using hc
    decide

/-- A legible predicate is read as what it is laid out for. -/
theorem Legible.parsePredicate_eq (hp : p.Legible) (rest : List Char) :
    parsePredicate (p.left ++ '=' :: p.right rest) = some (p.predicate, rest) := by
  have hkey : withoutModule (p.scope ++ p.key) = p.key :=
    withoutModule_append hp.scope (notMem_of_kind (isIdentRest_of_key hp.key) (by decide))
  have hnamed : ¬(p.key ≠ ['.'] && !isIdent p.key) = true := by
    rcases hp.key with hdot | hident
    · simp [hdot]
    · simp [hident]
  have hliteral : parseLiteral (p.quote :: (p.value ++ p.quote :: (p.trail ++ ']' :: rest))) =
      some (p.value, p.trail ++ ']' :: rest) :=
    parseLiteral_eq_some_iff.2 ⟨p.quote, hp.quote, hp.value, rfl⟩
  simp only [parsePredicate, splitAtFirst_append hp.equals_notMem_left, hp.trim_left, hkey,
    if_neg hnamed, hp.trimStart_right, hliteral, hp.trimStart_trail, Option.bind_eq_bind,
    Option.bind_some]
  rfl

end PredicateText

/-- **What is read as a predicate** is laid out legibly. -/
theorem parsePredicate_eq_some_iff {body rest : List Char} {q : Predicate} :
    parsePredicate body = some (q, rest) ↔
      ∃ p : PredicateText, p.Legible ∧ body = p.left ++ '=' :: p.right rest ∧ q = p.predicate := by
  constructor
  · intro hread
    simp only [parsePredicate, Option.bind_eq_bind, Option.bind_eq_some_iff] at hread
    obtain ⟨⟨keyText, behindKey⟩, hsplit, hread⟩ := hread
    obtain ⟨rfl, hequals⟩ := splitAtFirst_eq_some_iff.1 hsplit
    simp only at hread
    split at hread
    next => cases hread
    next hkey =>
      simp only [Option.bind_eq_some_iff] at hread
      obtain ⟨⟨value, behindValue⟩, hliteral, hread⟩ := hread
      simp only at hread
      split at hread
      next rest' hbracket =>
        cases hread
        obtain ⟨q, hquote, hvalue, hrest⟩ := parseLiteral_eq_some_iff.1 hliteral
        obtain ⟨indent, behind, hindent, hbehind, hkeyText, hbegins, -⟩ := exists_trim keyText
        obtain ⟨scope, hcore, hscope, -⟩ := exists_withoutModule (trim keyText)
        obtain ⟨gap, hgap, hbehindKey, -⟩ := exists_trimStart behindKey
        obtain ⟨trail, htrail, hbehindValue, -⟩ := exists_trimStart behindValue
        refine ⟨⟨indent, scope, withoutModule (trim keyText), behind, gap, q, value, trail⟩,
          ⟨hindent, hscope, ?_, ?_, ?_, hbehind, hgap, hquote, hvalue, htrail⟩, ?_, rfl⟩
        · intro c hc
          refine hbegins c ?_
          obtain ⟨more, rfl⟩ := List.head?_eq_some_iff.1 hc
          rw [hcore]
          rfl
        · intro hmem
          refine hequals ?_
          rw [hkeyText, hcore]
          simp [hmem]
        · simpa [Classical.or_iff_not_imp_left] using hkey
        · simp only [PredicateText.left, PredicateText.right]
          rw [← hbracket, ← hbehindValue, ← hrest, ← hbehindKey, ← hcore, ← hkeyText]
      next => cases hread
  · rintro ⟨p, hp, rfl, rfl⟩
    exact hp.parsePredicate_eq rest

theorem parsePredicates_eq_some_iff {text : List Char} {ps : List Predicate} :
    parsePredicates text = some ps ↔
      ∃ layout : List PredicateText, (∀ p ∈ layout, p.Legible) ∧
        text = layout.flatMap PredicateText.chars ∧ ps = layout.map PredicateText.predicate := by
  constructor
  · intro hread
    fun_induction parsePredicates text generalizing ps with
    | case1 =>
        cases hread
        exact ⟨[], by simp, rfl, rfl⟩
    | case2 body q rest hpredicate ih =>
        obtain ⟨qs, hqs, rfl⟩ := Option.map_eq_some_iff.1 hread
        obtain ⟨p, hp, rfl, rfl⟩ := parsePredicate_eq_some_iff.1 hpredicate
        obtain ⟨layout, hlayout, rfl, rfl⟩ := ih hqs
        refine ⟨p :: layout, List.forall_mem_cons.2 ⟨hp, hlayout⟩, ?_, rfl⟩
        rw [List.flatMap_cons, p.chars_append]
    | case3 => cases hread
    | case4 => cases hread
  · rintro ⟨layout, hlayout, rfl, rfl⟩
    induction layout with
    | nil => rw [List.flatMap_nil, parsePredicates, List.map_nil]
    | cons p layout ih =>
        obtain ⟨hp, hlayout⟩ := List.forall_mem_cons.1 hlayout
        have hread := hp.parsePredicate_eq (layout.flatMap PredicateText.chars)
        rw [List.flatMap_cons, p.chars_append, parsePredicates, if_pos rfl]
        split
        next q rest hother =>
          rw [hread] at hother
          cases hother
          rw [ih hlayout]
          rfl
        next hother =>
          rw [hread] at hother
          cases hother

/-! ## Reading a step -/

namespace StepText

variable {s s' : StepText}

/-- No character that identifiers do not have, the star apart, stands in a name. -/
theorem Headed.notMem_name (hs : s.Headed) {mark : Char} (hmark : isIdentRest mark = false)
    (hstar : mark ≠ '*') : mark ∉ s.name := by
  rcases hs.name with hname | hident
  · rw [hname]
    exact fun hmem => hstar (List.mem_singleton.1 hmem)
  · exact notMem_of_ident hident hmark

/-- The head of a step is cut behind its module, when it has one. -/
theorem Headed.splitAtFirst_head (hs : s.Headed) :
    splitAtFirst ':' s.head = s.module.map (·, s.name) := by
  cases hmodule : s.module with
  | none =>
      rw [head, hmodule]
      exact splitAtFirst_eq_none_iff.2 (hs.notMem_name (by decide) (by decide))
  | some m =>
      have hm : ':' ∉ m := notMem_of_ident (hs.module m hmodule) (by decide)
      rw [head, hmodule]
      simpa using splitAtFirst_append hm s.name

theorem Headed.isPlain_head (hs : s.Headed) : ∀ c ∈ s.head, IsPlain 0 c := by
  have hname : ∀ c ∈ s.name, IsPlain 0 c := by
    rcases hs.name with hname | hident
    · rw [hname]
      rintro c hc
      rw [List.mem_singleton.1 hc]
      exact ⟨by decide, by decide, by decide, by decide⟩
    · exact fun c hc => isPlain_of_isIdentRest (isIdentRest_of_isIdent hident c hc) 0
  intro c hc
  rw [head] at hc
  rcases List.mem_append.1 hc with hc | hc
  · cases hmodule : s.module with
    | none => simp [hmodule] at hc
    | some m =>
        rw [hmodule] at hc
        rcases List.mem_append.1 hc with hc | hc
        · exact isPlain_of_isIdentRest (isIdentRest_of_isIdent (hs.module m hmodule) c hc) 0
        · rw [List.mem_singleton.1 hc]
          exact ⟨by decide, by decide, by decide, by decide⟩
  · exact hname c hc

theorem Headed.bracket_notMem_head (hs : s.Headed) : '[' ∉ s.head :=
  fun hmem => (hs.isPlain_head '[' hmem).2.1 rfl

/-- A step is cut where its predicates begin. -/
theorem Headed.cut (hs : s.Headed) :
    s.chars.takeWhile (· ≠ '[') = s.head ∧
      s.chars.dropWhile (· ≠ '[') = s.predicates.flatMap PredicateText.chars := by
  have hother : ∀ c ∈ s.head, decide (c ≠ '[') = true := by
    intro c hc
    rw [decide_eq_true_eq]
    rintro rfl
    exact hs.bracket_notMem_head hc
  rw [chars, List.takeWhile_append_of_pos hother, List.dropWhile_append_of_pos hother]
  cases s.predicates with
  | nil => simp
  | cons p rest => simp [PredicateText.chars]

end StepText

theorem parseNodeTest_eq_some_iff {head : List Char} {node : Option String × String} :
    parseNodeTest head = some node ↔
      ∃ (module : Option (List Char)) (name : List Char),
        (StepText.mk module name []).Headed ∧ head = (StepText.mk module name []).head ∧
        node = (module.map String.ofList, String.ofList name) := by
  constructor
  · intro hread
    cases hsplit : splitAtFirst ':' head with
    | none =>
        simp only [parseNodeTest, hsplit, Option.all_none, Bool.true_and,
          Option.ite_none_right_eq_some, Bool.or_eq_true, beq_iff_eq] at hread
        obtain ⟨hname, hnode⟩ := hread
        exact ⟨none, head, ⟨by simp, hname⟩, rfl, (Option.some.inj hnode).symm⟩
    | some pieces =>
        obtain ⟨m, name⟩ := pieces
        obtain ⟨rfl, -⟩ := splitAtFirst_eq_some_iff.1 hsplit
        simp only [parseNodeTest, hsplit, Option.all_some, Option.ite_none_right_eq_some,
          Bool.and_eq_true, Bool.or_eq_true, beq_iff_eq] at hread
        obtain ⟨⟨hm, hname⟩, hnode⟩ := hread
        refine ⟨some m, name, ⟨?_, hname⟩, ?_, (Option.some.inj hnode).symm⟩
        · intro m' hm'
          cases hm'
          exact hm
        · simp [StepText.head]
  · rintro ⟨module, name, hheaded, rfl, rfl⟩
    have hname : (name == ['*'] || isIdent name) = true := by simpa using hheaded.name
    cases module with
    | none =>
        have hcut : splitAtFirst ':' name = none := hheaded.splitAtFirst_head
        change parseNodeTest name = _
        simp only [parseNodeTest, hcut, Option.all_none, hname, Bool.true_and, if_true]
    | some m =>
        have hcut := hheaded.splitAtFirst_head
        have hm : isIdent m = true := hheaded.module m rfl
        simp only [parseNodeTest, hcut, Option.map_some, Option.all_some, hname, hm,
          Bool.true_and, if_true]

/-- What the reader makes of one step does not say yet where the step ends. -/
theorem parseStep_eq_some_iff {text : List Char} {st : Step} :
    parseStep text = some st ↔
      ∃ s : StepText, (s.Headed ∧ ∀ p ∈ s.predicates, p.Legible) ∧ text = s.chars ∧
        st = s.step := by
  constructor
  · intro hread
    simp only [parseStep, Option.bind_eq_bind, Option.bind_eq_some_iff] at hread
    obtain ⟨node, hnode, ps, hps, hst⟩ := hread
    obtain ⟨module, name, hheaded, hhead, rfl⟩ := parseNodeTest_eq_some_iff.1 hnode
    obtain ⟨layout, hlayout, hrest, rfl⟩ := parsePredicates_eq_some_iff.1 hps
    refine ⟨⟨module, name, layout⟩, ⟨⟨hheaded.module, hheaded.name⟩, hlayout⟩, ?_,
      (Option.some.inj hst).symm⟩
    rw [StepText.chars, ← hrest]
    exact (List.takeWhile_append_dropWhile.symm).trans (by rw [hhead]; rfl)
  · rintro ⟨s, ⟨hs, hps⟩, rfl, rfl⟩
    obtain ⟨hhead, hrest⟩ := hs.cut
    have hnode : parseNodeTest s.head = some (s.module.map String.ofList, String.ofList s.name) :=
      parseNodeTest_eq_some_iff.2 ⟨s.module, s.name, ⟨hs.module, hs.name⟩, rfl, rfl⟩
    have hread : parsePredicates (s.predicates.flatMap PredicateText.chars) =
        some (s.predicates.map PredicateText.predicate) :=
      parsePredicates_eq_some_iff.2 ⟨s.predicates, hps, rfl, rfl⟩
    simp only [parseStep, hhead, hrest, hnode, hread, Option.bind_eq_bind, Option.bind_some]
    rfl

theorem mapM_parseStep_eq_some_iff {texts : List (List Char)} {steps : List Step} :
    texts.mapM parseStep = some steps ↔
      ∃ layout : List StepText, (∀ s ∈ layout, s.Headed ∧ ∀ p ∈ s.predicates, p.Legible) ∧
        texts = layout.map StepText.chars ∧ steps = layout.map StepText.step := by
  induction texts generalizing steps with
  | nil =>
      constructor
      · intro hread
        cases hread
        exact ⟨[], by simp, rfl, rfl⟩
      · rintro ⟨layout, -, htexts, rfl⟩
        obtain rfl := List.map_eq_nil_iff.1 htexts.symm
        rfl
  | cons text texts ih =>
      simp only [List.mapM_cons, Option.bind_eq_bind, Option.bind_eq_some_iff]
      constructor
      · rintro ⟨st, hst, steps', hsteps, hcons⟩
        obtain ⟨s, hs, rfl, rfl⟩ := parseStep_eq_some_iff.1 hst
        obtain ⟨layout, hlayout, rfl, rfl⟩ := ih.1 hsteps
        exact ⟨s :: layout, List.forall_mem_cons.2 ⟨hs, hlayout⟩, rfl, (Option.some.inj hcons).symm⟩
      · rintro ⟨layout, hlayout, htexts, rfl⟩
        obtain ⟨s, layout, rfl, rfl, rfl⟩ := List.map_eq_cons_iff.1 htexts.symm
        obtain ⟨hs, hlayout⟩ := List.forall_mem_cons.1 hlayout
        exact ⟨s.step, parseStep_eq_some_iff.2 ⟨s, hs, rfl, rfl⟩, layout.map StepText.step,
          ih.2 ⟨layout, hlayout, rfl, rfl⟩, rfl⟩

/-! ## Reading a filter -/

theorem written_eq_flatMap (layout : List StepText) :
    written layout = (layout.map StepText.chars).flatMap ('/' :: ·) := by
  rw [written, List.flatMap_map]

theorem splitSteps_written {s : StepText} {layout : List StepText}
    (hlayout : ∀ s' ∈ s :: layout, Closes 0 s'.chars) :
    splitSteps none 0 (s.chars ++ written layout) = some ((s :: layout).map StepText.chars) := by
  refine splitSteps_eq_some_iff.2 ⟨by simp, ?_, ?_⟩
  · rw [← written_eq_flatMap]
    rfl
  · intro text htext
    obtain ⟨s', hs', rfl⟩ := List.mem_map.1 htext
    exact hlayout s' hs'

theorem parseSteps_eq_some_iff {text : List Char} {steps : List Step} :
    parseSteps text = some steps ↔
      ∃ layout, layout ≠ [] ∧ (∀ s ∈ layout, StepText.Legible s) ∧ text = written layout ∧
        steps = layout.map StepText.step := by
  constructor
  · intro hread
    unfold parseSteps at hread
    split at hread
    next rest =>
      obtain ⟨texts, hsplit, hread⟩ := Option.bind_eq_some_iff.1 hread
      obtain ⟨hne, htext, hcloses⟩ := splitSteps_eq_some_iff.1 hsplit
      obtain ⟨layout, hlayout, rfl, rfl⟩ := mapM_parseStep_eq_some_iff.1 hread
      refine ⟨layout, fun hnil => hne (by rw [hnil]; rfl), ?_, ?_, rfl⟩
      · intro s hs
        obtain ⟨hheaded, hps⟩ := hlayout s hs
        exact ⟨hheaded, hps, hcloses _ (List.mem_map_of_mem hs)⟩
      · rw [written_eq_flatMap, ← htext]
    next => cases hread
  · rintro ⟨layout, hne, hlayout, rfl, rfl⟩
    obtain ⟨s, layout', rfl⟩ := List.exists_cons_of_ne_nil hne
    have hsplit := splitSteps_written fun s' hs' => (hlayout s' hs').closes
    have hread := mapM_parseStep_eq_some_iff.2
      ⟨s :: layout',
        fun s' hs' => ⟨(hlayout s' hs').toHeaded, (hlayout s' hs').predicates⟩, rfl, rfl⟩
    change (splitSteps none 0 (s.chars ++ written layout')).bind
      (fun steps => steps.mapM parseStep) = _
    rw [hsplit]
    exact hread

/-- The filters, and their layouts. -/
theorem parse_eq_ok_iff {text : String} {f : Filter} :
    parse text = .ok f ↔ ∃ layout, (∀ s ∈ layout, StepText.Legible s) ∧ Reads layout text f := by
  constructor
  · intro hread
    unfold parse at hread
    split at hread
    next first rest hsteps =>
      split at hread
      next hmodule =>
        cases hread
        obtain ⟨layout, -, hlayout, htext, hmap⟩ := parseSteps_eq_some_iff.1 hsteps
        obtain ⟨s, layout', rfl, rfl, -⟩ := List.map_eq_cons_iff.1 hmap.symm
        refine ⟨s :: layout', hlayout, ⟨s, rfl, ?_⟩, htext, by rw [hmap]⟩
        simpa [StepText.step] using hmodule
      next => cases hread
    next => cases hread
  · rintro ⟨layout, hlayout, ⟨s, hfirst, hmodule⟩, htext, rfl⟩
    obtain ⟨layout', rfl⟩ := List.head?_eq_some_iff.1 hfirst
    have hsteps : parseSteps text.toList = some (s.step :: layout'.map StepText.step) :=
      parseSteps_eq_some_iff.2 ⟨s :: layout', by simp, hlayout, htext, rfl⟩
    have hprefixed : s.step.module.isSome = true := by simpa [StepText.step] using hmodule
    rw [parse, hsteps]
    simp only [hprefixed, if_true]
    rfl

/-! ## One layout for a text -/

namespace PredicateText

variable {p p' : PredicateText} {rest rest' : List Char}

theorem Legible.eq_of_left (hp : p.Legible) (hp' : p'.Legible) (hleft : p.left = p'.left) :
    p.indent = p'.indent ∧ p.scope = p'.scope ∧ p.key = p'.key ∧ p.behind = p'.behind := by
  have hcore : p.scope ++ p.key = p'.scope ++ p'.key := by
    rw [← hp.trim_left, ← hp'.trim_left, hleft]
  have hkey : p.key = p'.key := by
    have hcut := withoutModule_append hp.scope
      (notMem_of_kind (isIdentRest_of_key hp.key) (by decide))
    have hcut' := withoutModule_append hp'.scope
      (notMem_of_kind (isIdentRest_of_key hp'.key) (by decide))
    rw [← hcut, ← hcut', hcore]
  have hstart : p.scope ++ p.key ++ p.behind = p'.scope ++ p'.key ++ p'.behind := by
    rw [← hp.trimStart_left, ← hp'.trimStart_left, hleft]
  refine ⟨?_, ?_, hkey, ?_⟩
  · rw [left, left, hstart] at hleft
    exact List.append_cancel_right hleft
  · rw [hkey] at hcore
    exact List.append_cancel_right hcore
  · rw [hcore] at hstart
    exact List.append_cancel_left hstart

theorem Legible.eq_of_right (hp : p.Legible) (hp' : p'.Legible)
    (hright : p.right rest = p'.right rest') :
    p.gap = p'.gap ∧ p.quote = p'.quote ∧ p.value = p'.value ∧ p.trail = p'.trail ∧
      rest = rest' := by
  have hliteral := hp.trimStart_right rest
  rw [hright, hp'.trimStart_right rest'] at hliteral
  obtain ⟨hquote, hbehind⟩ := List.cons.inj hliteral
  have hgap : p.gap = p'.gap := by
    rw [right, right, ← hliteral] at hright
    exact List.append_cancel_right hright
  have hpieces := splitAtFirst_append hp.value (p.trail ++ ']' :: rest)
  rw [← hbehind, ← hquote, splitAtFirst_append hp'.value] at hpieces
  obtain ⟨hvalue, htrail⟩ := Prod.mk.inj (Option.some.inj hpieces)
  have hrest : ']' :: rest = ']' :: rest' := by
    rw [← hp.trimStart_trail rest, ← hp'.trimStart_trail rest', htrail]
  refine ⟨hgap, hquote.symm, hvalue.symm, ?_, (List.cons.inj hrest).2⟩
  rw [hrest] at htrail
  exact (List.append_cancel_right htrail).symm

theorem Legible.eq_of_append (hp : p.Legible) (hp' : p'.Legible)
    (htext : p.chars ++ rest = p'.chars ++ rest') : p = p' ∧ rest = rest' := by
  rw [p.chars_append, p'.chars_append] at htext
  -- The first equals sign is the same one, and so is everything on either side of it.
  have hsides := splitAtFirst_append hp.equals_notMem_left (p.right rest)
  rw [(List.cons.inj htext).2, splitAtFirst_append hp'.equals_notMem_left] at hsides
  obtain ⟨hleft, hright⟩ := Prod.mk.inj (Option.some.inj hsides)
  obtain ⟨hindent, hscope, hkey, hbehind⟩ := hp.eq_of_left hp' hleft.symm
  obtain ⟨hgap, hquote, hvalue, htrail, hrest⟩ := hp.eq_of_right hp' hright.symm
  cases p
  cases p'
  simp only at hindent hscope hkey hbehind hgap hquote hvalue htrail
  subst hindent hscope hkey hbehind hgap hquote hvalue htrail
  exact ⟨rfl, hrest⟩

theorem eq_of_flatMap_chars {ps ps' : List PredicateText} (hps : ∀ p ∈ ps, p.Legible)
    (hps' : ∀ p ∈ ps', p.Legible) (htext : ps.flatMap chars = ps'.flatMap chars) : ps = ps' := by
  induction ps generalizing ps' with
  | nil =>
      cases ps' with
      | nil => rfl
      | cons p' ps' => simp [chars] at htext
  | cons p ps ih =>
      cases ps' with
      | nil => simp [chars] at htext
      | cons p' ps' =>
          obtain ⟨hfirst, hmore⟩ := List.forall_mem_cons.1 hps
          obtain ⟨hfirst', hmore'⟩ := List.forall_mem_cons.1 hps'
          rw [List.flatMap_cons, List.flatMap_cons] at htext
          obtain ⟨rfl, hrest⟩ := hfirst.eq_of_append hfirst' htext
          rw [ih hmore hmore' hrest]

end PredicateText

theorem StepText.Legible.eq_of_chars {s s' : StepText} (hs : s.Legible) (hs' : s'.Legible)
    (htext : s.chars = s'.chars) : s = s' := by
  obtain ⟨hhead, hrest⟩ := hs.cut
  obtain ⟨hhead', hrest'⟩ := hs'.cut
  rw [htext, hhead'] at hhead
  rw [htext, hrest'] at hrest
  have hps := PredicateText.eq_of_flatMap_chars hs'.predicates hs.predicates hrest
  have hcolon := hs.splitAtFirst_head
  rw [← hhead, hs'.splitAtFirst_head] at hcolon
  obtain ⟨module, name, ps⟩ := s
  obtain ⟨module', name', ps'⟩ := s'
  obtain rfl : ps' = ps := hps
  cases module with
  | none =>
      cases module' with
      | none =>
          obtain rfl : name' = name := hhead
          rfl
      | some m' => cases hcolon
  | some m =>
      cases module' with
      | none => cases hcolon
      | some m' =>
          cases hcolon
          rfl

theorem StepText.eq_of_map_chars {layout layout' : List StepText}
    (hlayout : ∀ s ∈ layout, s.Legible) (hlayout' : ∀ s ∈ layout', s.Legible)
    (hmap : layout.map StepText.chars = layout'.map StepText.chars) : layout = layout' := by
  induction layout generalizing layout' with
  | nil => exact (List.map_eq_nil_iff.1 hmap.symm).symm
  | cons s layout ih =>
      obtain ⟨s', layout', rfl, hs', hrest⟩ := List.map_eq_cons_iff.1 hmap.symm
      obtain ⟨hlegible, hlayout⟩ := List.forall_mem_cons.1 hlayout
      obtain ⟨hlegible', hlayout'⟩ := List.forall_mem_cons.1 hlayout'
      rw [hlegible.eq_of_chars hlegible' hs'.symm, ih hlayout hlayout' hrest.symm]

/-- **No text has two layouts.** -/
theorem written_injective {layout layout' : List StepText} (hlayout : ∀ s ∈ layout, s.Legible)
    (hlayout' : ∀ s ∈ layout', s.Legible) (htext : written layout = written layout') :
    layout = layout' := by
  cases layout with
  | nil =>
      cases layout' with
      | nil => rfl
      | cons s' layout' => cases htext
  | cons s layout =>
      cases layout' with
      | nil => cases htext
      | cons s' layout' =>
          have hsplit := splitSteps_written fun s hs => (hlayout s hs).closes
          have hsplit' := splitSteps_written fun s hs => (hlayout' s hs).closes
          have hbody : s.chars ++ written layout = s'.chars ++ written layout' :=
            (List.cons.inj htext).2
          rw [hbody, hsplit'] at hsplit
          exact StepText.eq_of_map_chars hlayout hlayout' (Option.some.inj hsplit).symm

/-! ## The documented grammar -/

theorem PredicateText.documented_iff {p : PredicateText} :
    p.Documented ↔ p.Legible ∧ p.Scoped := by
  constructor
  · intro hp
    refine ⟨⟨hp.indent, ?_, ?_, ?_, hp.key, hp.behind, hp.gap, hp.quote, hp.value, hp.trail⟩,
      hp.scope⟩
    · rcases hp.scope with hnone | ⟨-, m, -, hm⟩
      · exact .inl hnone
      · exact .inr ⟨m, hm⟩
    · intro c hc
      rcases hp.scope with hnone | ⟨-, m, hident, hm⟩
      · rw [hnone] at hc
        cases hc
      · rw [hm, List.head?_append_of_ne_nil _ (isIdent_ne_nil hident)] at hc
        exact isBlank_of_isIdentRest (isIdentRest_of_isIdent hident c (List.mem_of_mem_head? hc))
    · rcases hp.scope with hnone | ⟨-, m, hident, hm⟩
      · simp [hnone]
      · rw [hm, List.mem_append, not_or]
        exact ⟨notMem_of_ident hident (by decide), by decide⟩
  · rintro ⟨hp, hscope⟩
    exact ⟨hp.indent, hscope, hp.key, hp.behind, hp.gap, hp.quote, hp.value, hp.trail⟩

/-- Between its brackets a documented predicate is plain up to its value, and behind it. -/
theorem PredicateText.Documented.closes {p : PredicateText} (hp : p.Documented) {depth : Nat}
    {rest : List Char} (hrest : Closes depth rest) : Closes depth (p.chars ++ rest) := by
  have hblank : ∀ {text : List Char}, Blanks text → ∀ c ∈ text, IsPlain (depth + 1) c :=
    fun htext c hc => isPlain_of_isBlank (htext c hc) _
  have hkey : ∀ c ∈ p.key, IsPlain (depth + 1) c :=
    fun c hc => isPlain_of_isIdentRest (isIdentRest_of_key hp.key c hc) _
  have hscope : ∀ c ∈ p.scope, IsPlain (depth + 1) c := by
    intro c hc
    rcases hp.scope with hnone | ⟨-, m, hident, hm⟩
    · rw [hnone] at hc
      cases hc
    · rw [hm] at hc
      rcases List.mem_append.1 hc with hc | hc
      · exact isPlain_of_isIdentRest (isIdentRest_of_isIdent hident c hc) _
      · rw [List.mem_singleton.1 hc]
        exact ⟨by decide, by decide, by decide, fun _ => Nat.succ_ne_zero depth⟩
  rw [p.chars_append, left, right, List.append_assoc, List.append_assoc, List.append_assoc]
  refine .opened (.append_plain (hblank hp.indent) (.append_plain hscope (.append_plain hkey
    (.append_plain (hblank hp.behind) (.plain ?_ (.append_plain (hblank hp.gap) ?_))))))
  · exact ⟨by decide, by decide, by decide, fun h => absurd h (by decide)⟩
  · exact .quoted hp.quote hp.value (.append_plain (hblank hp.trail) (.closed hrest))

/-- A documented step ends where it seems to end, whatever its values contain. -/
theorem StepText.Documented.closes {s : StepText} (hs : s.Documented) : Closes 0 s.chars := by
  have hps : ∀ ps : List PredicateText, (∀ p ∈ ps, p.Documented) →
      Closes 0 (ps.flatMap PredicateText.chars) := by
    intro ps
    induction ps with
    | nil => exact fun _ => .nil
    | cons p ps ih =>
        intro hps
        obtain ⟨hp, hps⟩ := List.forall_mem_cons.1 hps
        exact hp.closes (ih hps)
  exact .append_plain hs.isPlain_head (hps s.predicates hs.predicates)

theorem StepText.documented_iff {s : StepText} :
    s.Documented ↔ s.Legible ∧ ∀ p ∈ s.predicates, p.Scoped := by
  constructor
  · intro hs
    exact ⟨⟨hs.toHeaded, fun p hp => (PredicateText.documented_iff.1 (hs.predicates p hp)).1,
      hs.closes⟩, fun p hp => (hs.predicates p hp).scope⟩
  · rintro ⟨hs, hscoped⟩
    exact ⟨hs.toHeaded, fun p hp =>
      PredicateText.documented_iff.2 ⟨hs.predicates p hp, hscoped p hp⟩⟩

/-- A filter is in the grammar when its own layout is documented. -/
theorem inGrammar_iff {layout : List StepText} {text : String} {f : Filter}
    (hlayout : ∀ s ∈ layout, s.Legible) (hreads : Reads layout text f) :
    InGrammar text f ↔ ∀ s ∈ layout, ∀ p ∈ s.predicates, p.Scoped := by
  constructor
  · rintro ⟨layout', hlayout', hreads'⟩
    have hsame : layout = layout' := by
      refine written_injective hlayout (fun s hs => ?_) ?_
      · exact (StepText.documented_iff.1 (hlayout' s hs)).1
      · rw [← hreads.spelled, ← hreads'.spelled]
    subst hsame
    exact fun s hs => (StepText.documented_iff.1 (hlayout' s hs)).2
  · intro hscoped
    exact ⟨layout, fun s hs => StepText.documented_iff.2 ⟨hlayout s hs, hscoped s hs⟩, hreads⟩

/-- **What the reader accepts, and what of it is in the grammar.**  The filters are the
texts with a legible layout, and they are in the grammar when nothing stands before the
keys but identifiers with their colons. -/
theorem reader_exceeds_grammar (text : String) (f : Filter) :
    parse text = .ok f ↔
      ∃ layout, (∀ s ∈ layout, StepText.Legible s) ∧ Reads layout text f ∧
        (InGrammar text f ↔ ∀ s ∈ layout, ∀ p ∈ s.predicates, p.Scoped) := by
  constructor
  · intro hread
    obtain ⟨layout, hlayout, hreads⟩ := parse_eq_ok_iff.1 hread
    exact ⟨layout, hlayout, hreads, inGrammar_iff hlayout hreads⟩
  · rintro ⟨layout, hlayout, hreads, -⟩
    exact parse_eq_ok_iff.2 ⟨layout, hlayout, hreads⟩

/-- A step with an expression in the place of a key. -/
def expressionStep : StepText :=
  ⟨some ['m'], "alarm".toList,
    [⟨[], "count(id)>1 or m:".toList, "id".toList, [], [], '\x27', ['a'], []⟩]⟩

theorem expressionStep_legible : expressionStep.Legible := by
  refine ⟨⟨by decide, by decide⟩, ?_, ?_⟩
  · intro p hp
    rw [List.mem_singleton.1 hp]
    exact ⟨by decide, .inr ⟨"count(id)>1 or m".toList, by decide⟩, by decide, by decide,
      .inr (by decide), by decide, by decide, by decide, by decide, by decide⟩
  · have hsplit : splitSteps none 0 expressionStep.chars = some [expressionStep.chars] := by decide
    exact (splitSteps_eq_some_iff.1 hsplit).2.2 _ (List.mem_singleton_self _)

/-- An expression is accepted for a key, and all but its last identifier is dropped. -/
theorem expression_is_read_as_key :
    parse "/m:alarm[count(id)>1 or m:id='a']" =
        .ok ⟨"/m:alarm[count(id)>1 or m:id='a']", [⟨some "m", "alarm", [⟨"id", "a"⟩]⟩]⟩ ∧
      ¬ InGrammar "/m:alarm[count(id)>1 or m:id='a']"
        ⟨"/m:alarm[count(id)>1 or m:id='a']", [⟨some "m", "alarm", [⟨"id", "a"⟩]⟩]⟩ := by
  have hlayout : ∀ s ∈ [expressionStep], s.Legible := by simpa using expressionStep_legible
  have hreads : Reads [expressionStep] "/m:alarm[count(id)>1 or m:id='a']"
      ⟨"/m:alarm[count(id)>1 or m:id='a']", [⟨some "m", "alarm", [⟨"id", "a"⟩]⟩]⟩ :=
    ⟨⟨expressionStep, rfl, rfl⟩, by decide, by decide⟩
  refine ⟨parse_eq_ok_iff.2 ⟨[expressionStep], hlayout, hreads⟩, fun hgrammar => ?_⟩
  have hscoped := (inGrammar_iff hlayout hreads).1 hgrammar expressionStep
    (List.mem_singleton_self _) _ (List.mem_singleton_self _)
  rcases hscoped with hnone | ⟨-, m, hident, hm⟩
  · cases hnone
  · have hparen : '(' ∈ m := by
      have hmem : '(' ∈ "count(id)>1 or m:".toList := by decide
      rw [show "count(id)>1 or m:".toList = m ++ [':'] from hm] at hmem
      simpa using hmem
    exact notMem_of_ident hident (by decide) hparen

/-- **What is written in the grammar is read back**: steps, keys and values as they were,
in their order, and the text with them. -/
theorem written_reads_back {layout : List StepText} (hlayout : ∀ s ∈ layout, s.Documented)
    (hprefixed : ∃ first ∈ layout.head?, first.module.isSome = true) :
    parse (String.ofList (written layout)) =
      .ok ⟨String.ofList (written layout), layout.map StepText.step⟩ :=
  parse_eq_ok_iff.2 ⟨layout, fun s hs => (StepText.documented_iff.1 (hlayout s hs)).1,
    ⟨hprefixed, String.toList_ofList, rfl⟩⟩

/-- Steps with every mark in a value, a blank beyond the ASCII ones, and a star. -/
def markedLayout : List StepText :=
  [⟨some ['m'], "alarm".toList,
      [⟨[' '], ['n', ':'], "id".toList, ['\u2003'], [' '], '\x27', "/[x]=\x22:é".toList, [' ']⟩,
        ⟨[], [], ['.'], [], [], '\x27', [], []⟩]⟩,
    ⟨none, ['*'], [⟨[], [], ['k'], [], [], '\x22', "it's".toList, []⟩]⟩]

theorem written_reads_back_marks :
    parse "/m:alarm[ n:id\u2003= '/[x]=\x22:é' ][.='']/*[k=\x22it's\x22]" =
      .ok ⟨"/m:alarm[ n:id\u2003= '/[x]=\x22:é' ][.='']/*[k=\x22it's\x22]",
        [⟨some "m", "alarm", [⟨"id", "/[x]=\x22:é"⟩, ⟨".", ""⟩]⟩,
          ⟨none, "*", [⟨"k", "it's"⟩]⟩]⟩ := by
  have hdocumented : ∀ s ∈ markedLayout, s.Documented := by
    refine List.forall_mem_cons.2 ⟨⟨⟨by decide, by decide⟩, ?_⟩,
      List.forall_mem_cons.2 ⟨⟨⟨by decide, by decide⟩, ?_⟩, by simp⟩⟩
    · refine List.forall_mem_cons.2 ⟨⟨by decide, .inr ⟨by decide, ['n'], by decide, by decide⟩,
        by decide, by decide, by decide, by decide, by decide, by decide⟩, ?_⟩
      exact List.forall_mem_cons.2 ⟨⟨by decide, .inl rfl, .inl rfl, by decide, by decide,
        by decide, by decide, by decide⟩, by simp⟩
    · exact List.forall_mem_cons.2 ⟨⟨by decide, .inl rfl, by decide, by decide, by decide,
        by decide, by decide, by decide⟩, by simp⟩
  have htext : String.ofList (written markedLayout) =
      "/m:alarm[ n:id\u2003= '/[x]=\x22:é' ][.='']/*[k=\x22it's\x22]" := by decide
  have hread := written_reads_back hdocumented ⟨_, rfl, rfl⟩
  rw [htext] at hread
  exact hread

end Filter

end Subscription
