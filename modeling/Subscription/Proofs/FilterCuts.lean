import Mathlib.Data.List.TakeWhile
import Subscription.Filter.Parser

/-!
# How the text of a filter is cut

Whoever reads a filter cuts its text in four ways.  For each of them this file says
what the pieces are, without saying how they are found:

* at the first occurrence of a mark (`splitAtFirst_eq_some_iff`);
* at the blanks around it (`exists_trimStart`, `exists_trim`);
* behind the last colon of a key (`exists_withoutModule`);
* into steps (`splitSteps_eq_some_iff`).  A step is a text whose quotes and brackets
  are all closed, with no slash outside of them (`Filter.Closes`).

In each case the pieces are the only ones of their kind (`trimStart_append`,
`trim_append`, `withoutModule_append`), so that the cut finds those again which a
text has been made of.
-/

namespace Subscription

/-! ## Blanks -/

/-- Nothing but blanks. -/
def Blanks (text : List Char) : Prop := ∀ c ∈ text, isBlank c = true

/-- A text that does not begin with a blank. -/
def Begins (text : List Char) : Prop := ∀ c ∈ text.head?, isBlank c = false

/-- A text that does not end with a blank. -/
def Ends (text : List Char) : Prop := ∀ c ∈ text.getLast?, isBlank c = false

instance (text : List Char) : Decidable (Blanks text) :=
  decidable_of_iff (text.all isBlank = true) List.all_eq_true

instance : (text : List Char) → Decidable (Begins text)
  | [] => .isTrue nofun
  | c :: _ => decidable_of_iff (isBlank c = false) (by simp [Begins])

section Blanks

variable {before core behind : List Char}

theorem Blanks.reverse (hblanks : Blanks before) : Blanks before.reverse :=
  fun c hc => hblanks c (List.mem_reverse.1 hc)

/-- Leading blanks are cut off. -/
theorem trimStart_append (hbefore : Blanks before) (hcore : Begins core) :
    trimStart (before ++ core) = core := by
  rw [trimStart, List.dropWhile_append_of_pos hbefore]
  cases core with
  | nil => rfl
  | cons c rest => rw [List.dropWhile_cons_of_neg (by simp [hcore c rfl])]

/-- What has been cut off are blanks. -/
theorem exists_trimStart (text : List Char) :
    ∃ before, Blanks before ∧ text = before ++ trimStart text ∧ Begins (trimStart text) := by
  refine ⟨text.takeWhile isBlank, fun c hc => List.mem_takeWhile_imp hc, ?_, ?_⟩
  · exact List.takeWhile_append_dropWhile.symm
  · intro c hc
    obtain ⟨rest, hrest⟩ := List.head?_eq_some_iff.1 hc
    exact trimStart_head hrest

/-- Blanks are cut off at both ends. -/
theorem trim_append (hbefore : Blanks before) (hbegins : Begins core) (hends : Ends core)
    (hbehind : Blanks behind) : trim (before ++ (core ++ behind)) = core := by
  cases core with
  | nil =>
      have hall : Blanks (before ++ behind) := by
        intro c hc
        rcases List.mem_append.1 hc with hc | hc
        · exact hbefore c hc
        · exact hbehind c hc
      have hnone : trimStart (before ++ behind ++ []) = [] :=
        trimStart_append hall fun c hc => by simp at hc
      rw [List.append_nil] at hnone
      rw [List.nil_append, trim, hnone]
      rfl
  | cons c rest =>
      have hstart : trimStart (before ++ (c :: rest ++ behind)) = c :: rest ++ behind :=
        trimStart_append hbefore fun d hd => hbegins d (by simpa using hd)
      have hback : Begins (c :: rest).reverse := fun d hd => hends d (by rwa [← List.head?_reverse])
      have hend : trimStart (behind.reverse ++ (c :: rest).reverse) = (c :: rest).reverse :=
        trimStart_append hbehind.reverse hback
      rw [trim, hstart, trimEnd, List.reverse_append]
      rw [trimStart] at hend
      rw [hend, List.reverse_reverse]

theorem exists_trim (text : List Char) :
    ∃ before behind, Blanks before ∧ Blanks behind ∧ text = before ++ (trim text ++ behind) ∧
      Begins (trim text) ∧ Ends (trim text) := by
  obtain ⟨before, hbefore, hsplit, hbegins⟩ := exists_trimStart text
  obtain ⟨behind, hbehind, hrest, hends⟩ := exists_trimStart (trimStart text).reverse
  have htrim : trim text = (trimStart (trimStart text).reverse).reverse := rfl
  have hcore : trimStart text = trim text ++ behind.reverse := by
    rw [htrim, ← List.reverse_append, ← hrest, List.reverse_reverse]
  refine ⟨before, behind.reverse, hbefore, hbehind.reverse, ?_, ?_, ?_⟩
  · rw [← hcore]
    exact hsplit
  · intro c hc
    refine hbegins c ?_
    rw [hcore]
    obtain ⟨rest, hrest⟩ := List.head?_eq_some_iff.1 hc
    simp [hrest]
  · intro c hc
    refine hends c ?_
    rw [htrim, List.getLast?_reverse] at hc
    exact hc

end Blanks

namespace Filter

/-! ## Marks -/

theorem splitAtFirst_append {mark : Char} {before : List Char} (hbefore : mark ∉ before)
    (behind : List Char) :
    splitAtFirst mark (before ++ mark :: behind) = some (before, behind) := by
  have hother : ∀ c ∈ before, decide (c ≠ mark) = true := by
    intro c hc
    simp only [decide_eq_true_eq]
    rintro rfl
    exact hbefore hc
  rw [splitAtFirst, List.dropWhile_append_of_pos hother, List.takeWhile_append_of_pos hother]
  simp

/-- **The first occurrence of a mark** has none in front of it. -/
theorem splitAtFirst_eq_some_iff {mark : Char} {text before behind : List Char} :
    splitAtFirst mark text = some (before, behind) ↔
      text = before ++ mark :: behind ∧ mark ∉ before := by
  constructor
  · intro hsplit
    unfold splitAtFirst at hsplit
    split at hsplit
    · rename_i c tail hdrop
      have hc : c = mark := by
        have hhead := List.head?_dropWhile_not (fun c => decide (c ≠ mark)) text
        rw [hdrop] at hhead
        simpa using hhead
      subst hc
      cases hsplit
      refine ⟨?_, ?_⟩
      · rw [← hdrop, List.takeWhile_append_dropWhile]
      · intro hmem
        simpa using List.mem_takeWhile_imp hmem
    · cases hsplit
  · rintro ⟨rfl, hbefore⟩
    exact splitAtFirst_append hbefore behind

theorem splitAtFirst_eq_none_iff {mark : Char} {text : List Char} :
    splitAtFirst mark text = none ↔ mark ∉ text := by
  constructor
  · intro hnone hmem
    obtain ⟨before, behind, rfl, hbefore⟩ := List.eq_append_cons_of_mem hmem
    rw [splitAtFirst_append hbefore] at hnone
    cases hnone
  · intro hmem
    cases hsplit : splitAtFirst mark text with
    | none => rfl
    | some pieces =>
        obtain ⟨rfl, -⟩ := splitAtFirst_eq_some_iff.1 hsplit
        simp at hmem

/-! ## Keys -/

/-- What may stand in front of a key: nothing, or a text that ends in a colon. -/
def IsScope (scope : List Char) : Prop := scope = [] ∨ ∃ front, scope = front ++ [':']

theorem withoutModule_append {scope key : List Char} (hscope : IsScope scope)
    (hkey : ':' ∉ key) : withoutModule (scope ++ key) = key := by
  have hother : ∀ c ∈ key.reverse, decide (c ≠ ':') = true := by
    intro c hc
    simp only [decide_eq_true_eq]
    rintro rfl
    exact hkey (List.mem_reverse.1 hc)
  have hstop : scope.reverse.takeWhile (fun c => decide (c ≠ ':')) = [] := by
    rcases hscope with rfl | ⟨front, rfl⟩
    · rfl
    · simp
  rw [withoutModule, List.reverse_append, List.takeWhile_append_of_pos hother, hstop,
    List.append_nil, List.reverse_reverse]

/-- **Behind the last colon** there is none. -/
theorem exists_withoutModule (text : List Char) :
    ∃ scope, text = scope ++ withoutModule text ∧ IsScope scope ∧ ':' ∉ withoutModule text := by
  refine ⟨(text.reverse.dropWhile (· ≠ ':')).reverse, ?_, ?_, ?_⟩
  · rw [withoutModule, ← List.reverse_append, List.takeWhile_append_dropWhile,
      List.reverse_reverse]
  · cases hdrop : text.reverse.dropWhile (· ≠ ':') with
    | nil => exact .inl rfl
    | cons c rest =>
        have hhead := List.head?_dropWhile_not (fun c => decide (c ≠ ':')) text.reverse
        rw [hdrop] at hhead
        have hc : c = ':' := by simpa using hhead
        exact .inr ⟨rest.reverse, by rw [hc, List.reverse_cons]⟩
  · intro hmem
    simpa using List.mem_takeWhile_imp (List.mem_reverse.1 hmem)

/-! ## Steps -/

/-- Whether a character opens or closes nothing, and ends no step at the given depth of
brackets. -/
def IsPlain (depth : Nat) (c : Char) : Prop :=
  XPath.isQuote c = false ∧ c ≠ '[' ∧ c ≠ ']' ∧ (c = '/' → depth ≠ 0)

/-- A text that closes so many brackets, and all of its own brackets and quotes.  A slash
stands in brackets or quotes only. -/
inductive Closes : Nat → List Char → Prop
  | nil : Closes 0 []
  | plain {depth : Nat} {c : Char} {rest : List Char} (hplain : IsPlain depth c)
      (hrest : Closes depth rest) : Closes depth (c :: rest)
  | quoted {depth : Nat} {q : Char} {value rest : List Char} (hquote : XPath.isQuote q = true)
      (hvalue : q ∉ value) (hrest : Closes depth rest) : Closes depth (q :: (value ++ q :: rest))
  | opened {depth : Nat} {rest : List Char} (hrest : Closes (depth + 1) rest) :
      Closes depth ('[' :: rest)
  | closed {depth : Nat} {rest : List Char} (hrest : Closes depth rest) :
      Closes (depth + 1) (']' :: rest)

theorem Closes.append_plain {depth : Nat} {text rest : List Char}
    (htext : ∀ c ∈ text, IsPlain depth c) (hrest : Closes depth rest) :
    Closes depth (text ++ rest) := by
  induction text with
  | nil => exact hrest
  | cons c text ih =>
      exact .plain (htext c List.mem_cons_self)
        (ih fun d hd => htext d (List.mem_cons_of_mem _ hd))

variable {depth : Nat} {q : Char} {text first tail : List Char} {rest steps : List (List Char)}

/-- Inside quotes a text goes on up to the closing quote. -/
theorem splitSteps_quoted {value : List Char} (hvalue : q ∉ value)
    (hsplit : splitSteps none depth tail = some (first :: rest)) :
    splitSteps (some q) depth (value ++ q :: tail) = some ((value ++ q :: first) :: rest) := by
  induction value with
  | nil => simp [splitSteps, hsplit, consFirst]
  | cons c value ih =>
      have hc : c ≠ q := by
        rintro rfl
        exact hvalue List.mem_cons_self
      have hrest := ih fun hmem => hvalue (List.mem_cons_of_mem _ hmem)
      rw [List.cons_append, splitSteps]
      simp only [if_neg hc, hrest, Option.map_some]
      rfl

/-- A text that closes all brackets comes in front of the first step. -/
theorem Closes.splitSteps_append (hfirst : Closes depth first)
    (htail : splitSteps none 0 tail = some ([] :: rest)) :
    splitSteps none depth (first ++ tail) = some (first :: rest) := by
  induction hfirst with
  | nil => exact htail
  | @plain depth c more hplain hrest ih =>
      obtain ⟨hquote, hopen, hclose, hslash⟩ := hplain
      rw [List.cons_append, splitSteps]
      simp only [hquote, if_neg hopen, if_neg hclose, ih, Option.map_some]
      rw [if_neg Bool.false_ne_true, if_neg fun h => hslash h.1 h.2]
      rfl
  | @quoted depth q value more hquote hvalue hrest ih =>
      have hinside := splitSteps_quoted hvalue ih
      rw [List.cons_append, splitSteps]
      simp only [hquote, if_true, List.append_assoc, List.cons_append, hinside, Option.map_some]
      rfl
  | @opened depth more hrest ih =>
      have hquote : XPath.isQuote '[' = false := by decide
      rw [List.cons_append, splitSteps]
      simp only [hquote, ih, Option.map_some]
      rfl
  | @closed depth more hrest ih =>
      have hquote : XPath.isQuote ']' = false := by decide
      rw [List.cons_append, splitSteps]
      simp only [hquote, Nat.add_sub_cancel, ih, Option.map_some]
      rfl

/-- What a text is cut into, when it starts inside or outside of quotes. -/
def CutInto (depth : Nat) (text first : List Char) (rest : List (List Char)) : Option Char → Prop
  | none => text = first ++ rest.flatMap ('/' :: ·) ∧ Closes depth first
  | some q => ∃ value more, first = value ++ q :: more ∧ q ∉ value ∧ Closes depth more ∧
      text = first ++ rest.flatMap ('/' :: ·)

theorem exists_cutInto {quote : Option Char} (hsplit : splitSteps quote depth text = some steps) :
    ∃ first rest, steps = first :: rest ∧ CutInto depth text first rest quote ∧
      ∀ s ∈ rest, Closes 0 s := by
  -- The first step of what comes after a character gets that character in front.
  have hcons : ∀ {quote : Option Char} {depth : Nat} {more : List Char} {c : Char}
      {steps : List (List Char)},
      (∀ {steps : List (List Char)}, splitSteps quote depth more = some steps →
        ∃ first rest, steps = first :: rest ∧ CutInto depth more first rest quote ∧
          ∀ s ∈ rest, Closes 0 s) →
      (splitSteps quote depth more).map (consFirst c) = some steps →
      ∃ first rest, steps = (c :: first) :: rest ∧ CutInto depth more first rest quote ∧
        ∀ s ∈ rest, Closes 0 s := by
    intro quote depth more c steps ih hmap
    obtain ⟨steps', hmore, rfl⟩ := Option.map_eq_some_iff.1 hmap
    obtain ⟨first, rest, rfl, hcut, hrest⟩ := ih hmore
    exact ⟨first, rest, rfl, hcut, hrest⟩
  fun_induction splitSteps quote depth text generalizing steps with
  | case1 quote depth hbalanced =>
      simp only [Bool.and_eq_true, Option.isNone_iff_eq_none, beq_iff_eq] at hbalanced
      obtain ⟨rfl, rfl⟩ := hbalanced
      cases hsplit
      exact ⟨[], [], rfl, ⟨rfl, .nil⟩, by simp⟩
  | case2 quote depth hunbalanced => cases hsplit
  | case3 depth c more q ih =>
      obtain ⟨first, rest, rfl, hcut, hrest⟩ := hcons ih hsplit
      refine ⟨c :: first, rest, rfl, ?_, hrest⟩
      by_cases hc : c = q
      · subst hc
        rw [if_pos rfl] at hcut
        obtain ⟨rfl, hfirst⟩ := hcut
        exact ⟨[], first, rfl, by simp, hfirst, rfl⟩
      · rw [if_neg hc] at hcut
        obtain ⟨value, more', rfl, hvalue, hmore, rfl⟩ := hcut
        refine ⟨c :: value, more', rfl, ?_, hmore, rfl⟩
        simp [hvalue, Ne.symm hc]
  | case4 depth c more hquote ih =>
      obtain ⟨first, rest, rfl, ⟨value, more', rfl, hvalue, hmore, rfl⟩, hrest⟩ := hcons ih hsplit
      exact ⟨_, rest, rfl, ⟨rfl, .quoted hquote hvalue hmore⟩, hrest⟩
  | case5 depth more hquote ih =>
      obtain ⟨first, rest, rfl, ⟨rfl, hfirst⟩, hrest⟩ := hcons ih hsplit
      exact ⟨_, rest, rfl, ⟨rfl, .opened hfirst⟩, hrest⟩
  | case6 more hquote hopen => cases hsplit
  | case7 depth more hdepth hquote hopen ih =>
      obtain ⟨first, rest, rfl, ⟨rfl, hfirst⟩, hrest⟩ := hcons ih hsplit
      obtain ⟨d, rfl⟩ := Nat.exists_eq_succ_of_ne_zero hdepth
      exact ⟨_, rest, rfl, ⟨rfl, .closed hfirst⟩, hrest⟩
  | case8 depth c more hquote hopen hclose hslash ih =>
      obtain ⟨rfl, rfl⟩ := hslash
      obtain ⟨steps', hmore, rfl⟩ := Option.map_eq_some_iff.1 hsplit
      obtain ⟨first, rest, rfl, ⟨rfl, hfirst⟩, hrest⟩ := ih hmore
      refine ⟨[], first :: rest, rfl, ⟨rfl, .nil⟩, ?_⟩
      intro s hs
      rcases List.mem_cons.1 hs with rfl | hs
      · exact hfirst
      · exact hrest s hs
  | case9 depth c more hquote hopen hclose hslash ih =>
      obtain ⟨first, rest, rfl, ⟨rfl, hfirst⟩, hrest⟩ := hcons ih hsplit
      refine ⟨_, rest, rfl, ⟨rfl, .plain ⟨?_, hopen, hclose, ?_⟩ hfirst⟩, hrest⟩
      · simpa using hquote
      · intro hc hdepth
        exact hslash ⟨hc, hdepth⟩

/-- **The steps of a text** are the texts between the slashes that stand outside of
quotes and brackets, and everything is closed in each of them. -/
theorem splitSteps_eq_some_iff :
    splitSteps none 0 text = some steps ↔
      steps ≠ [] ∧ '/' :: text = steps.flatMap ('/' :: ·) ∧ ∀ s ∈ steps, Closes 0 s := by
  constructor
  · intro hsplit
    obtain ⟨first, rest, rfl, ⟨rfl, hfirst⟩, hrest⟩ := exists_cutInto hsplit
    refine ⟨by simp, by simp, ?_⟩
    intro s hs
    rcases List.mem_cons.1 hs with rfl | hs
    · exact hfirst
    · exact hrest s hs
  · rintro ⟨hne, htext, hsteps⟩
    have hall : ∀ (first : List Char) (rest : List (List Char)), Closes 0 first →
        (∀ s ∈ rest, Closes 0 s) →
        splitSteps none 0 (first ++ rest.flatMap ('/' :: ·)) = some (first :: rest) := by
      intro first rest
      induction rest generalizing first with
      | nil =>
          intro hfirst _
          exact hfirst.splitSteps_append rfl
      | cons second rest ih =>
          intro hfirst hrest
          have hmore := ih second (hrest second List.mem_cons_self)
            fun s hs => hrest s (List.mem_cons_of_mem _ hs)
          have hslash : XPath.isQuote '/' = false := by decide
          refine hfirst.splitSteps_append ?_
          rw [List.flatMap_cons, List.cons_append, splitSteps]
          simp [hslash, hmore]
    obtain ⟨first, rest, rfl⟩ := List.exists_cons_of_ne_nil hne
    rw [List.flatMap_cons, List.cons_append, List.cons.injEq] at htext
    rw [htext.2]
    exact hall first rest (hsteps first List.mem_cons_self)
      fun s hs => hsteps s (List.mem_cons_of_mem _ hs)

end Filter

end Subscription
