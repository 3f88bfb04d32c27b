import Subscription.Proofs.FilterGrammar
import Subscription.Proofs.XPathNodes

/-!
# Filters as xpaths

The text of a filter is an xpath as well, and is looked at by two scanners: the one that
cuts filters into steps follows quotes and brackets, the one that looks for the first node
of an xpath follows quotes only.

* `first_node_is_first_step_iff` — the first node is what stands in front of the first slash
  outside of quotes, and so a part of the first step.  It is the whole step exactly when no
  predicate in it has such a slash; `node_ends_in_predicate` is a step that the first node
  cuts in two.
* `accepted_filter_is_xpath` — every filter is taken as an xpath nevertheless, and the module
  that the xpath is said to begin with is that of the filter's first step.  A filter even
  follows the rule that is documented for xpaths.
-/

namespace Subscription

namespace Filter

open XPath (AtSlash Closed IsNode Starts WellFormed firstNode firstNodeBytes firstModule)

/-- A text that closes its brackets closes its quotes, too. -/
theorem Closes.quotes {depth : Nat} {text : List Char} (hcloses : Closes depth text) :
    Closed text := by
  induction hcloses with
  | nil => exact .nil
  | plain hplain _ ih => exact .plain hplain.1 trivial ih
  | quoted hquote hvalue _ ih => exact .quoted hquote hvalue ih
  | opened _ ih => exact .plain (by decide) trivial ih
  | closed _ ih => exact .plain (by decide) trivial ih

/-- Steps that are written one after the other are closed when each of them is. -/
theorem closed_flatMap {steps : List (List Char)} (hsteps : ∀ s ∈ steps, Closes 0 s) :
    Closed (steps.flatMap ('/' :: ·)) := by
  induction steps with
  | nil => exact .nil
  | cons s rest ih =>
      have hrest := ih fun t ht => hsteps t (List.mem_cons_of_mem _ ht)
      have hslash : XPath.isQuote '/' = false := by decide
      exact .plain hslash trivial ((hsteps s List.mem_cons_self).quotes.append hrest)

/-- Behind a step there is another one, or nothing. -/
theorem atSlash_flatMap {cut : List Char} (hcut : AtSlash cut) (steps : List (List Char)) :
    AtSlash (cut ++ steps.flatMap ('/' :: ·)) := by
  cases cut with
  | cons c more => exact fun d hd => hcut d hd
  | nil =>
      cases steps with
      | nil => exact XPath.atSlash_nil
      | cons s rest => simp [AtSlash]

/-- **The first node and the first step.**  Of a text that can be cut into steps, the first
node is the part of the first step in front of its first slash outside of quotes.  This is
found by bytes and by characters alike, and it is the whole step exactly when there is no
such slash in it. -/
theorem first_node_is_first_step_iff {text : List Char} {steps : List (List Char)}
    (hsplit : splitSteps none 0 text = some steps) :
    ∃ first rest node cut, steps = first :: rest ∧
      first = node ++ cut ∧ IsNode node ∧ AtSlash cut ∧
      firstNode (String.ofList ('/' :: text)) = some (String.ofList ('/' :: node)) ∧
      firstNodeBytes (Utf8.bytes (String.ofList ('/' :: text))) =
        some (Utf8.bytes (String.ofList ('/' :: node))) ∧
      (firstNode (String.ofList ('/' :: text)) = some (String.ofList ('/' :: first)) ↔
        IsNode first) := by
  obtain ⟨hne, htext, hsteps⟩ := splitSteps_eq_some_iff.1 hsplit
  obtain ⟨first, rest, rfl⟩ := List.exists_cons_of_ne_nil hne
  have hclosed : Closed first := (hsteps first List.mem_cons_self).quotes
  obtain ⟨node, cut, hcut, hnode, hstops, -⟩ := hclosed.exists_node
  rw [List.flatMap_cons] at htext
  have hstarts : Starts (String.ofList ('/' :: text)) node
      (cut ++ rest.flatMap ('/' :: ·)) := by
    refine ⟨?_, hnode, atSlash_flatMap hstops rest⟩
    rw [String.toList_ofList, htext, hcut]
    simp
  have hfound : firstNode (String.ofList ('/' :: text)) = some (String.ofList ('/' :: node)) :=
    XPath.firstNode_eq_some_iff.2 ⟨node, _, hstarts, rfl⟩
  refine ⟨first, rest, node, cut, rfl, hcut, hnode, hstops, hfound, ?_, ?_⟩
  · rw [XPath.firstNodeBytes_bytes, hfound, Option.map_some]
  · constructor
    · intro hwhole
      have hsame := String.ofList_inj.1 (Option.some.inj (hfound.symm.trans hwhole))
      rw [← (List.cons.inj hsame).2]
      exact hnode
    · intro hwhole
      have hstarts' : Starts (String.ofList ('/' :: text)) first (rest.flatMap ('/' :: ·)) := by
        refine ⟨?_, hwhole, atSlash_flatMap XPath.atSlash_nil rest⟩
        rw [String.toList_ofList, htext]
        rfl
      exact XPath.firstNode_eq_some_iff.2 ⟨first, _, hstarts', rfl⟩

/-- Quoted slashes and brackets are part of both, a slash in brackets is part of the step
only. -/
theorem first_node_is_first_step_iff_nested :
    splitSteps none 0 "m:a[k='/]é'][b/c:id='v']/d".toList =
        some ["m:a[k='/]é'][b/c:id='v']".toList, "d".toList] ∧
      ∃ node, firstNode "/m:a[k='/]é'][b/c:id='v']/d" = some (String.ofList ('/' :: node)) ∧
        (firstNode "/m:a[k='/]é'][b/c:id='v']/d" = some "/m:a[k='/]é'][b/c:id='v']" ↔
          IsNode "m:a[k='/]é'][b/c:id='v']".toList) := by
  have hsplit : splitSteps none 0 "m:a[k='/]é'][b/c:id='v']/d".toList =
      some ["m:a[k='/]é'][b/c:id='v']".toList, "d".toList] := by decide
  obtain ⟨first, rest, node, cut, heq, -, -, -, hfound, -, hiff⟩ :=
    first_node_is_first_step_iff hsplit
  cases heq
  exact ⟨hsplit, node, hfound, hiff⟩

/-- A predicate with a slash in it is cut in two by the end of the first node. -/
theorem node_ends_in_predicate :
    splitSteps none 0 "m:a[b/c:id='v']/d".toList =
        some ["m:a[b/c:id='v']".toList, "d".toList] ∧
      firstNode "/m:a[b/c:id='v']/d" = some "/m:a[b" ∧
      ¬ ∀ (text : List Char) (steps : List (List Char)), splitSteps none 0 text = some steps →
        ∀ first ∈ steps.head?,
          firstNode (String.ofList ('/' :: text)) = some (String.ofList ('/' :: first)) := by
  have hsplit : splitSteps none 0 "m:a[b/c:id='v']/d".toList =
      some ["m:a[b/c:id='v']".toList, "d".toList] := by decide
  refine ⟨hsplit, by decide, ?_⟩
  intro hagree
  have hsame := hagree _ _ hsplit _ rfl
  exact absurd hsame (by decide)

/-- An identifier with a colon behind it is the module that an xpath begins with. -/
theorem firstModule_of_ident {xpath : String} {module rest : List Char}
    (hident : isIdent module = true) (htext : xpath.toList = '/' :: (module ++ ':' :: rest)) :
    firstModule xpath = some (String.ofList module) := by
  have hmodule : ∀ c ∈ module, XPath.isModuleChar c = true := isIdentRest_of_isIdent hident
  have hcolon : XPath.isModuleChar ':' = false := by decide
  have htake : (module ++ ':' :: rest).takeWhile XPath.isModuleChar = module := by
    rw [List.takeWhile_append_of_pos hmodule, List.takeWhile_cons_of_neg (by simp [hcolon]),
      List.append_nil]
  have hdrop : (module ++ ':' :: rest).dropWhile XPath.isModuleChar = ':' :: rest := by
    rw [List.dropWhile_append_of_pos hmodule, List.dropWhile_cons_of_neg (by simp [hcolon])]
  have hne : module.isEmpty = false := by
    simpa using isIdent_ne_nil hident
  rw [firstModule, htext]
  simp only [htake, hdrop, hne]
  rfl

/-- **Every filter is an xpath**: it is taken as one, follows the rule that is documented
for them, and begins with the module of its first step. -/
theorem accepted_filter_is_xpath {text : String} {f : Filter} (hread : parse text = .ok f) :
    checkXPath text = .ok () ∧ WellFormed text ∧
      ∃ first rest m, f.steps = first :: rest ∧ first.module = some m ∧
        firstModule text = some m := by
  obtain ⟨layout, hlayout, ⟨s, hfirst, hmodule⟩, htext, rfl⟩ := parse_eq_ok_iff.1 hread
  obtain ⟨rest, rfl⟩ := List.head?_eq_some_iff.1 hfirst
  obtain ⟨m, hm⟩ := Option.isSome_iff_exists.1 hmodule
  have hident : isIdent m = true := (hlayout s List.mem_cons_self).module m hm
  have hchars : s.chars = m ++ ':' :: (s.name ++ s.predicates.flatMap PredicateText.chars) := by
    rw [StepText.chars, StepText.head, hm]
    simp
  have hwritten : text.toList = '/' :: (s.chars ++ written rest) := htext
  have hclosed : Closed (s.chars ++ written rest) := by
    rw [written_eq_flatMap]
    refine (hlayout s List.mem_cons_self).closes.quotes.append (closed_flatMap ?_)
    intro chars hchars
    obtain ⟨t, ht, rfl⟩ := List.mem_map.1 hchars
    exact (hlayout t (List.mem_cons_of_mem _ ht)).closes
  have hwellFormed : WellFormed text := by
    obtain ⟨c, more, rfl⟩ := List.exists_cons_of_ne_nil (isIdent_ne_nil hident)
    refine ⟨c, more ++ ':' :: (s.name ++ s.predicates.flatMap PredicateText.chars) ++
      written rest, ?_, ?_, ?_⟩
    · rw [hwritten, hchars]
      rfl
    · intro heq
      subst heq
      exact absurd (isIdentRest_of_isIdent hident '/' List.mem_cons_self) (by decide)
    · rw [hchars] at hclosed
      exact hclosed
  refine ⟨?_, hwellFormed, s.step, rest.map StepText.step, String.ofList m, rfl, ?_, ?_⟩
  · obtain ⟨node, behind, hstarts, hne, -⟩ := XPath.wellFormed_iff.1 hwellFormed
    exact XPath.checkXPath_eq_ok_iff.2 (XPath.isValid_iff.2 ⟨node, behind, hstarts, hne⟩)
  · rw [StepText.step, hm]
    rfl
  · have hspelled : text.toList = '/' :: (m ++ ':' ::
        (s.name ++ s.predicates.flatMap PredicateText.chars ++ written rest)) := by
      rw [hwritten, hchars]
      simp
    exact firstModule_of_ident hident hspelled

/-- A step whose first node ends inside of its predicate. -/
def slashedStep : StepText :=
  ⟨some ['m'], ['a'], [⟨[' '], "b/c:".toList, "id".toList, [], [' '], '\x22', "/]é".toList, []⟩]⟩

theorem accepted_filter_is_xpath_slashed :
    parse "/m:a[ b/c:id= \x22/]é\x22]" =
        .ok ⟨"/m:a[ b/c:id= \x22/]é\x22]", [⟨some "m", "a", [⟨"id", "/]é"⟩]⟩]⟩ ∧
      checkXPath "/m:a[ b/c:id= \x22/]é\x22]" = .ok () ∧
      firstModule "/m:a[ b/c:id= \x22/]é\x22]" = some "m" := by
  have hsplit : splitSteps none 0 slashedStep.chars = some [slashedStep.chars] := by decide
  have hlegible : slashedStep.Legible := by
    refine ⟨⟨by decide, by decide⟩, ?_, ?_⟩
    · intro p hp
      rw [List.mem_singleton.1 hp]
      exact ⟨by decide, .inr ⟨"b/c".toList, by decide⟩, by decide, by decide,
        .inr (by decide), by decide, by decide, by decide, by decide, by decide⟩
    · exact (splitSteps_eq_some_iff.1 hsplit).2.2 _ (List.mem_singleton_self _)
  have hread : parse "/m:a[ b/c:id= \x22/]é\x22]" =
      .ok ⟨"/m:a[ b/c:id= \x22/]é\x22]", [⟨some "m", "a", [⟨"id", "/]é"⟩]⟩]⟩ :=
    parse_eq_ok_iff.2 ⟨[slashedStep], by simpa using hlegible,
      ⟨⟨slashedStep, rfl, rfl⟩, by decide, by decide⟩⟩
  obtain ⟨hvalid, -, first, rest, m, hsteps, hmodule, hfirst⟩ := accepted_filter_is_xpath hread
  cases hsteps
  cases hmodule
  exact ⟨hread, hvalid, hfirst⟩

end Filter

end Subscription
