import Subscription.Error.Basic
import Subscription.Filter.Basic
import Subscription.Text.Blank
import Subscription.XPath

/-!
# Reading filters

A filter's text is first cut into steps at the slashes outside quotes and
brackets (`splitSteps`); each step is then an optional module, a name and
any number of predicates `[key = 'value']` (`parseStep`).  White space may
stand around the key, before the value and behind it.  Anything else is
refused, and so is a filter whose first step names no module.

Reading predicates ends because each one uses up text
(`parsePredicate_shorter`).
-/

namespace Subscription

namespace Filter

/-- Whether a character may start an identifier. -/
def isIdentStart (c : Char) : Bool := c.isAlpha || c == '_'

/-- Whether a character may go on in an identifier. -/
def isIdentRest (c : Char) : Bool := c.isAlphanum || c == '_' || c == '-' || c == '.'

/-- Whether a text is an identifier. -/
def isIdent : List Char → Bool
  | [] => false
  | c :: rest => isIdentStart c && rest.all isIdentRest

/-- Puts a character in front of the first step. -/
def consFirst (c : Char) : List (List Char) → List (List Char)
  | [] => [[c]]
  | first :: rest => (c :: first) :: rest

/-- Cuts a text into steps at the slashes outside quotes and brackets, given
the open quote and the depth of brackets; nothing when they do not balance. -/
def splitSteps (quote : Option Char) (depth : Nat) : List Char → Option (List (List Char))
  | [] => if quote.isNone && depth == 0 then some [[]] else none
  | c :: rest =>
      match quote with
      | some q => (splitSteps (if c = q then none else some q) depth rest).map (consFirst c)
      | none =>
          if XPath.isQuote c then (splitSteps (some c) depth rest).map (consFirst c)
          else if c = '[' then (splitSteps none (depth + 1) rest).map (consFirst c)
          else if c = ']' then
            if depth = 0 then none else (splitSteps none (depth - 1) rest).map (consFirst c)
          else if c = '/' ∧ depth = 0 then (splitSteps none 0 rest).map ([] :: ·)
          else (splitSteps none depth rest).map (consFirst c)

/-- The part of a key behind its last colon. -/
def withoutModule (key : List Char) : List Char :=
  (key.reverse.takeWhile (· ≠ ':')).reverse

/-- The text before and behind the first occurrence of a character. -/
def splitAtFirst (mark : Char) (text : List Char) : Option (List Char × List Char) :=
  match text.dropWhile (· ≠ mark) with
  | _ :: behind => some (text.takeWhile (· ≠ mark), behind)
  | [] => none

/-- A quoted literal and the text behind it. -/
def parseLiteral : List Char → Option (List Char × List Char)
  | q :: rest => if XPath.isQuote q then splitAtFirst q rest else none
  | [] => none

/-- A predicate without its opening bracket, and the text behind its closing
bracket. -/
def parsePredicate (body : List Char) : Option (Predicate × List Char) := do
  let (keyText, behindKey) ← splitAtFirst '=' body
  let key := withoutModule (trim keyText)
  if key ≠ ['.'] && !isIdent key then none
  else
    let (value, behindValue) ← parseLiteral (trimStart behindKey)
    match trimStart behindValue with
    | ']' :: rest => some (⟨String.ofList key, String.ofList value⟩, rest)
    | _ => none

theorem splitAtFirst_shorter {mark : Char} {text before behind : List Char}
    (h : splitAtFirst mark text = some (before, behind)) : behind.length < text.length := by
  unfold splitAtFirst at h
  split at h
  next c tail eq =>
      have le : (text.dropWhile (· ≠ mark)).length ≤ text.length :=
        (List.dropWhile_suffix _).length_le
      rw [eq] at le
      simp only [Option.some.injEq, Prod.mk.injEq] at h
      obtain ⟨-, rfl⟩ := h
      simp only [List.length_cons] at le
      omega
  next => simp at h

theorem trimStart_length_le (text : List Char) : (trimStart text).length ≤ text.length :=
  (List.dropWhile_suffix _).length_le

/-- Reading a predicate uses up text. -/
theorem parsePredicate_shorter {body rest : List Char} {p : Predicate}
    (h : parsePredicate body = some (p, rest)) : rest.length < body.length := by
  simp only [parsePredicate, Option.bind_eq_bind, Option.bind_eq_some_iff] at h
  obtain ⟨⟨keyText, behindKey⟩, hkey, h⟩ := h
  have key := splitAtFirst_shorter hkey
  simp only at h
  split at h
  next => simp at h
  next =>
    simp only [Option.bind_eq_some_iff] at h
    obtain ⟨⟨value, behindValue⟩, hvalue, h⟩ := h
    have literal : behindValue.length < (trimStart behindKey).length := by
      revert hvalue
      cases trimStart behindKey with
      | nil => simp [parseLiteral]
      | cons q tail =>
          intro hvalue
          simp only [parseLiteral] at hvalue
          split at hvalue
          next =>
            have := splitAtFirst_shorter hvalue
            simp only [List.length_cons]
            omega
          next => simp at hvalue
    have before := trimStart_length_le behindKey
    have behind := trimStart_length_le behindValue
    simp only at h
    split at h
    next tail eq =>
      rw [eq] at behind
      simp only [Option.some.injEq, Prod.mk.injEq] at h
      obtain ⟨-, rfl⟩ := h
      simp only [List.length_cons] at behind
      omega
    next => simp at h

/-- Any number of predicates, up to the end of the text. -/
def parsePredicates : List Char → Option (List Predicate)
  | [] => some []
  | c :: body =>
      if c = '[' then
        match _ : parsePredicate body with
        | some (p, rest) => (parsePredicates rest).map (p :: ·)
        | none => none
      else none
termination_by text => text.length
decreasing_by
  have := parsePredicate_shorter ‹parsePredicate _ = _›
  simp only [List.length_cons]
  omega

/-- The module and the name before the predicates of a step. -/
def parseNodeTest (head : List Char) : Option (Option String × String) :=
  let (module, name) :=
    match splitAtFirst ':' head with
    | some (module, name) => (some module, name)
    | none => (none, head)
  if module.all isIdent && (name == ['*'] || isIdent name) then
    some (module.map String.ofList, String.ofList name)
  else none

/-- One step of a filter. -/
def parseStep (text : List Char) : Option Step := do
  let (module, name) ← parseNodeTest (text.takeWhile (· ≠ '['))
  let predicates ← parsePredicates (text.dropWhile (· ≠ '['))
  some ⟨module, name, predicates⟩

/-- The steps of a filter's text. -/
def parseSteps (text : List Char) : Option (List Step) :=
  match text with
  | '/' :: rest => (splitSteps none 0 rest).bind fun steps => steps.mapM parseStep
  | _ => none

/-- Reads a filter.  Its first step has to name a module. -/
def parse (xpath : String) : Except Error Filter :=
  match parseSteps xpath.toList with
  | some (first :: rest) =>
      if first.module.isSome then .ok ⟨xpath, first :: rest⟩
      else .error (.invalid (.badFilter xpath))
  | _ => .error (.invalid (.badFilter xpath))

end Filter

end Subscription
