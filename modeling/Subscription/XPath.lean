/-!
# Reading xpaths

Three questions are asked about an xpath without parsing all of it:

* `XPath.firstModule` — the module before the colon of its first node;
* `XPath.firstNode` — its first node with the predicates, where a slash
  inside quotes does not end the node;
* `XPath.isValid` — whether there is such a node and it is not empty.
-/

namespace Subscription

namespace XPath

/-- Whether a character may stand in the module name before a colon. -/
def isModuleChar (c : Char) : Bool :=
  c.isAlphanum || c == '_' || c == '-' || c == '.'

/-- The module that the first node is prefixed with. -/
def firstModule (xpath : String) : Option String :=
  match xpath.toList with
  | '/' :: rest =>
      let module := rest.takeWhile isModuleChar
      match rest.dropWhile isModuleChar with
      | ':' :: _ => if module.isEmpty then none else some (String.ofList module)
      | _ => none
  | _ => none

/-- Whether a character opens or closes a quoted text. -/
def isQuote (c : Char) : Bool :=
  c == '\x27' || c == '\x22'

/-- The part of a text before the first slash outside quotes, nothing when
a quote before it stays open. -/
def nodeText (quote : Option Char) : List Char → Option (List Char)
  | [] => if quote.isNone then some [] else none
  | c :: rest =>
      match quote with
      | some q => (nodeText (if c = q then none else some q) rest).map (c :: ·)
      | none =>
          if isQuote c then (nodeText (some c) rest).map (c :: ·)
          else if c = '/' then some []
          else (nodeText none rest).map (c :: ·)

/-- The first node of an xpath with its predicates and the slash before it,
nothing when it does not start with a slash or leaves a quote open. -/
def firstNode (xpath : String) : Option String :=
  match xpath.toList with
  | '/' :: rest => (nodeText none rest).map fun node => String.ofList ('/' :: node)
  | _ => none

/-- Whether an xpath has a first node that is not empty. -/
def isValid (xpath : String) : Bool :=
  match xpath.toList with
  | '/' :: rest =>
      match nodeText none rest with
      | some node => !node.isEmpty
      | none => false
  | _ => false

end XPath

end Subscription
