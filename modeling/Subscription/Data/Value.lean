import Subscription.Data.Node
import Subscription.Error.Basic
import Subscription.Number.Decimal

/-!
# Values of nodes

Callbacks that take values get one for each node: its path, whether it is a
default, and its data.  A leaf's text becomes a value of the leaf's type
(`leafData`); it is refused when it is missing or is not of that type.  Nodes
of other kinds have no value of their own, only a kind.  `ValueData.text?`
writes a leaf's value back as text.
-/

namespace Subscription

/-- The data of a node. -/
inductive ValueData where
  | binary (text : String)
  | bits (text : String)
  | boolean (b : Bool)
  | decimal64 (x : Binary64)
  | empty
  | enumeration (text : String)
  | identityRef (text : String)
  | instanceId (text : String)
  | integer (type : IntegerType) (v : Int)
  | string (text : String)
  | container
  | presenceContainer
  | list
  | notification
  | anyXml
  | anyData
  deriving DecidableEq, Repr, Inhabited

/-- A node as it is handed to a callback that takes values. -/
structure Value where
  xpath : String
  isDefault : Bool
  data : ValueData
  deriving DecidableEq, Repr, Inhabited

/-- A leaf's value as text, nothing for data without a value. -/
def ValueData.text? : ValueData → Option String
  | binary text | bits text | enumeration text | identityRef text | instanceId text
  | string text => some text
  | boolean b => some (if b then "true" else "false")
  | decimal64 x => some x.text
  | integer _ v => some (toString v)
  | _ => none

/-- The data of a leaf whose text is present. -/
def typedData (type : LeafType) (text : String) : Except Error ValueData :=
  match type with
  | .binary => .ok (.binary text)
  | .bits => .ok (.bits text)
  | .boolean =>
      if text = "true" then .ok (.boolean true)
      else if text = "false" then .ok (.boolean false)
      else .error (.invalid (.boolean text))
  | .decimal64 =>
      match Binary64.parse text with
      | some x => .ok (.decimal64 x)
      | none => .error (.invalid (.number text "decimal64"))
  | .empty => .ok .empty
  | .enumeration => .ok (.enumeration text)
  | .identityRef => .ok (.identityRef text)
  | .instanceId => .ok (.instanceId text)
  | .integer t =>
      match t.parse text with
      | some v => .ok (.integer t v)
      | none => .error (.invalid (.number text t.name))
  | .string => .ok (.string text)

/-- The data of a leaf; only an empty leaf needs no text. -/
def leafData (type : LeafType) (text : Option String) (xpath : String) : Except Error ValueData :=
  match type, text with
  | .empty, _ => .ok .empty
  | type, some text => typedData type text
  | _, none => .error (.invalid (.noValue xpath))

/-- The data of a node. -/
def Node.data (node : Node) (xpath : String) : Except Error ValueData :=
  match node.kind with
  | .leaf type | .leafList type => leafData type node.value xpath
  | .container true => .ok .presenceContainer
  | .container false => .ok .container
  | .list => .ok .list
  | .notification => .ok .notification
  | .anyXml => .ok .anyXml
  | .anyData => .ok .anyData

/-- The value of a node at a path. -/
def Value.ofNode (node : Node) (xpath : String) : Except Error Value :=
  (node.data xpath).map fun data => ⟨xpath, node.isDefault, data⟩

end Subscription
