import Subscription.Number.Integer

/-!
# Data trees

A payload is a tree of nodes of a schema: containers, lists with keys,
leaves with the text of their value.  Every node has a canonical path.
A step of the path names the module only where it differs from the parent's
module, and tells list entries apart by their keys.

* `Node.path` — the path of a node taken as a root;
* `Node.descendants` — every node below a root in document order, each with
  its path; the traversal keeps the nodes still to be visited on a stack
  (`Node.walk`), and ends because every node that is visited takes one off
  the number of nodes to come (`Node.sizeAll`).
-/

namespace Subscription

/-- The types of leaf values. -/
inductive LeafType where
  | binary
  | bits
  | boolean
  | decimal64
  | empty
  | enumeration
  | identityRef
  | instanceId
  | integer (type : IntegerType)
  | string
  deriving DecidableEq, Repr, Inhabited

/-- What a node is in the schema.  A presence container means something by
being there, another container only holds its children. -/
inductive NodeKind where
  | container (presence : Bool)
  | list
  | leaf (type : LeafType)
  | leafList (type : LeafType)
  | notification
  | anyXml
  | anyData
  deriving DecidableEq, Repr, Inhabited

/-- A node of a data tree. -/
structure Node where
  module : String
  name : String
  kind : NodeKind
  /-- The canonical text of a leaf's value. -/
  value : Option String
  /-- Whether the value is the schema's default. -/
  isDefault : Bool
  /-- The keys of a list entry in schema order, each with its value. -/
  keys : List (String × String)
  children : List Node
  deriving BEq, Repr, Inhabited

namespace Node

/-- A node without value, keys and children. -/
def bare (module name : String) (kind : NodeKind) : Node :=
  ⟨module, name, kind, none, false, [], []⟩

/-- A notification without content. -/
def notification (module name : String) : Node := bare module name .notification

/-- A container without presence and content. -/
def container (module name : String) : Node := bare module name (.container false)

/-- A list entry with the given keys. -/
def list (module name : String) (keys : List (String × String)) : Node :=
  { bare module name .list with keys }

/-- A leaf; an empty leaf has no value whatever is given. -/
def leaf (module name : String) (type : LeafType) (value : String) : Node :=
  { bare module name (.leaf type) with value := if type = .empty then none else some value }

/-- The node with one more child at the end. -/
def withChild (node child : Node) : Node :=
  { node with children := node.children ++ [child] }

/-- The key predicates of a list entry. -/
def keyText (keys : List (String × String)) : String :=
  String.join (keys.map fun key => "[" ++ key.1 ++ "='" ++ key.2 ++ "']")

/-- What tells a node apart from its namesakes below the same parent. -/
def predicateText (node : Node) : String :=
  match node.kind with
  | .list => keyText node.keys
  | .leafList _ =>
      match node.value with
      | some value => "[.='" ++ value ++ "']"
      | none => ""
  | _ => ""

/-- One step of a path; the module is written where it differs from the
parent's. -/
def step (node : Node) (parentModule : Option String) : String :=
  let name :=
    if parentModule = some node.module then node.name else node.module ++ ":" ++ node.name
  name ++ node.predicateText

/-- The path of a node taken as a root. -/
def path (node : Node) : String :=
  "/" ++ node.step none

/-- The children of a node at a path, each with its own path. -/
def childrenAt (path : String) (node : Node) : List (String × Node) :=
  node.children.map fun child => (path ++ "/" ++ child.step (some node.module), child)

mutual

/-- The number of nodes in a tree. -/
def size : Node → Nat
  | ⟨_, _, _, _, _, _, children⟩ => 1 + sizeAll children

/-- The number of nodes in some trees. -/
def sizeAll : List Node → Nat
  | [] => 0
  | node :: rest => node.size + sizeAll rest

end

theorem size_eq (node : Node) : node.size = 1 + sizeAll node.children := by
  cases node
  rw [size]

theorem sizeAll_append (front back : List Node) :
    sizeAll (front ++ back) = sizeAll front + sizeAll back := by
  induction front with
  | nil => exact (Nat.zero_add _).symm
  | cons node rest ih => rw [List.cons_append, sizeAll, sizeAll, ih, Nat.add_assoc]

/-- The nodes at the paths of the children are the children. -/
theorem map_snd_childrenAt (path : String) (node : Node) :
    (childrenAt path node).map Prod.snd = node.children := by
  rw [childrenAt, List.map_map]
  exact List.map_id _

/-- Visits the nodes on a stack and everything below them, each node before
its children and these from left to right. -/
def walk : List (String × Node) → List (String × Node)
  | [] => []
  | (path, node) :: stack => (path, node) :: walk (childrenAt path node ++ stack)
termination_by stack => sizeAll (stack.map Prod.snd)
decreasing_by
  rw [List.map_append, map_snd_childrenAt, sizeAll_append, List.map_cons, sizeAll]
  exact Nat.add_lt_add_right (by rw [size_eq]; exact Nat.lt_one_add_iff.2 (Nat.le_refl _)) _

/-- Every node below this one in document order, with its path. -/
def descendants (node : Node) : List (String × Node) :=
  walk (childrenAt node.path node)

end Node

end Subscription
