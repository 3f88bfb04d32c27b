import Subscription.Data.Node

/-!
# Notification filters

A filter is an absolute path of child steps.  A step names a node or any
node (`*`), possibly with its module, and may compare values: that of a
key, that of a leaf child, or that of the node itself (`.`).  A filter
matches a notification when it selects the notification or a node below it
(`Filter.selects`).  A step without a module goes on with the module of the
node before it.
-/

namespace Subscription

namespace Filter

/-- The comparison of a named value with a literal. -/
structure Predicate where
  /-- The key or leaf without its module, or `.` for the node's own value. -/
  key : String
  value : String
  deriving DecidableEq, Repr, Inhabited

/-- One step of a path. -/
structure Step where
  /-- Nothing when the step goes on with the module before it. -/
  module : Option String
  /-- The node's name, or `*` for any. -/
  name : String
  predicates : List Predicate
  deriving DecidableEq, Repr, Inhabited

/-- Whether a child is a leaf of the given name and value. -/
def isLeafWith (key value : String) (child : Node) : Bool :=
  match child.kind with
  | .leaf _ => child.name == key && child.value == some value
  | _ => false

/-- Whether the comparison holds on a node. -/
def Predicate.holds (p : Predicate) (node : Node) : Bool :=
  if p.key = "." then node.value == some p.value
  else node.keys.any (fun key => key.1 == p.key && key.2 == p.value) ||
    node.children.any (isLeafWith p.key p.value)

/-- Whether a step selects a node whose parent has the given module. -/
def Step.selects (s : Step) (node : Node) (parentModule : String) : Bool :=
  s.module.getD parentModule == node.module &&
    (s.name == "*" || s.name == node.name) &&
    s.predicates.all fun p => p.holds node

/-- Whether the steps lead from a node to some node below it. -/
def selectsBelow (steps : List Step) (node : Node) : Bool :=
  match steps with
  | [] => true
  | s :: rest =>
      node.children.any fun child => s.selects child node.module && selectsBelow rest child

end Filter

/-- A filter, with the text it was written as. -/
structure Filter where
  xpath : String
  steps : List Filter.Step
  deriving DecidableEq, Repr, Inhabited

/-- Whether the filter selects the notification or a node below it. -/
def Filter.selects (f : Filter) (notification : Node) : Bool :=
  match f.steps with
  | [] => false
  | first :: rest =>
      first.selects notification notification.module && selectsBelow rest notification

end Subscription
