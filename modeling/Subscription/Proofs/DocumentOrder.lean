import Mathlib.Data.List.Forall2
import Subscription.Data.Node

/-!
# The order of a document

The nodes of a tree have places.  The place of a node is the way to it: which child to go to
at the root, which one from there, and so on (`Node.entryAt?`).  In the order of a document a
node comes before what is below it, and what is below a child comes before its next sibling.
That is the lexicographic order of the places.

A traversal takes nodes from a stack and puts their children there, so it never looks at a
place, and nodes at two places may be equal.  Still it visits each place once:

* The traversal visits what a recursion over the tree lists, in the same order
  (`Node.descendants_eq`).
* What the recursion lists is at the places of the tree, one node at each of them, in
  ascending order (`Node.listsBelow_descendants`).
-/

namespace Subscription

namespace Node

/-! ## Recursion over a tree -/

/-- What holds of a node when it holds of its children holds of every node. -/
theorem induction_on_children {P : Node → Prop}
    (h : ∀ node, (∀ child ∈ node.children, P child) → P node) (node : Node) : P node :=
  h node fun child _ => induction_on_children h child
termination_by sizeOf node
decreasing_by
  rename_i hchild
  cases node
  have hsmaller := List.sizeOf_lt_of_mem hchild
  simp only [mk.sizeOf_spec] at hsmaller ⊢
  omega

/-- The path of a child of a node that is at a path and in a module. -/
def pathBelow (path module : String) (child : Node) : String :=
  path ++ "/" ++
    (if child.module = module then child.name else child.module ++ ":" ++ child.name) ++
    child.predicateText

mutual

/-- A node at a path and all that is below it, each node before its children and these from
left to right. -/
def inOrder (path : String) : Node → List (String × Node)
  | ⟨module, name, kind, value, isDefault, keys, children⟩ =>
      (path, ⟨module, name, kind, value, isDefault, keys, children⟩) ::
        childrenInOrder path module children

/-- The children of a node at a path and all that is below them. -/
def childrenInOrder (path module : String) : List Node → List (String × Node)
  | [] => []
  | child :: rest =>
      inOrder (pathBelow path module child) child ++ childrenInOrder path module rest

end

theorem inOrder_eq (path : String) (node : Node) :
    inOrder path node = (path, node) :: childrenInOrder path node.module node.children := by
  cases node
  rw [inOrder]

/-- Every node below a root in document order, with its path. -/
def belowInOrder (root : Node) : List (String × Node) :=
  childrenInOrder root.path root.module root.children

/-! ## The traversal -/

theorem childrenAt_eq (path : String) (node : Node) : childrenAt path node =
    node.children.map fun child => (pathBelow path node.module child, child) := by
  refine List.map_congr_left fun child _ => ?_
  rw [pathBelow, step, ← String.append_assoc]
  simp only [Option.some.injEq, eq_comm]

theorem childrenInOrder_eq (path module : String) (children : List Node) :
    childrenInOrder path module children = (children.map fun child =>
      (pathBelow path module child, child)).flatMap fun entry => inOrder entry.1 entry.2 := by
  induction children with
  | nil => rw [childrenInOrder]; rfl
  | cons child rest ih => rw [childrenInOrder, ih, List.map_cons, List.flatMap_cons]

/-- What is visited from a stack is what is below the nodes on it, one after the other. -/
theorem walk_eq (stack : List (String × Node)) :
    walk stack = stack.flatMap fun entry => inOrder entry.1 entry.2 := by
  induction stack using walk.induct with
  | case1 => rw [walk, List.flatMap_nil]
  | case2 path node stack ih =>
      rw [walk, ih, List.flatMap_append, List.flatMap_cons, inOrder_eq, childrenInOrder_eq,
        childrenAt_eq, List.cons_append]

/-- **The traversal is the recursion.** -/
theorem descendants_eq (root : Node) : root.descendants = root.belowInOrder := by
  rw [descendants, walk_eq, belowInOrder, childrenInOrder_eq, childrenAt_eq]

/-! ## Places -/

/-- The node at a place, with its path. -/
def entryAt? (path : String) (node : Node) : List Nat → Option (String × Node)
  | [] => some (path, node)
  | i :: place =>
      node.children[i]?.bind fun child => entryAt? (pathBelow path node.module child) child place

mutual

/-- The places of a tree. -/
def places : Node → List (List Nat)
  | ⟨_, _, _, _, _, _, children⟩ => [] :: placesFrom 0 children

/-- The places below a node whose children from some index on are the given ones. -/
def placesFrom (i : Nat) : List Node → List (List Nat)
  | [] => []
  | child :: rest => child.places.map (i :: ·) ++ placesFrom (i + 1) rest

end

theorem places_eq (node : Node) : node.places = [] :: placesFrom 0 node.children := by
  cases node
  rw [places]

theorem mem_placesFrom_iff {i : Nat} {children : List Node} {place : List Nat} :
    place ∈ placesFrom i children ↔
      ∃ j child, children[j]? = some child ∧ ∃ inner ∈ child.places, place = (i + j) :: inner := by
  induction children generalizing i with
  | nil => simp [placesFrom]
  | cons child rest ih =>
      rw [placesFrom, List.mem_append, List.mem_map, ih]
      constructor
      · intro hplace
        rcases hplace with ⟨inner, hinner, rfl⟩ | ⟨j, other, hother, inner, hinner, rfl⟩
        · exact ⟨0, child, rfl, inner, hinner, rfl⟩
        · exact ⟨j + 1, other, hother, inner, hinner, by rw [Nat.add_right_comm, Nat.add_assoc]⟩
      · intro hplace
        obtain ⟨j, other, hother, inner, hinner, rfl⟩ := hplace
        cases j with
        | zero =>
            cases hother
            exact .inl ⟨inner, hinner, rfl⟩
        | succ j =>
            exact .inr ⟨j, other, hother, inner, hinner, by rw [Nat.add_right_comm, Nat.add_assoc]⟩

/-- The places of a tree are those where there is a node. -/
theorem mem_places_iff {path : String} {node : Node} {place : List Nat} :
    place ∈ node.places ↔ ∃ entry, entryAt? path node place = some entry := by
  induction place generalizing path node with
  | nil => simp [places_eq, entryAt?]
  | cons i place ih =>
      rw [places_eq, List.mem_cons, mem_placesFrom_iff]
      cases hchild : node.children[i]? with
      | none => grind [entryAt?]
      | some child =>
          simp only [entryAt?, hchild, Option.bind_some, ← ih]
          grind

/-- The places of a tree ascend. -/
theorem places_ascend (node : Node) : node.places.Pairwise (List.Lex (· < ·)) := by
  induction node using induction_on_children with
  | h node ih =>
      have hfrom (i : Nat) (children : List Node)
          (hchildren : ∀ child ∈ children, child.places.Pairwise (List.Lex (· < ·))) :
          (placesFrom i children).Pairwise (List.Lex (· < ·)) := by
        induction children generalizing i with
        | nil => rw [placesFrom]; exact .nil
        | cons child rest ih =>
            obtain ⟨hfirst, hrest⟩ := List.forall_mem_cons.1 hchildren
            rw [placesFrom]
            refine List.pairwise_append.2 ⟨?_, ih (i + 1) hrest, ?_⟩
            · exact List.pairwise_map.2 (hfirst.imp .cons)
            · intro place hplace later hlater
              obtain ⟨inner, -, rfl⟩ := List.mem_map.1 hplace
              obtain ⟨j, -, -, -, -, rfl⟩ := mem_placesFrom_iff.1 hlater
              exact .rel (by omega)
      rw [places_eq]
      refine List.pairwise_cons.2 ⟨?_, hfrom 0 _ ih⟩
      intro later hlater
      obtain ⟨j, -, -, -, -, rfl⟩ := mem_placesFrom_iff.1 hlater
      exact .nil

/-! ## One node at each place -/

/-- Entries of all nodes below a root: one for each place, as the places ascend. -/
def ListsBelow (root : Node) (entries : List (String × Node)) : Prop :=
  ∃ places : List (List Nat), places.Pairwise (List.Lex (· < ·)) ∧
    (∀ place, place ∈ places ↔ place ≠ [] ∧ ∃ entry, entryAt? root.path root place = some entry) ∧
    List.Forall₂ (fun place entry => entryAt? root.path root place = some entry) places entries

/-- What is listed from some child on is at the places from there on. -/
theorem forall₂_placesFrom {path : String} {node : Node} (front : List Node) {rest : List Node}
    (hchildren : node.children = front ++ rest)
    (hrest : ∀ child ∈ rest, ∀ path, List.Forall₂
      (fun place entry => entryAt? path child place = some entry) child.places
        (inOrder path child)) :
    List.Forall₂ (fun place entry => entryAt? path node place = some entry)
      (placesFrom front.length rest) (childrenInOrder path node.module rest) := by
  induction rest generalizing front with
  | nil => rw [placesFrom, childrenInOrder]; exact .nil
  | cons child rest ih =>
      obtain ⟨hfirst, hrest⟩ := List.forall_mem_cons.1 hrest
      have hchild : node.children[front.length]? = some child := by simp [hchildren]
      have hnext := ih (front ++ [child]) (by simp [hchildren]) hrest
      rw [List.length_append] at hnext
      rw [placesFrom, childrenInOrder]
      refine List.rel_append ?_ hnext
      refine List.forall₂_map_left_iff.2 ((hfirst (pathBelow path node.module child)).imp ?_)
      intro place entry hentry
      rw [entryAt?, hchild]
      exact hentry

theorem forall₂_places (node : Node) : ∀ path, List.Forall₂
    (fun place entry => entryAt? path node place = some entry) node.places
      (inOrder path node) := by
  induction node using induction_on_children with
  | h node ih =>
      intro path
      rw [places_eq, inOrder_eq]
      exact .cons rfl (forall₂_placesFrom [] rfl ih)

/-- **The traversal visits every node once**, in the order of the document. -/
theorem listsBelow_descendants (root : Node) : root.ListsBelow root.descendants := by
  have hascend := root.places_ascend
  have hentries := root.forall₂_places root.path
  rw [places_eq] at hascend hentries
  rw [inOrder_eq] at hentries
  obtain ⟨hfirst, hascend⟩ := List.pairwise_cons.1 hascend
  rw [descendants_eq]
  refine ⟨_, hascend, ?_, (List.forall₂_cons.1 hentries).2⟩
  intro place
  rw [← mem_places_iff, places_eq, List.mem_cons]
  constructor
  · intro hplace
    refine ⟨?_, .inr hplace⟩
    intro hroot
    rw [hroot] at hplace
    cases hfirst [] hplace
  · intro hplace
    exact hplace.2.resolve_left hplace.1

end Node

end Subscription
