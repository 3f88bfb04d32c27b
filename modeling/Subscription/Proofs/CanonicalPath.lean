import Mathlib.Logic.Relation
import Subscription.Proofs.FilterGrammar

/-!
# Canonical paths as filters

The path of a node names it in its tree: module and name on every step, a module only
where it changes, and keys or a value where namesakes stand side by side.  A filter is
written in the same language, by other rules: its reader cuts a text at slashes and
brackets, and its steps inherit the module of the node before them.

* The traversal of a tree visits what can be reached from its root by going to children,
  and nothing else (`mem_descendants_iff`).
* A canonical path is the text of a layout of documented steps (`Locates`), and from the
  path of a node to that of a child one step is added (`Locates.child`).
* Each of these steps selects the node it was written for (`stepText_selects`), so the
  path of any node of a tree is a filter that selects the root
  (`canonical_paths_select_root`).
-/

namespace Subscription

open Subscription.Filter

namespace Node

/-! ## What a traversal visits -/

/-- The second entry is a child of the first one, at its path. -/
def ChildAt (parent child : String × Node) : Prop := child ∈ childrenAt parent.1 parent.2

theorem mem_walk_iff {stack : List (String × Node)} {entry : String × Node} :
    entry ∈ walk stack ↔ ∃ start ∈ stack, Relation.ReflTransGen ChildAt start entry := by
  induction stack using walk.induct with
  | case1 => simp [walk]
  | case2 path node stack ih =>
      have hfirst : Relation.ReflTransGen ChildAt (path, node) entry ↔ (path, node) = entry ∨
          ∃ child ∈ childrenAt path node, Relation.ReflTransGen ChildAt child entry :=
        Relation.ReflTransGen.cases_head_iff
      rw [walk, List.mem_cons, ih, List.exists_mem_cons_iff, hfirst, eq_comm, or_assoc]
      refine or_congr_right ?_
      simp only [List.mem_append, or_and_right, exists_or]

/-- A traversal visits the nodes below its root, each at the path to it. -/
theorem mem_descendants_iff {root : Node} {entry : String × Node} :
    entry ∈ root.descendants ↔ Relation.TransGen ChildAt (root.path, root) entry := by
  rw [descendants, mem_walk_iff, Relation.TransGen.head'_iff]
  rfl

/-! ## Trees with names -/

/-- What tells a node apart can be written between single quotes, and behind the name of
a key. -/
def Quotable (node : Node) : Prop :=
  match node.kind with
  | .list => ∀ key ∈ node.keys, isIdent key.1.toList = true ∧ '\x27' ∉ key.2.toList
  | .leafList _ => ∀ value ∈ node.value, '\x27' ∉ value.toList
  | _ => True

/-- A node whose module, name and keys are identifiers. -/
structure Nameable (node : Node) : Prop where
  module : isIdent node.module.toList = true
  name : isIdent node.name.toList = true
  quotable : node.Quotable

/-- Every node of a tree has a property. -/
inductive Throughout (P : Node → Prop) : Node → Prop
  | node {root : Node} (here : P root) (below : ∀ child ∈ root.children, Throughout P child) :
      Throughout P root

theorem Throughout.here {P : Node → Prop} {root : Node} (hroot : Throughout P root) : P root := by
  cases hroot with
  | node here below => exact here

theorem Throughout.child {P : Node → Prop} {root child : Node} (hroot : Throughout P root)
    (hchild : child ∈ root.children) : Throughout P child := by
  cases hroot with
  | node here below => exact below child hchild

/-! ## The layout of a path -/

/-- A comparison as a path writes it. -/
def comparison (key value : String) : PredicateText :=
  ⟨[], [], key.toList, [], [], '\x27', value.toList, []⟩

/-- The comparisons that tell a node apart. -/
def comparisons (node : Node) : List PredicateText :=
  match node.kind with
  | .list => node.keys.map fun key => comparison key.1 key.2
  | .leafList _ => node.value.toList.map (comparison ".")
  | _ => []

/-- The layout of a step of a path. -/
def stepText (node : Node) (parentModule : Option String) : StepText :=
  ⟨if parentModule = some node.module then none else some node.module.toList,
    node.name.toList, node.comparisons⟩

theorem chars_comparison (key value : String) :
    (comparison key value).chars = '[' :: (key.toList ++ "='".toList ++ value.toList ++
      "']".toList) := by
  simp [comparison, PredicateText.chars, PredicateText.left, PredicateText.right]

theorem toList_keyText (keys : List (String × String)) :
    (keyText keys).toList =
      (keys.map fun key => comparison key.1 key.2).flatMap PredicateText.chars := by
  rw [keyText, String.toList_join, List.flatMap_map, List.flatMap_map]
  refine List.flatMap_congr fun key _ => ?_
  rw [chars_comparison]
  simp [String.toList_append]

theorem toList_predicateText (node : Node) :
    node.predicateText.toList = node.comparisons.flatMap PredicateText.chars := by
  rw [predicateText, comparisons]
  cases node.kind with
  | list => exact toList_keyText node.keys
  | leafList _ =>
      cases node.value with
      | none => rfl
      | some value => simp [chars_comparison, String.toList_append]
  | _ => rfl

/-- A step is spelled as it is laid out. -/
theorem toList_step (node : Node) (parentModule : Option String) :
    (node.step parentModule).toList = (node.stepText parentModule).chars := by
  rw [step, StepText.chars, StepText.head, stepText, String.toList_append, toList_predicateText]
  split
  next => rfl
  next => simp [String.toList_append]

variable {node : Node} {parentModule : Option String}

theorem comparison_documented {key value : String}
    (hkey : key.toList = ['.'] ∨ isIdent key.toList = true) (hvalue : '\x27' ∉ value.toList) :
    (comparison key value).Documented where
  indent := List.forall_mem_nil _
  scope := .inl rfl
  key := hkey
  behind := List.forall_mem_nil _
  gap := List.forall_mem_nil _
  quote := rfl
  value := hvalue
  trail := List.forall_mem_nil _

theorem Quotable.comparisons_documented (hnode : node.Quotable) :
    ∀ p ∈ node.comparisons, p.Documented := by
  intro p hp
  rw [Quotable] at hnode
  rw [comparisons] at hp
  split at hp
  next hkind =>
    simp only [hkind] at hnode
    obtain ⟨key, hkey, rfl⟩ := List.mem_map.1 hp
    exact comparison_documented (.inr (hnode key hkey).1) (hnode key hkey).2
  next hkind =>
    simp only [hkind] at hnode
    obtain ⟨value, hvalue, rfl⟩ := List.mem_map.1 hp
    exact comparison_documented (.inl rfl) (hnode value (Option.mem_toList.1 hvalue))
  next => cases hp

/-- The step of a node with names is in the grammar of filters. -/
theorem Nameable.stepText_documented (hnode : node.Nameable) :
    (node.stepText parentModule).Documented where
  module := by
    intro m hm
    simp only [stepText] at hm
    split at hm
    · cases hm
    · rw [← Option.some.inj hm]
      exact hnode.module
  name := .inr hnode.name
  predicates := hnode.quotable.comparisons_documented

/-! ## What a step of a path selects -/

theorem comparison_holds_of_key {key : String × String} (hkey : key ∈ node.keys)
    (hident : isIdent key.1.toList = true) :
    (comparison key.1 key.2).predicate.holds node = true := by
  have hdot : key.1 ≠ "." := by
    intro h
    rw [h] at hident
    exact absurd hident (by decide)
  have hany : (node.keys.any fun other => other.1 == key.1 && other.2 == key.2) = true :=
    List.any_eq_true.2 ⟨key, hkey, by simp⟩
  simp [PredicateText.predicate, comparison, Predicate.holds, hdot, hany]

/-- What tells a node apart holds on it. -/
theorem Quotable.comparisons_hold (hnode : node.Quotable) :
    ∀ p ∈ node.comparisons, p.predicate.holds node = true := by
  intro p hp
  rw [Quotable] at hnode
  rw [comparisons] at hp
  split at hp
  next hkind =>
    simp only [hkind] at hnode
    obtain ⟨key, hkey, rfl⟩ := List.mem_map.1 hp
    exact comparison_holds_of_key hkey (hnode key hkey).1
  next =>
    obtain ⟨value, hvalue, rfl⟩ := List.mem_map.1 hp
    have hown : node.value = some value := Option.mem_toList.1 hvalue
    simp [PredicateText.predicate, comparison, Predicate.holds, hown]
  next => cases hp

/-- A step selects the node it was written for, wherever the module that it leaves out is
the one before it. -/
theorem Nameable.stepText_selects (hnode : node.Nameable) {before : String}
    (hbefore : ∀ m ∈ parentModule, m = before) :
    (node.stepText parentModule).step.selects node before = true := by
  have hmodule : (node.stepText parentModule).step.module.getD before = node.module := by
    simp only [stepText, StepText.step]
    split
    next hsame => exact (hbefore _ hsame).symm
    next => exact String.ofList_toList
  have hname : (node.stepText parentModule).step.name = node.name := String.ofList_toList
  have hholds : (node.stepText parentModule).step.predicates.all (·.holds node) = true := by
    refine List.all_eq_true.2 fun p hp => ?_
    obtain ⟨written, hwritten, rfl⟩ := List.mem_map.1 hp
    exact hnode.quotable.comparisons_hold written hwritten
  rw [Step.selects, hmodule, hname, hholds]
  simp

end Node

/-! ## Steps that lead to a node -/

namespace Filter

/-- The steps select, one after the other, a child of the node before, down to a target. -/
inductive Leads : List Step → Node → Node → Prop
  | here {node : Node} : Leads [] node node
  | down {s : Step} {steps : List Step} {node child target : Node}
      (hchild : child ∈ node.children) (hselects : s.selects child node.module = true)
      (hrest : Leads steps child target) : Leads (s :: steps) node target

theorem Leads.append_child {steps : List Step} {root node child : Node} {s : Step}
    (hleads : Leads steps root node) (hchild : child ∈ node.children)
    (hselects : s.selects child node.module = true) : Leads (steps ++ [s]) root child := by
  induction hleads with
  | here => exact .down hchild hselects .here
  | down hfirst hselectsFirst _ ih => exact .down hfirst hselectsFirst (ih hchild hselects)

/-- Steps select something below a node when they lead to some target. -/
theorem selectsBelow_iff {steps : List Step} {node : Node} :
    selectsBelow steps node = true ↔ ∃ target, Leads steps node target := by
  induction steps generalizing node with
  | nil => exact ⟨fun _ => ⟨node, .here⟩, fun _ => rfl⟩
  | cons s rest ih =>
      simp only [selectsBelow, List.any_eq_true, Bool.and_eq_true]
      constructor
      · rintro ⟨child, hchild, hselects, hbelow⟩
        obtain ⟨target, hrest⟩ := ih.1 hbelow
        exact ⟨target, .down hchild hselects hrest⟩
      · rintro ⟨target, hleads⟩
        cases hleads with
        | down hchild hselects hrest => exact ⟨_, hchild, hselects, ih.2 ⟨target, hrest⟩⟩

end Filter

/-! ## Paths as filters -/

namespace Node

theorem toList_written_concat (layout : List StepText) (s : StepText) :
    written (layout ++ [s]) = written layout ++ '/' :: s.chars := by
  simp [written]

/-- The path of an entry is written in documented steps: that of the root, and those that
lead from the root to the entry's node. -/
def Locates (root : Node) (entry : String × Node) : Prop :=
  ∃ layout : List StepText, (∀ s ∈ layout, s.Documented) ∧
    entry.1.toList = written (root.stepText none :: layout) ∧
    Leads (layout.map StepText.step) root entry.2

theorem locates_root (root : Node) : Locates root (root.path, root) := by
  refine ⟨[], List.forall_mem_nil _, ?_, .here⟩
  rw [path, String.toList_append, toList_step]
  simp [written]

/-- One more step leads to a child. -/
theorem Locates.child {root : Node} {parent child : String × Node} (hparent : Locates root parent)
    (hchild : ChildAt parent child) (hnamed : child.2.Nameable) : Locates root child := by
  obtain ⟨layout, hlayout, hwritten, hleads⟩ := hparent
  obtain ⟨node, hnode, rfl⟩ := List.mem_map.1 hchild
  refine ⟨layout ++ [node.stepText (some parent.2.module)], ?_, ?_, ?_⟩
  · exact List.forall_mem_append.2 ⟨hlayout, by simpa using hnamed.stepText_documented⟩
  · rw [String.toList_append, String.toList_append, hwritten, toList_step, ← List.cons_append,
      toList_written_concat]
    simp
  · rw [List.map_append]
    exact hleads.append_child hnode
      (hnamed.stepText_selects fun m hm => (Option.some.inj hm).symm)

/-- Every path of a tree with names is written in documented steps. -/
theorem locates_of_reached {root : Node} {entry : String × Node}
    (hnamed : root.Throughout Nameable)
    (hreached : Relation.ReflTransGen ChildAt (root.path, root) entry) :
    entry.2.Throughout Nameable ∧ Locates root entry := by
  induction hreached with
  | refl => exact ⟨hnamed, locates_root root⟩
  | tail _ hchild ih =>
      obtain ⟨hparent, hlocates⟩ := ih
      obtain ⟨node, hnode, rfl⟩ := List.mem_map.1 hchild
      have hnode := hparent.child hnode
      exact ⟨hnode, hlocates.child hchild hnode.here⟩

/-- A path in documented steps is a filter for the root. -/
theorem Locates.selects {root : Node} {entry : String × Node} (hroot : root.Nameable)
    (hlocates : Locates root entry) :
    ∃ f, Filter.parse entry.1 = .ok f ∧ f.selects root = true := by
  obtain ⟨layout, hlayout, hwritten, hleads⟩ := hlocates
  have hdocumented : ∀ s ∈ root.stepText none :: layout, s.Documented :=
    List.forall_mem_cons.2 ⟨hroot.stepText_documented, hlayout⟩
  have hreads : Reads (root.stepText none :: layout) entry.1
      ⟨entry.1, (root.stepText none :: layout).map StepText.step⟩ :=
    ⟨⟨root.stepText none, rfl, rfl⟩, hwritten, rfl⟩
  refine ⟨_, parse_eq_ok_iff.2 ⟨_, fun s hs => (StepText.documented_iff.1 (hdocumented s hs)).1,
    hreads⟩, ?_⟩
  have hfirst : (root.stepText none).step.selects root root.module = true :=
    hroot.stepText_selects fun m hm => by cases hm
  simp [Filter.selects, hfirst, selectsBelow_iff.2 ⟨_, hleads⟩]

/-- **Canonical paths and filters agree.**  In a tree whose modules, names and keys are
identifiers and whose key and leaf-list values contain no single quote, the path of every
node can be read as a filter, and this filter selects the root. -/
theorem canonical_paths_select_root (root : Node) (hnamed : root.Throughout Nameable) :
    ∀ entry ∈ (root.path, root) :: root.descendants,
      ∃ f, Filter.parse entry.1 = .ok f ∧ f.selects root = true := by
  intro entry hentry
  have hreached : Relation.ReflTransGen ChildAt (root.path, root) entry := by
    rcases List.mem_cons.1 hentry with rfl | hbelow
    · exact .refl
    · exact (mem_descendants_iff.1 hbelow).to_reflTransGen
  exact (locates_of_reached hnamed hreached).2.selects hnamed.here

/-- A tree of two modules, with list entries and values that hold every other mark. -/
def alarmTree : Node :=
  (Node.container "m" "top").withChild
    (((Node.list "n" "entry" [("id", "/[x]=\x22:"), ("_k", "")]).withChild
      { Node.leaf "n" "tag" .string "a/b" with kind := .leafList .string }).withChild
        (Node.leaf "m" "level" .string "it's"))

theorem alarmTree_nameable : alarmTree.Throughout Nameable := by
  have hkeys : ∀ key ∈ [("id", "/[x]=\x22:"), ("_k", "")],
      isIdent key.1.toList = true ∧ '\x27' ∉ key.2.toList := by decide
  have hvalue : ∀ value ∈ some "a/b", '\x27' ∉ value.toList := by decide
  refine .node ⟨by decide, by decide, trivial⟩ (List.forall_mem_singleton.2 ?_)
  refine .node ⟨by decide, by decide, hkeys⟩ (List.forall_mem_cons.2 ⟨?_,
    List.forall_mem_singleton.2 ?_⟩)
  · exact .node ⟨by decide, by decide, hvalue⟩ (List.forall_mem_nil _)
  · exact .node ⟨by decide, by decide, trivial⟩ (List.forall_mem_nil _)

theorem canonical_paths_select_root_alarm :
    alarmTree.descendants.map Prod.fst =
        ["/m:top/n:entry[id='/[x]=\x22:'][_k='']",
          "/m:top/n:entry[id='/[x]=\x22:'][_k='']/tag[.='a/b']",
          "/m:top/n:entry[id='/[x]=\x22:'][_k='']/m:level"] ∧
      ∀ entry ∈ (alarmTree.path, alarmTree) :: alarmTree.descendants,
        ∃ f, Filter.parse entry.1 = .ok f ∧ f.selects alarmTree = true := by
  refine ⟨?_, canonical_paths_select_root alarmTree alarmTree_nameable⟩
  simp [descendants, walk, childrenAt, alarmTree, withChild, container, list, leaf, bare, path,
    step, predicateText, keyText, String.join]

end Node

end Subscription
