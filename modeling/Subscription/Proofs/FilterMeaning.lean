import Subscription.Proofs.CanonicalPath

/-!
# What a filter selects

A filter that was read from a text is a path, and a path has a meaning of its own.  There
are nodes, one for each step, from a root down, each of them a child of the one before, and
each is what its step says (`Filter.IsTrail`).  A step that names no module means that of the
nearest step before it that names one (`Filter.ModuleAt`).

The code does not look at other steps.  It goes down the tree, tries every child, and where a
step names no module it goes on with that of the node it has come from.  Both come to the
same, because a node on the way has the module that its own step means
(`Filter.falls_iff`), and because a text is only read as a filter when its first step names a
module (`Filter.selects_iff_exists_trail`).
-/

namespace Subscription

namespace Filter

/-! ## The meaning of a path -/

/-- What a comparison says of a node: that its own value is the literal, or that of one of its
keys, or that of a leaf below it. -/
def Predicate.IsMet (p : Predicate) (node : Node) : Prop :=
  if p.key = "." then node.value = some p.value
  else (p.key, p.value) ∈ node.keys ∨
    ∃ child ∈ node.children, (∃ type, child.kind = .leaf type) ∧ child.name = p.key ∧
      child.value = some p.value

/-- What a step says of a node, but for its module. -/
structure Step.Fits (s : Step) (node : Node) : Prop where
  name : s.name = "*" ∨ s.name = node.name
  predicates : ∀ p ∈ s.predicates, p.IsMet node

/-- The module that the step at a place means: it is named by the nearest step, going back
from there, that names one. -/
def ModuleAt (steps : List Step) (i : Nat) (module : String) : Prop :=
  ∃ j ≤ i, steps[j]?.bind Step.module = some module ∧
    ∀ k, j < k → k ≤ i → steps[k]?.bind Step.module = none

/-- Nodes from a root down, one for each step, which are what the steps say. -/
structure IsTrail (steps : List Step) (root : Node) (nodes : List Node) : Prop where
  start : nodes.head? = some root
  descends : nodes.IsChain fun parent child => child ∈ parent.children
  fits : List.Forall₂ Step.Fits steps nodes
  modules : ∀ i node, nodes[i]? = some node → ModuleAt steps i node.module

/-! ## Modules of steps -/

/-- The module of the step at a place, when the first step may go on with one. -/
def moduleFrom (before : String) : List Step → Nat → String
  | [], _ => before
  | s :: _, 0 => s.module.getD before
  | s :: steps, i + 1 => moduleFrom (s.module.getD before) steps i

variable {before module : String} {s : Step} {steps : List Step} {node : Node} {i : Nat}

theorem moduleAt_zero : ModuleAt (s :: steps) 0 module ↔ s.module = some module := by
  constructor
  · intro hnear
    obtain ⟨j, hj, hnamed, _⟩ := hnear
    obtain rfl : j = 0 := by omega
    exact hnamed
  · intro hnamed
    exact ⟨0, Nat.le_refl 0, hnamed, fun k hlt hle => by omega⟩

/-- Going back, the first step comes last. -/
theorem moduleAt_succ : ModuleAt (s :: steps) (i + 1) module ↔ ModuleAt steps i module ∨
    s.module = some module ∧ ∀ k ≤ i, steps[k]?.bind Step.module = none := by
  constructor
  · intro hnear
    obtain ⟨j, hj, hnamed, hnearest⟩ := hnear
    cases j with
    | zero => exact .inr ⟨hnamed, fun k hk => hnearest (k + 1) (by omega) (by omega)⟩
    | succ j => exact .inl ⟨j, by omega, hnamed,
        fun k hlt hle => hnearest (k + 1) (by omega) (by omega)⟩
  · intro hmodule
    rcases hmodule with ⟨j, hj, hnamed, hnearest⟩ | ⟨hnamed, hnone⟩
    · refine ⟨j + 1, by omega, hnamed, fun k hlt hle => ?_⟩
      cases k with
      | zero => omega
      | succ k => exact hnearest k (by omega) (by omega)
    · refine ⟨0, by omega, hnamed, fun k hlt hle => ?_⟩
      cases k with
      | zero => omega
      | succ k => exact hnone k (by omega)

theorem unnamed_succ : (∀ k ≤ i + 1, (s :: steps)[k]?.bind Step.module = none) ↔
    s.module = none ∧ ∀ k ≤ i, steps[k]?.bind Step.module = none := by
  constructor
  · intro hnone
    exact ⟨hnone 0 (by omega), fun k hk => hnone (k + 1) (by omega)⟩
  · intro hboth k hk
    obtain ⟨hfirst, hrest⟩ := hboth
    cases k with
    | zero => exact hfirst
    | succ k => exact hrest k (by omega)

/-- **Carrying the module along** finds the nearest step that names one, if there is any. -/
theorem moduleFrom_eq_iff : moduleFrom before steps i = module ↔ ModuleAt steps i module ∨
    before = module ∧ ∀ k ≤ i, steps[k]?.bind Step.module = none := by
  induction steps generalizing before i with
  | nil => simp [moduleFrom, ModuleAt]
  | cons s steps ih =>
      cases i with
      | zero =>
          rw [moduleFrom, moduleAt_zero]
          cases hs : s.module <;> simp [hs]
      | succ i =>
          rw [moduleFrom, ih, moduleAt_succ, unnamed_succ]
          cases hs : s.module <;> simp

/-- Nothing is carried past a first step that names a module. -/
theorem moduleFrom_eq_iff_of_named (hs : s.module.isSome = true) :
    moduleFrom before (s :: steps) i = module ↔ ModuleAt (s :: steps) i module := by
  rw [moduleFrom_eq_iff, or_iff_left]
  intro hnone
  obtain ⟨_, hnone⟩ := hnone
  have hfirst : s.module = none := hnone 0 (by omega)
  rw [hfirst] at hs
  cases hs

/-! ## What the code does -/

theorem isLeafWith_iff {key value : String} {child : Node} : isLeafWith key value child = true ↔
    (∃ type, child.kind = .leaf type) ∧ child.name = key ∧ child.value = some value := by
  unfold isLeafWith
  cases child.kind <;> simp

theorem holds_iff {p : Predicate} : p.holds node = true ↔ p.IsMet node := by
  unfold Predicate.holds Predicate.IsMet
  split
  · simp
  · simp only [Bool.or_eq_true, List.any_eq_true, isLeafWith_iff]
    grind

/-- A step selects a node of the module that it names or goes on with. -/
theorem selects_step_iff :
    s.selects node before = true ↔ s.module.getD before = node.module ∧ s.Fits node := by
  simp only [Step.selects, Bool.and_eq_true, Bool.or_eq_true, beq_iff_eq, List.all_eq_true,
    holds_iff]
  constructor
  · intro hselects
    obtain ⟨⟨hmodule, hname⟩, hpredicates⟩ := hselects
    exact ⟨hmodule, hname, hpredicates⟩
  · intro hstep
    obtain ⟨hmodule, hfits⟩ := hstep
    exact ⟨⟨hmodule, hfits.name⟩, hfits.predicates⟩

/-- Steps select nodes one after the other, each with the module of the node before. -/
inductive Falls : String → List Step → List Node → Prop
  | nil {before : String} : Falls before [] []
  | cons {before : String} {s : Step} {steps : List Step} {node : Node} {nodes : List Node}
      (hselects : s.selects node before = true) (hrest : Falls node.module steps nodes) :
      Falls before (s :: steps) (node :: nodes)

/-- The code goes down some way on which its steps select every node. -/
theorem selectsBelow_iff_exists_falls : selectsBelow steps node = true ↔
    ∃ nodes, Falls node.module steps nodes ∧
      (node :: nodes).IsChain fun parent child => child ∈ parent.children := by
  induction steps generalizing node with
  | nil => exact ⟨fun _ => ⟨[], .nil, by simp⟩, fun _ => rfl⟩
  | cons s steps ih =>
      simp only [selectsBelow, List.any_eq_true, Bool.and_eq_true]
      constructor
      · intro hbelow
        obtain ⟨child, hchild, hselects, hbelow⟩ := hbelow
        obtain ⟨nodes, hfalls, hchain⟩ := ih.1 hbelow
        exact ⟨child :: nodes, .cons hselects hfalls, List.isChain_cons_cons.2 ⟨hchild, hchain⟩⟩
      · intro hway
        obtain ⟨nodes, hfalls, hchain⟩ := hway
        cases hfalls with
        | cons hselects hrest =>
            obtain ⟨hchild, hchain⟩ := List.isChain_cons_cons.1 hchain
            exact ⟨_, hchild, hselects, ih.2 ⟨_, hrest, hchain⟩⟩

/-- **The module of the node before** is the one that is carried along. -/
theorem falls_iff {nodes : List Node} : Falls before steps nodes ↔
    List.Forall₂ Step.Fits steps nodes ∧
      ∀ i node, nodes[i]? = some node → moduleFrom before steps i = node.module := by
  constructor
  · intro hfalls
    induction hfalls with
    | nil => exact ⟨.nil, fun i node hnode => by simp at hnode⟩
    | @cons before s steps first nodes hselects hrest ih =>
        obtain ⟨hmodule, hfits⟩ := selects_step_iff.1 hselects
        obtain ⟨hrestFits, hmodules⟩ := ih
        refine ⟨.cons hfits hrestFits, fun i node hnode => ?_⟩
        cases i with
        | zero =>
            cases hnode
            exact hmodule
        | succ i =>
            rw [moduleFrom, hmodule]
            exact hmodules i node hnode
  · intro hboth
    obtain ⟨hfits, hmodules⟩ := hboth
    induction hfits generalizing before with
    | nil => exact .nil
    | @cons s first steps nodes hfirst hrest ih =>
        have hmodule : s.module.getD before = first.module := hmodules 0 first rfl
        apply Falls.cons (selects_step_iff.2 ⟨hmodule, hfirst⟩)
        apply ih
        intro i node hnode
        rw [← hmodule]
        exact hmodules (i + 1) node hnode

/-! ## Both are the same -/

theorem exists_first_of_parse {text : String} {f : Filter} (hparse : parse text = .ok f) :
    ∃ first rest, f.steps = first :: rest ∧ first.module.isSome = true := by
  unfold parse at hparse
  split at hparse
  next first rest _ =>
    split at hparse
    next hnamed =>
      cases hparse
      exact ⟨first, rest, rfl, hnamed⟩
    next => cases hparse
  next => cases hparse

/-- **A filter selects a tree exactly when its path leads somewhere in it**: when there are
nodes from the root down, one for each step, such that each is a child of the one before, has
the module of the nearest step that names one, and the name and the values that its own step
asks for. -/
theorem selects_iff_exists_trail {text : String} {f : Filter} (hparse : parse text = .ok f)
    (root : Node) : f.selects root = true ↔ ∃ nodes, IsTrail f.steps root nodes := by
  obtain ⟨first, rest, hsteps, hnamed⟩ := exists_first_of_parse hparse
  have hfalls : f.selects root = true ↔ ∃ nodes, Falls root.module (first :: rest) (root :: nodes) ∧
      (root :: nodes).IsChain fun parent child => child ∈ parent.children := by
    simp only [Filter.selects, hsteps, Bool.and_eq_true, selectsBelow_iff_exists_falls]
    constructor
    · intro hway
      obtain ⟨hselects, nodes, hfalls, hchain⟩ := hway
      exact ⟨nodes, .cons hselects hfalls, hchain⟩
    · intro hway
      obtain ⟨nodes, hfalls, hchain⟩ := hway
      cases hfalls with
      | cons hselects hrest => exact ⟨hselects, nodes, hrest, hchain⟩
  rw [hfalls, hsteps]
  constructor
  · intro hway
    obtain ⟨nodes, hfalls, hchain⟩ := hway
    obtain ⟨hfits, hmodules⟩ := falls_iff.1 hfalls
    exact ⟨root :: nodes, rfl, hchain, hfits, fun i node hnode =>
      (moduleFrom_eq_iff_of_named hnamed).1 (hmodules i node hnode)⟩
  · intro htrail
    obtain ⟨nodes, htrail⟩ := htrail
    obtain ⟨nodes, rfl⟩ : ∃ below, nodes = root :: below :=
      List.head?_eq_some_iff.1 htrail.start
    exact ⟨nodes, falls_iff.2 ⟨htrail.fits, fun i node hnode =>
      (moduleFrom_eq_iff_of_named hnamed).2 (htrail.modules i node hnode)⟩, htrail.descends⟩

/-- A comparison written without blanks. -/
def tightly (key value : String) : PredicateText :=
  ⟨[], [], key.toList, [], [], '\x27', value.toList, []⟩

theorem tightly_documented {key value : String}
    (hkey : key.toList = ['.'] ∨ isIdent key.toList = true) (hvalue : '\x27' ∉ value.toList) :
    (tightly key value).Documented :=
  ⟨List.forall_mem_nil _, .inl rfl, hkey, List.forall_mem_nil _, List.forall_mem_nil _, rfl, hvalue,
    List.forall_mem_nil _⟩

/-- The steps to the state of a port: the module is left out twice, and a name once. -/
def portLayout : List StepText :=
  [⟨some ['m'], "alarm".toList, [tightly "severity" "high"]⟩, ⟨some ['n'], "source".toList, []⟩,
    ⟨none, ['*'], [tightly "id" "7"]⟩, ⟨none, "state".toList, [tightly "." "down"]⟩]

def portFilter : Filter :=
  ⟨"/m:alarm[severity='high']/n:source/*[id='7']/state[.='down']",
    [⟨some "m", "alarm", [⟨"severity", "high"⟩]⟩, ⟨some "n", "source", []⟩,
      ⟨none, "*", [⟨"id", "7"⟩]⟩, ⟨none, "state", [⟨".", "down"⟩]⟩]⟩

/-- An alarm about a port, with a slot of the same number before it. -/
def portAlarm (module : String) : Node :=
  ((Node.notification "m" "alarm").withChild (Node.leaf "m" "severity" .string "high")).withChild
    (((Node.container "n" "source").withChild
      ((Node.list "n" "slot" [("id", "7")]).withChild
        (Node.leaf "n" "state" .string "up"))).withChild
      ((Node.list "n" "port" [("id", "7")]).withChild
        (Node.leaf module "state" .string "down")))

theorem portLayout_documented : ∀ s ∈ portLayout, s.Documented := by
  simp only [portLayout, List.forall_mem_cons]
  refine ⟨⟨⟨by decide, by decide⟩, ?alarm⟩, ⟨⟨by decide, by decide⟩, ?source⟩,
    ⟨⟨by decide, by decide⟩, ?star⟩, ⟨⟨by decide, by decide⟩, ?state⟩, List.forall_mem_nil _⟩
  case alarm => exact List.forall_mem_singleton.2 (tightly_documented (by decide) (by decide))
  case source => exact List.forall_mem_nil _
  case star => exact List.forall_mem_singleton.2 (tightly_documented (by decide) (by decide))
  case state => exact List.forall_mem_singleton.2 (tightly_documented (by decide) (by decide))

/-- The step without a name finds the port behind the slot; a state of another module is not
the one that the last step means. -/
theorem selects_iff_exists_trail_port : parse portFilter.xpath = .ok portFilter ∧
    (∃ nodes, IsTrail portFilter.steps (portAlarm "n") nodes) ∧
      ¬∃ nodes, IsTrail portFilter.steps (portAlarm "m") nodes := by
  have hparse : parse portFilter.xpath = .ok portFilter :=
    parse_eq_ok_iff.2 ⟨portLayout,
      fun s hs => (StepText.documented_iff.1 (portLayout_documented s hs)).1,
      ⟨⟨_, rfl, rfl⟩, by decide, by decide⟩⟩
  refine ⟨hparse, (selects_iff_exists_trail hparse _).1 (by decide), ?_⟩
  rw [← selects_iff_exists_trail hparse]
  decide

end Filter

end Subscription
