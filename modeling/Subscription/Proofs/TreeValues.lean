import Subscription.Proofs.Delivery
import Subscription.Proofs.DocumentOrder

/-!
# Trees as values

A callback that takes values is not given the tree of a notification, but what it is made of:
the path of the root and one value for each node below, in the order of the document.  There
is nothing in between.  When a node has no value nothing at all is handed over, and the first
such node says why.

* What is handed over is one value for each entry (`Payload.ofNode_values_eq_ok_iff`).
* The callback is called just when every node has a value, and then once: what else is called
  meanwhile is called by its own commands (`Machine.values_are_told_in_order`).
-/

namespace Subscription

/-- The values of some nodes at their paths. -/
def HaveValues (entries : List (String × Node)) (values : List Value) : Prop :=
  List.Forall₂ (fun entry v => Value.ofNode entry.2 entry.1 = .ok v) entries values

/-- A node that has no value, behind others that have one. -/
def FirstWithout (entries : List (String × Node)) (e : Error) : Prop :=
  ∃ before entry rest, entries = before ++ entry :: rest ∧
    (∀ other ∈ before, ∃ v, Value.ofNode other.2 other.1 = .ok v) ∧
    Value.ofNode entry.2 entry.1 = .error e

/-- Nodes have values together when each of them has one. -/
theorem exists_haveValues_iff {entries : List (String × Node)} :
    (∃ values, HaveValues entries values) ↔
      ∀ entry ∈ entries, ∃ v, Value.ofNode entry.2 entry.1 = .ok v := by
  simp only [HaveValues]
  induction entries with
  | nil => simp
  | cons entry rest ih =>
      rw [List.forall_mem_cons, ← ih]
      constructor
      · intro htogether
        obtain ⟨values, hvalues⟩ := htogether
        obtain ⟨v, others, hv, hothers, -⟩ := List.forall₂_cons_left_iff.1 hvalues
        exact ⟨⟨v, hv⟩, others, hothers⟩
      · intro heach
        obtain ⟨⟨v, hv⟩, others, hothers⟩ := heach
        exact ⟨v :: others, .cons hv hothers⟩

theorem HaveValues.unique {entries : List (String × Node)} {values values' : List Value}
    (hvalues : HaveValues entries values) (hvalues' : HaveValues entries values') :
    values = values' := by
  refine List.right_unique_forall₂' ?_ hvalues hvalues'
  intro entry v v' hv hv'
  exact Except.ok.inj (hv.symm.trans hv')

namespace Payload

variable {root : Node} {payload : Payload} {e : Error}

theorem valuesOf_eq_ok_iff {values : List Value} :
    valuesOf root = .ok values ↔ HaveValues root.descendants values := by
  rw [valuesOf, mapM_eq_ok_iff, HaveValues]

theorem valuesOf_eq_error_iff : valuesOf root = .error e ↔ FirstWithout root.descendants e := by
  rw [valuesOf, mapM_eq_error_iff, FirstWithout]

/-- **What is handed over** of the tree of a notification. -/
theorem ofNode_values_eq_ok_iff (hkind : root.kind = .notification) :
    ofNode .values (some root) = .ok payload ↔
      ∃ values, HaveValues root.descendants values ∧ payload = .values (some root.path) values := by
  have hmade : ofNode .values (some root) =
      (valuesOf root).map fun values => .values (some root.path) values :=
    if_neg (not_not_intro hkind)
  simp only [hmade, ← valuesOf_eq_ok_iff]
  cases valuesOf root with
  | ok values => simp [Except.map, eq_comm]
  | error e => simp [Except.map]

/-- **Why nothing is handed over**. -/
theorem ofNode_values_eq_error_iff (hkind : root.kind = .notification) :
    ofNode .values (some root) = .error e ↔ FirstWithout root.descendants e := by
  have hmade : ofNode .values (some root) =
      (valuesOf root).map fun values => .values (some root.path) values :=
    if_neg (not_not_intro hkind)
  rw [hmade, ← valuesOf_eq_error_iff]
  cases valuesOf root <;> simp [Except.map]

end Payload

namespace Machine

variable {machine : Machine} {r : Recipient} {cb : Callback} {notice : Notice} {root : Node}

/-- **A tree is told in the order of the document, all of it or nothing.**  The traversal of the
tree lists every node below the root once, in the order of the document.  A callback that takes
values is called just when all of these nodes have a value; it is called once, with the path of
the root and these values, and what is called meanwhile is what its own commands call when they
are run once.  Otherwise nothing happens, and the failure is that of the first node without a
value. -/
theorem values_are_told_in_order (hcb : machine.callbacks.lookup r.callback = some cb)
    (hshape : cb.shape = some .values) (htree : notice.tree = some root)
    (hkind : root.kind = .notification) (bound : Nat) :
    (∀ tree : Node, tree.descendants = tree.belowInOrder ∧ tree.ListsBelow tree.descendants) ∧
      ((∀ entry ∈ root.belowInOrder, ∃ v, Value.ofNode entry.2 entry.1 = .ok v) ↔
        ∃ values call more machine', HaveValues root.belowInOrder values ∧
          callBack (run bound) r notice machine = .ok (.ok ()) machine' ∧
          CallsOnce (run bound) cb
            (machine.noteOf cb r notice (.values (some root.path) values)) machine
            call more machine' ∧
          machine'.calls = machine.calls ++ call :: more) ∧
      ∀ e, FirstWithout root.belowInOrder e ↔
        callBack (run bound) r notice machine = .ok (.error e) machine := by
  have hcall := callBack_eq (run bound) r hcb hshape notice
  rw [htree] at hcall
  rw [← root.descendants_eq]
  refine ⟨fun tree => ⟨tree.descendants_eq, tree.listsBelow_descendants⟩, ?_, ?_⟩
  · rw [← exists_haveValues_iff]
    constructor
    · intro hvalues
      obtain ⟨values, hvalues⟩ := hvalues
      have hmade := (Payload.ofNode_values_eq_ok_iff hkind).2 ⟨values, hvalues, rfl⟩
      rw [hmade] at hcall
      obtain ⟨call, more, machine', hrun, -, honce⟩ :=
        exists_of_call (run_noting bound) cb r notice (.values (some root.path) values) machine
      exact ⟨values, call, more, machine', hvalues, hcall.trans hrun, honce, honce.calls⟩
    · intro htold
      obtain ⟨values, -, -, -, hvalues, -⟩ := htold
      exact ⟨values, hvalues⟩
  · intro e
    rw [← Payload.ofNode_values_eq_error_iff hkind]
    constructor
    · intro hmade
      rw [hmade] at hcall
      exact hcall
    · intro hfails
      rw [hfails] at hcall
      cases hmade : Payload.ofNode .values (some root) with
      | error e' =>
          rw [hmade] at hcall
          cases hcall
          rfl
      | ok payload =>
          rw [hmade] at hcall
          obtain ⟨-, -, machine', hrun, -⟩ :=
            exists_of_call (run_noting bound) cb r notice payload machine
          cases hcall.trans hrun

/-! ## A tree of two modules -/

namespace Newsroom

/-- An alarm with its source, of which a flag of another module tells something. -/
def report : Node :=
  ((Node.notification "m" "alarm").withChild
    (((Node.list "m" "source" [("name", "eth0")]).withChild
      (Node.leaf "m" "name" .string "eth0")).withChild
        (Node.leaf "n" "flag" .empty ""))).withChild (Node.leaf "m" "level" (.integer .uint8) "3")

/-- The nodes below the alarm. -/
def reported : List (String × Node) :=
  [("/m:alarm/source[name='eth0']",
      ((Node.list "m" "source" [("name", "eth0")]).withChild
        (Node.leaf "m" "name" .string "eth0")).withChild (Node.leaf "n" "flag" .empty "")),
    ("/m:alarm/source[name='eth0']/name", Node.leaf "m" "name" .string "eth0"),
    ("/m:alarm/source[name='eth0']/n:flag", Node.leaf "n" "flag" .empty ""),
    ("/m:alarm/level", Node.leaf "m" "level" (.integer .uint8) "3")]

theorem belowInOrder_report : report.belowInOrder = reported := by
  rfl

/-- A callback that takes values and writes a file. -/
def clerk : Callback := ⟨"clerk", some .values, some [.file (.write "note" [])]⟩

def office : Machine := { newsroom with callbacks := [("clerk", clerk)] }

end Newsroom

open Newsroom in
/-- The callback is called with the values of all four nodes, and its command calls nobody. -/
theorem values_are_told_in_order_report : ∃ machine' call,
    callBack (run 0) ⟨"clerk", none⟩ ⟨.realtime, some report, 5, default⟩ office =
      .ok (.ok ()) machine' ∧
    machine'.calls = [call] ∧ call.callback = "clerk" ∧
    call.reactions.map List.length = some 1 ∧
    call.payload = .values (some "/m:alarm")
      [⟨"/m:alarm/source[name='eth0']", false, .list⟩,
        ⟨"/m:alarm/source[name='eth0']/name", false, .string "eth0"⟩,
        ⟨"/m:alarm/source[name='eth0']/n:flag", false, .empty⟩,
        ⟨"/m:alarm/level", false, .integer .uint8 3⟩] := by
  have htold := @values_are_told_in_order office ⟨"clerk", none⟩ clerk
    ⟨.realtime, some report, 5, default⟩ report rfl rfl rfl rfl 0
  have hvalues : HaveValues reported
      [⟨"/m:alarm/source[name='eth0']", false, .list⟩,
        ⟨"/m:alarm/source[name='eth0']/name", false, .string "eth0"⟩,
        ⟨"/m:alarm/source[name='eth0']/n:flag", false, .empty⟩,
        ⟨"/m:alarm/level", false, .integer .uint8 3⟩] :=
    .cons rfl (.cons rfl (.cons rfl (.cons rfl .nil)))
  rw [belowInOrder_report, ← exists_haveValues_iff] at htold
  obtain ⟨values, call, more, machine', hvalues', hcall, honce, hcalls⟩ := htold.2.1.1 ⟨_, hvalues⟩
  obtain rfl := honce.more_eq_nil (List.forall_mem_singleton.2 (note_aside 0))
  have hcalled : call.callback = "clerk" := congrArg Call.callback honce.eq_note
  have hpayload : call.payload = .values (some report.path) values :=
    congrArg Call.payload honce.eq_note
  rw [hvalues'.unique hvalues] at hpayload
  exact ⟨machine', call, hcall, hcalls, hcalled, honce.reactions_length rfl, hpayload⟩

end Machine

end Subscription
