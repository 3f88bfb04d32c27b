import Subscription.Proofs.PlanRules

/-!
# Contexts at work at the same time

A context carries out one operation at a time, but nothing keeps others from working
meanwhile: between any two requests of its plan, all of them may act.  Here an operation
that has begun is a task, which is as far as its plan has got (`Task`), and a workshop is
a community whose members may have a task each (`Workshop`).

What goes on is that contexts join, begin with operations and make one step
(`Move`).  A step answers the next request of a task, as the host and the registry do it
when the plan is run by itself (`Handler.answer`); the registry may refuse it.  With no
request left, the operation returns.  A task that nobody comes between ends as its plan
does (`Workshop.exists_undisturbed`).
-/

namespace Subscription

/-- An operation that has begun: what has been said so far, and what comes next. -/
structure Task where
  said : List Exchange
  rest : Plan Store.Ending

/-- A context, at work or not. -/
structure Worker extends Member where
  task : Option Task

/-- Contexts that share a host and a registry. -/
structure Workshop where
  config : Config
  host : Host
  registry : Registry
  workers : List Worker

/-- What goes on in a workshop. -/
inductive Move where
  /-- A context is made. -/
  | join (pipe : UInt32)
  /-- A context begins to carry out an order. -/
  | start (worker : Nat) (order : Order)
  /-- A context begins to remove all it has, be it that it is asked to or given up. -/
  | startRemoval (worker : Nat)
  /-- A context goes on with its task; the registry may refuse what it is asked for. -/
  | advance (worker : Nat) (refusal : Option Error)
  deriving Inhabited

/-- The subscriptions once a request has been answered. -/
def Request.settled (s : Store) : Request → Store
  | .settle s' => s'
  | _ => s

namespace Workshop

/-- A context begins with some work, unless it is busy. -/
def assign (c : Workshop) (worker : Nat) (work : Order.Work) : Workshop :=
  match c.workers[worker]? with
  | some ⟨m, none⟩ =>
      { c with workers := c.workers.set worker ⟨m, some ⟨[], work ⟨c.config, m.pipe⟩ m.store⟩⟩ }
  | _ => c

/-- A context goes on with its task: the next request is answered, or the operation
returns. -/
def advance (c : Workshop) (worker : Nat) (refusal : Option Error) : Workshop :=
  match c.workers[worker]? with
  | some ⟨m, some ⟨_, .done ending⟩⟩ =>
      { c with workers := c.workers.set worker ⟨{ m with store := ending.2 }, none⟩ }
  | some ⟨m, some ⟨said, .ask r next⟩⟩ =>
      let (answer, host, registry) :=
        (Handler.refusing refusal).answer c.config r (c.host, c.registry)
      { c with
        host, registry
        workers := c.workers.set worker
          ⟨{ m with store := r.settled m.store }, some ⟨said ++ [⟨r, answer⟩], next answer⟩⟩ }
  | _ => c

/-- The workshop after a move. -/
def step (c : Workshop) : Move → Workshop
  | .join pipe => { c with workers := c.workers ++ [⟨⟨pipe, .empty⟩, none⟩] }
  | .start worker order =>
      match order.plan with
      | .ok work => c.assign worker work
      | .error _ => c
  | .startRemoval worker => c.assign worker fun site s => s.removeAll site
  | .advance worker refusal => c.advance worker refusal

/-- The workshop after moves, one after the other. -/
def run (c : Workshop) (moves : List Move) : Workshop := moves.foldl step c

/-- The file that is found at the path of a segment. -/
def found (c : Workshop) (key : SegmentKey) : Option FileId :=
  c.host.disk.fileAt (c.config.segmentPath key)

/-- Nobody has joined, and everything else is as in a new community. -/
structure IsNew (c : Workshop) : Prop where
  workers : c.workers = []
  community : (⟨c.config, c.host, c.registry, []⟩ : Community).IsNew

/-! ## Steps -/

variable {c : Workshop} {i : Nat} {m : Member} {said : List Exchange}

/-- An operation returns. -/
theorem advance_done {ending : Store.Ending}
    (hw : c.workers[i]? = some ⟨m, some ⟨said, .done ending⟩⟩) (refusal : Option Error) :
    c.advance i refusal =
      { c with workers := c.workers.set i ⟨{ m with store := ending.2 }, none⟩ } := by
  simp only [advance, hw]

/-- A request is answered. -/
theorem advance_ask {r : Request} {next : r.Answer → Plan Store.Ending}
    (hw : c.workers[i]? = some ⟨m, some ⟨said, .ask r next⟩⟩) (refusal : Option Error) :
    c.advance i refusal =
      let x := (Handler.refusing refusal).answer c.config r (c.host, c.registry)
      { c with
        host := x.2.1
        registry := x.2.2
        workers := c.workers.set i
          ⟨{ m with store := r.settled m.store }, some ⟨said ++ [⟨r, x.1⟩], next x.1⟩⟩ } := by
  simp only [advance, hw]
  rfl

/-- **A task that nobody comes between** ends as its plan does when it is run by itself. -/
theorem exists_undisturbed {p : Plan Store.Ending}
    (hw : c.workers[i]? = some ⟨m, some ⟨said, p⟩⟩) (refusal : Option Error) :
    ∃ count, c.run (List.replicate count (.advance i refusal)) =
      let x := p.run ((Handler.refusing refusal).answer c.config) (c.host, c.registry)
      { c with
        host := x.2.1
        registry := x.2.2
        workers := c.workers.set i ⟨{ m with store := x.1.2 }, none⟩ } := by
  have hi := (List.getElem?_eq_some_iff.1 hw).1
  induction p generalizing c m said with
  | done ending => exact ⟨1, advance_done hw refusal⟩
  | ask r next ih =>
      have hnext := advance_ask hw refusal
      obtain ⟨count, hcount⟩ := ih ((Handler.refusing refusal).answer c.config r
        (c.host, c.registry)).1 (c := c.advance i refusal)
        (by rw [hnext]; exact List.getElem?_set_self hi)
        (by rw [hnext]; simpa using hi)
      refine ⟨count + 1, ?_⟩
      rw [List.replicate_succ]
      refine hcount.trans ?_
      rw [hnext]
      simp only [List.set_set]
      rfl

end Workshop

end Subscription
