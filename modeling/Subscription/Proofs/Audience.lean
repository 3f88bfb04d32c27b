import Subscription.Proofs.StoreHistory

/-!
# Whom a notification is for

A subscription awaits a notification when its filter, if it has one, selects the tree, if
there is one, and when the notification falls into its window (`NotificationSub.Awaits`).
Those who await one are taken from the store in its order, and only the end of a replay leaves
anything behind: those who have awaited it have seen it from then on
(`Store.recipients_eq`).

What a recipient is called with has to be made from the tree first.  That fails when the tree
is not that of a notification, and for a callback that takes values when a node below it has
none; the first such node says why (`Payload.ofNode_eq_error_iff`).
-/

namespace Subscription

/-! ## Subscriptions -/

namespace NotificationSub

/-- What a window says of a notification of some type that carries a time. -/
def InWindow (sub : NotificationSub) (type : NotificationType) (time : Int) : Prop :=
  match type with
  | .realtime => ∀ stop ∈ sub.stop, time ≤ stop
  | .replay => (∃ start ∈ sub.start, start ≤ time) ∧ (∀ stop ∈ sub.stop, time ≤ stop) ∧
      sub.replayed = false
  | .replayComplete => (∃ start, sub.start = some start) ∧ sub.replayed = false
  | .stop => True

/-- A subscription wants a notification. -/
structure Awaits (sub : NotificationSub) (type : NotificationType) (tree : Option Node)
    (time : Int) : Prop where
  selected : ∀ f ∈ sub.filter, ∀ node ∈ tree, f.selects node = true
  window : sub.InWindow type time

variable {sub : NotificationSub} {type : NotificationType} {tree : Option Node} {time : Int}

theorem selects_iff :
    sub.selects tree = true ↔ ∀ f ∈ sub.filter, ∀ node ∈ tree, f.selects node = true := by
  unfold selects
  cases sub.filter <;> cases tree <;> simp

theorem inWindow_iff : sub.inWindow type time = true ↔ sub.InWindow type time := by
  unfold inWindow InWindow beforeStop
  cases type with
  | realtime => cases sub.stop <;> simp
  | replay => cases sub.start <;> cases sub.stop <;> simp [and_assoc, and_comm, and_left_comm]
  | replayComplete => simp [and_comm, Option.isSome_iff_exists]
  | stop => simp

/-- **Wanting a notification** is what the code computes. -/
theorem wants_iff : sub.wants type tree time = true ↔ sub.Awaits type tree time := by
  rw [wants, Bool.and_eq_true, selects_iff, inWindow_iff]
  exact ⟨fun h => ⟨h.1, h.2⟩, fun h => ⟨h.selected, h.window⟩⟩

instance : Decidable (sub.Awaits type tree time) := decidable_of_iff _ wants_iff

/-- A subscription when a notification has come to its context: the end of a replay is over
for those who have awaited it. -/
def after (type : NotificationType) (tree : Option Node) (time : Int) (sub : NotificationSub) :
    NotificationSub :=
  if type = .replayComplete ∧ sub.Awaits type tree time then { sub with replayed := true } else sub

theorem noteReplay_eq : Store.noteReplay type tree time sub = sub.after type tree time := by
  unfold Store.noteReplay after
  simp only [wants_iff]

/-- Nobody awaits the end of a replay again. -/
theorem not_awaits_of_replayed (hreplayed : sub.replayed = true) :
    ¬sub.Awaits .replayComplete tree time := by
  intro hawaits
  have hopen := hawaits.window.2
  rw [hreplayed] at hopen
  cases hopen

end NotificationSub

/-! ## Stores -/

namespace Store

/-- The subscriptions to the notifications of a module, in the order of the store. -/
def subscribers (s : Store) (module : String) : List NotificationSub :=
  (s.notifications.entries.filter fun x => x.1.module = module).map Prod.snd

/-- Who is called about a notification of a module, in the order of the store. -/
def audience (s : Store) (module : String) (type : NotificationType) (tree : Option Node)
    (time : Int) : List Recipient :=
  ((s.subscribers module).filter fun sub => sub.Awaits type tree time).map recipientOf

/-- A group when a notification of a module has come. -/
def groupAfter (module : String) (type : NotificationType) (tree : Option Node) (time : Int)
    (g : Group NotificationChannel NotificationSub) : Group NotificationChannel NotificationSub :=
  if g.shared.module = module then { g with subs := g.subs.map (·.after type tree time) } else g

/-- The subscriptions when a notification of a module has come. -/
def after (s : Store) (module : String) (type : NotificationType) (tree : Option Node)
    (time : Int) : Store :=
  { s with notifications := s.notifications.map (groupAfter module type tree time) }

variable {s : Store} {module : String} {type : NotificationType} {tree : Option Node} {time : Int}

/-- The subscriptions of the groups of a module. -/
theorem subscribers_eq : s.subscribers module =
    (s.notifications.toList.filter fun g => g.shared.module = module).flatMap
      (·.subs.toList) := by
  have hgroup : ∀ g : Group NotificationChannel NotificationSub,
      ((g.subs.toList.map fun sub => (g.shared, sub)).filter
        fun x => x.1.module = module).map Prod.snd =
      if g.shared.module = module then g.subs.toList else [] := by
    intro g
    by_cases hmodule : g.shared.module = module <;>
      simp [hmodule, List.filter_map, Function.comp_def]
  have hgroups : ∀ groups : List (Group NotificationChannel NotificationSub),
      ((groups.flatMap fun g => g.subs.toList.map fun sub => (g.shared, sub)).filter
        fun x => x.1.module = module).map Prod.snd =
      (groups.filter fun g => g.shared.module = module).flatMap (·.subs.toList) := by
    intro groups
    induction groups with
    | nil => rfl
    | cons g rest ih =>
        rw [List.flatMap_cons, List.filter_append, List.map_append, hgroup, ih]
        by_cases hmodule : g.shared.module = module <;> simp [hmodule]
  exact hgroups s.notifications.toList

/-- Nobody comes and nobody goes with a notification. -/
theorem subscribers_after : (s.after module type tree time).subscribers module =
    (s.subscribers module).map (·.after type tree time) := by
  rw [subscribers_eq, subscribers_eq]
  simp only [after, SwapSet.map]
  induction s.notifications.toList with
  | nil => rfl
  | cons g rest ih =>
      by_cases hmodule : g.shared.module = module
      · simp [groupAfter, SwapSet.map, hmodule, ih]
      · simp [groupAfter, hmodule, ih]

/-- Groups of other modules stay as they are. -/
theorem map_groupAfter_of_ne {groups : List (Group NotificationChannel NotificationSub)}
    (hother : ∀ g ∈ groups, ¬g.shared.module = module) :
    groups.map (groupAfter module type tree time) = groups := by
  induction groups with
  | nil => rfl
  | cons g rest ih =>
      obtain ⟨hfirst, hrest⟩ := List.forall_mem_cons.1 hother
      rw [List.map_cons, ih hrest, groupAfter, if_neg hfirst]

/-- Nobody in them is asked. -/
theorem filter_module_of_ne {groups : List (Group NotificationChannel NotificationSub)}
    (hother : ∀ g ∈ groups, ¬g.shared.module = module) :
    (groups.filter fun g => g.shared.module = module) = [] :=
  List.filter_eq_nil_iff.2 fun g hg => by simpa using hother g hg

/-- **Who gets a notification**, and what it leaves behind: there is one group of the module at
most, and all others stay as they are. -/
theorem recipients_eq (htidy : s.Tidy) : s.recipients module type tree time =
    (s.audience module type tree time, s.after module type tree time) := by
  have hwants : (fun sub : NotificationSub => sub.wants type tree time) =
      fun sub => decide (sub.Awaits type tree time) := by
    funext sub
    rw [Bool.eq_iff_iff, NotificationSub.wants_iff, decide_eq_true_iff]
  have hchange : noteReplay type tree time = (·.after type tree time) := by
    funext sub
    exact NotificationSub.noteReplay_eq
  unfold recipients
  rw [hwants, hchange, audience, subscribers_eq, after]
  cases hplace : s.notifications.position? fun c => c.module = module with
  | none =>
      have hother : ∀ g ∈ s.notifications.toList, ¬g.shared.module = module := by
        intro g hg
        simpa using SwapSet.forall_of_position?_eq_none hplace g hg
      have hsame : s.notifications.map (groupAfter module type tree time) = s.notifications :=
        congrArg SwapSet.mk (map_groupAfter_of_ne hother)
      rw [filter_module_of_ne hother, hsame]
      rfl
  | some place =>
      obtain ⟨g, hget, hgroup⟩ := SwapSet.exists_get?_of_position? hplace
      have hmodule : g.shared.module = module := by simpa using hgroup
      obtain ⟨before, rest, hgroups, hmodify, -⟩ := SwapSet.exists_around hget
      have hnodup := htidy.notifications.nodup
      simp only [hgroups, List.map_append, List.map_cons, List.nodup_append, List.nodup_cons,
        List.mem_map, List.mem_cons] at hnodup
      have hbefore : ∀ g' ∈ before, ¬g'.shared.module = module := by
        grind
      have hrest : ∀ g' ∈ rest, ¬g'.shared.module = module := by
        grind
      have hfilter : (s.notifications.toList.filter fun g => g.shared.module = module) = [g] := by
        rw [hgroups, List.filter_append, filter_module_of_ne hbefore, List.nil_append,
          List.filter_cons_of_pos (by simpa using hmodule), filter_module_of_ne hrest]
      have hgroup : groupAfter module type tree time g =
          { g with subs := g.subs.map (·.after type tree time) } := if_pos hmodule
      have hmap : s.notifications.map (groupAfter module type tree time) =
          s.notifications.modify place
            fun g => { g with subs := g.subs.map (·.after type tree time) } := by
        have hlist : s.notifications.toList.map (groupAfter module type tree time) =
            (s.notifications.modify place
              fun g => { g with subs := g.subs.map (·.after type tree time) }).toList := by
          rw [hmodify, hgroups, List.map_append, List.map_cons, map_groupAfter_of_ne hbefore,
            map_groupAfter_of_ne hrest, hgroup]
        exact congrArg SwapSet.mk hlist
      rw [hfilter, hmap]
      simp [hget]

end Store

/-! ## Payloads -/

theorem mapM_eq_error_iff {ε α β : Type} {f : α → Except ε β} {items : List α} {e : ε} :
    items.mapM f = .error e ↔ ∃ before x rest, items = before ++ x :: rest ∧
      (∀ y ∈ before, ∃ b, f y = .ok b) ∧ f x = .error e := by
  induction items with
  | nil => simp [pure, Except.pure]
  | cons first items ih =>
      have hcons : (first :: items).mapM f = .error e ↔
          f first = .error e ∨ (∃ b, f first = .ok b) ∧ items.mapM f = .error e := by
        rw [List.mapM_cons]
        cases hfirst : f first with
        | error e' => simp [bind, Except.bind]
        | ok b => cases hrest : items.mapM f <;> simp [bind, Except.bind, pure, Except.pure]
      rw [hcons, ih]
      constructor
      · intro hfails
        rcases hfails with hfirst | ⟨hfirst, before, x, rest, rfl, hbefore, hx⟩
        · exact ⟨[], first, items, rfl, List.forall_mem_nil _, hfirst⟩
        · exact ⟨first :: before, x, rest, rfl, List.forall_mem_cons.2 ⟨hfirst, hbefore⟩, hx⟩
      · intro hfirst
        obtain ⟨before, x, rest, hitems, hbefore, hx⟩ := hfirst
        cases before with
        | nil =>
            obtain ⟨rfl, rfl⟩ := List.cons.inj hitems
            exact .inl hx
        | cons y before =>
            obtain ⟨rfl, rfl⟩ := List.cons.inj hitems
            obtain ⟨hfirst, hbefore⟩ := List.forall_mem_cons.1 hbefore
            exact .inr ⟨hfirst, before, x, rest, rfl, hbefore, hx⟩

theorem mapM_eq_ok_iff {ε α β : Type} {f : α → Except ε β} {items : List α} {results : List β} :
    items.mapM f = .ok results ↔ List.Forall₂ (fun x b => f x = .ok b) items results := by
  induction items generalizing results with
  | nil => simp [pure, Except.pure, eq_comm]
  | cons first items ih =>
      rw [List.mapM_cons, List.forall₂_cons_left_iff]
      cases hfirst : f first with
      | error e => simp [bind, Except.bind]
      | ok b => cases hrest : items.mapM f <;>
          simp [bind, Except.bind, pure, Except.pure, ← ih, hrest, eq_comm]

namespace Payload

/-- Why nothing can be made for a callback. -/
inductive Refused : CallShape → Option Node → Error → Prop
  /-- The tree is not that of a notification. -/
  | other {shape : CallShape} {node : Node} (hkind : node.kind ≠ .notification) :
      Refused shape (some node) (.fault (.notNotification node.path))
  /-- A node below has no value, and those before it have. -/
  | value {node : Node} {before rest : List (String × Node)} {x : String × Node} {e : Error}
      (hkind : node.kind = .notification) (hbelow : node.descendants = before ++ x :: rest)
      (hbefore : ∀ y ∈ before, ∃ v, Value.ofNode y.2 y.1 = .ok v)
      (hvalue : Value.ofNode x.2 x.1 = .error e) : Refused .values (some node) e

/-- **Nothing can be made** for just these reasons. -/
theorem ofNode_eq_error_iff {shape : CallShape} {tree : Option Node} {e : Error} :
    ofNode shape tree = .error e ↔ Refused shape tree e := by
  cases tree with
  | none =>
      constructor
      · intro hmade
        cases shape <;> cases hmade
      · intro hrefused
        cases hrefused
  | some node =>
      by_cases hkind : node.kind = .notification
      · cases shape with
        | tree =>
            constructor
            · intro hmade
              simp [ofNode, hkind] at hmade
            · intro hrefused
              cases hrefused with
              | other hother => exact absurd hkind hother
        | values =>
            have hvalues : ofNode .values (some node) = .error e ↔ valuesOf node = .error e := by
              simp only [ofNode, hkind]
              cases valuesOf node <;> simp [Except.map]
            rw [hvalues, valuesOf, mapM_eq_error_iff]
            constructor
            · intro hfirst
              obtain ⟨before, x, rest, hbelow, hbefore, hvalue⟩ := hfirst
              exact .value hkind hbelow hbefore hvalue
            · intro hrefused
              cases hrefused with
              | other hother => exact absurd hkind hother
              | value _ hbelow hbefore hvalue => exact ⟨_, _, _, hbelow, hbefore, hvalue⟩
      · have hmade : ofNode shape (some node) = .error (.fault (.notNotification node.path)) :=
          if_pos hkind
        rw [hmade]
        constructor
        · intro heq
          cases heq
          exact .other hkind
        · intro hrefused
          cases hrefused with
          | other => rfl
          | value hsame => exact absurd hsame hkind

end Payload

end Subscription
