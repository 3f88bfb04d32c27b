import Subscription.Proofs.FailedAdd
import Subscription.Proofs.StoreHistory

/-!
# Taking out one subscription

A subscription is removed by saying everything that it was made with, and several may
have been made alike.  Its place is looked up first, then the registry is asked, and only
then is it taken out, which moves others of its group, and other groups.  So what is to
be made sure of is that one subscription goes and that it is one of those that were
meant (`Order.Names`), whatever stands around it.

* If none was meant, none of all groups has it, although only one group is searched:
  groups are told apart by what they are about, and RPCs stand under the module in their
  xpath (`Order.task_of_removal`).
* What goes is one subscription of one group.  Its group goes with it if it was alone
  there, and otherwise keeps its segment and the other subscriptions; all other groups
  stay as they are (`Store.Drops`).
* Outside, the descriptor of that subscription is retracted, from a registry of any make,
  and its answer decides what else becomes of the operation (`run_retractOne`).

`Store.Reachable.takes_out_one` puts this together for all subscriptions that can have
come about.
-/

namespace Subscription

open scoped List

/-! ## Subscriptions one by one -/

/-- A subscription of a context, with what its group shares. -/
inductive StoreEntry where
  | change (channel : ChangeChannel) (sub : ChangeSub)
  | service (service : Service) (channel : ServiceChannel) (sub : ServiceSub)
  | notification (channel : NotificationChannel) (sub : NotificationSub)

/-- How the registry knows a subscription. -/
def StoreEntry.descriptor (pipe : UInt32) : StoreEntry → Descriptor
  | .change c sub => ⟨c.module, sub.topic c.datastore, pipe⟩
  | .service kind c sub => ⟨c.module, kind.topic sub.xpath, pipe⟩
  | .notification c _ => ⟨c.module, .notifications, pipe⟩

namespace Store

/-- All subscriptions of a context. -/
def entries (s : Store) : List StoreEntry :=
  s.changes.entries.map (fun x => StoreEntry.change x.1 x.2) ++
    (s.providers.entries.map (fun x => StoreEntry.service .data x.1 x.2) ++
      (s.rpcs.entries.map (fun x => StoreEntry.service .rpc x.1 x.2) ++
        s.notifications.entries.map fun x => StoreEntry.notification x.1 x.2))

/-- One subscription less, and nothing else. -/
def Drops (s s' : Store) : StoreEntry → Prop
  | .change c sub => ∃ groups, s.changes.Drops groups c sub ∧ s' = { s with changes := groups }
  | .service service c sub =>
      ∃ groups, (s.services service).Drops groups c sub ∧ s' = s.setServices service groups
  | .notification c sub =>
      ∃ groups, s.notifications.Drops groups c sub ∧ s' = { s with notifications := groups }

variable {s s' : Store} {e : StoreEntry}

theorem mem_entries_change {c : ChangeChannel} {sub : ChangeSub} :
    .change c sub ∈ s.entries ↔ (c, sub) ∈ s.changes.entries := by
  simp [entries]

theorem mem_entries_service {service : Service} {c : ServiceChannel} {sub : ServiceSub} :
    .service service c sub ∈ s.entries ↔ (c, sub) ∈ (s.services service).entries := by
  cases service <;> simp [entries, services]

theorem mem_entries_notification {c : NotificationChannel} {sub : NotificationSub} :
    .notification c sub ∈ s.entries ↔ (c, sub) ∈ s.notifications.entries := by
  simp [entries]

/-- **Exactly one** entry is gone. -/
theorem Drops.perm_entries (hdrops : s.Drops s' e) : s.entries ~ e :: s'.entries := by
  cases e with
  | change c sub =>
      obtain ⟨groups, hgroups, rfl⟩ := hdrops
      exact (hgroups.perm_entries.map _).append_right _
  | service service c sub =>
      obtain ⟨groups, hgroups, rfl⟩ := hdrops
      have hperm := hgroups.perm_entries
      cases service with
      | data => exact (((hperm.map _).append_right _).append_left _).trans List.perm_middle
      | rpc =>
          refine ((((hperm.map _).append_right _).append_left _).append_left _).trans ?_
          exact (List.perm_middle.append_left _).trans List.perm_middle
  | notification c sub =>
      obtain ⟨groups, hgroups, rfl⟩ := hdrops
      refine (((((hgroups.perm_entries.map _).append_left _).append_left _).append_left _)).trans ?_
      exact (((List.perm_middle.append_left _).trans List.perm_middle).append_left _).trans
        List.perm_middle

theorem Drops.mem_entries (hdrops : s.Drops s' e) : e ∈ s.entries :=
  hdrops.perm_entries.mem_iff.2 List.mem_cons_self

end Store

/-! ## What an order means -/

namespace Order

/-- A subscription was made with everything that an order to remove one says. -/
def Names : Order → StoreEntry → Prop
  | .removeChange module datastore xpath priority options callback data, .change c sub =>
      c.module = module ∧ c.datastore = datastore ∧ sub.xpath = xpath ∧
        sub.priority = priority ∧ sub.options = options ∧ sub.callback = callback ∧
        sub.data = data
  | .removeData module xpath callback data, .service .data c sub =>
      c.module = module ∧ sub.xpath = xpath ∧ sub.callback = callback ∧ sub.data = data
  | .removeRpc xpath callback data, .service .rpc _ sub =>
      sub.xpath = xpath ∧ sub.callback = callback ∧ sub.data = data
  | .removeNotification module xpath start stop callback data, .notification c sub =>
      c.module = module ∧ sub.xpath = xpath ∧ sub.start = start ∧ sub.stop = stop ∧
        sub.callback = callback ∧ sub.data = data
  | _, _ => False

/-- What a context does that is told to carry out an order and has its subscriptions for
itself. -/
def task (order : Order) (site : Site) (s : Store) : Plan Store.Ending :=
  match order.plan with
  | .ok work => work site s
  | .error f => pure (.error f, s)

/-- Either nothing that is there was meant, and the order is a broken promise, or something
that was meant will be taken out as soon as the registry has let it go. -/
def Meets (order : Order) (site : Site) (s : Store) (p : Plan Store.Ending) : Prop :=
  (∃ a, p = s.aborted a ∧ ∀ e ∈ s.entries, ¬order.Names e) ∨
    ∃ e s', order.Names e ∧ s.Drops s' e ∧ p = s.retractOne (e.descriptor site.pipe) s'

variable {order : Order} {site : Site} {s : Store}

theorem meets_removeChange (hs : s.Tidy) (module : String) (datastore : Datastore)
    (xpath : Option String) (priority : UInt32) (options : SubscribeOptions)
    (callback : CallbackId) (data : Option DataId) :
    (removeChange module datastore xpath priority options callback data).Meets site s
      (s.removeChange site module datastore { xpath, priority, options, callback, data }) := by
  unfold Store.removeChange
  split
  next hlocate =>
    refine .inl ⟨_, rfl, fun e he hnames => ?_⟩
    cases e with
    | change c sub =>
        obtain ⟨hmodule, hdatastore, hxpath, hpriority, hoptions, hcallback, hdata⟩ := hnames
        have hnot := Groups.not_of_locate?_eq_none hs.changes (k := (module, datastore))
          (fun c => by rw [Store.isChanges_iff, Prod.mk.injEq]) hlocate
          (Store.mem_entries_change.1 he) (Store.isChanges_iff.2 ⟨hmodule, hdatastore⟩)
        simp [Store.sameChange, hxpath, hpriority, hoptions, hcallback, hdata] at hnot
    | service => exact hnames
    | notification => exact hnames
  next place entry hlocate =>
    obtain ⟨c, sub, -, hgroup, hsame, hdrops⟩ := Groups.drops_of_locate? hlocate
    obtain ⟨hmodule, hdatastore⟩ := Store.isChanges_iff.1 hgroup
    simp only [Store.sameChange, Bool.and_eq_true, decide_eq_true_eq] at hsame
    obtain ⟨⟨⟨⟨hxpath, hpriority⟩, hoptions⟩, hcallback⟩, hdata⟩ := hsame
    refine .inr ⟨.change c sub, _,
      ⟨hmodule, hdatastore, hxpath, hpriority, hoptions, hcallback, hdata⟩, ⟨_, hdrops, rfl⟩, ?_⟩
    simp only [StoreEntry.descriptor, ChangeSub.topic, hmodule, hdatastore, hxpath, hpriority, hoptions]

/-- Services of either kind are found alike. -/
theorem meets_removeService (hs : s.Tidy) {service : Service} {module xpath : String}
    {callback : CallbackId} {data : Option DataId}
    (hnames : ∀ e, order.Names e → ∃ c sub, e = .service service c sub ∧
      (e ∈ s.entries → c.module = module) ∧ sub.xpath = xpath ∧ sub.callback = callback ∧
      sub.data = data)
    (hmeant : ∀ c sub, c.module = module → sub.xpath = xpath → sub.callback = callback →
      sub.data = data → order.Names (.service service c sub)) :
    order.Meets site s (s.removeService site service module xpath callback data) := by
  unfold Store.removeService
  dsimp only
  split
  next hlocate =>
    refine .inl ⟨_, rfl, fun e he hmean => ?_⟩
    obtain ⟨c, sub, rfl, hmodule, hxpath, hcallback, hdata⟩ := hnames e hmean
    have hnot := Groups.not_of_locate?_eq_none (hs.services service) (k := module)
      (fun c => by simp) hlocate (Store.mem_entries_service.1 he) (by simpa using hmodule he)
    simp [hxpath, hcallback, hdata] at hnot
  next place entry hlocate =>
    obtain ⟨c, sub, -, hgroup, hsame, hdrops⟩ := Groups.drops_of_locate? hlocate
    have hmodule : c.module = module := by simpa using hgroup
    simp only [Bool.and_eq_true, decide_eq_true_eq] at hsame
    obtain ⟨⟨hxpath, hcallback⟩, hdata⟩ := hsame
    refine .inr ⟨.service service c sub, _, hmeant c sub hmodule hxpath hcallback hdata,
      ⟨_, hdrops, rfl⟩, ?_⟩
    simp only [StoreEntry.descriptor, hmodule, hxpath]

theorem meets_removeNotification (hs : s.Tidy) (module : String) (xpath : Option String)
    (start stop : Option Int) (callback : CallbackId) (data : Option DataId) :
    (removeNotification module xpath start stop callback data).Meets site s
      (s.removeNotification site module ⟨xpath, start, stop, callback, data⟩) := by
  unfold Store.removeNotification
  split
  next hlocate =>
    refine .inl ⟨_, rfl, fun e he hnames => ?_⟩
    cases e with
    | change => exact hnames
    | service => exact hnames
    | notification c sub =>
        obtain ⟨hmodule, hxpath, hstart, hstop, hcallback, hdata⟩ := hnames
        have hnot := Groups.not_of_locate?_eq_none hs.notifications (k := module)
          (fun c => by simp) hlocate (Store.mem_entries_notification.1 he) (by simpa using hmodule)
        simp [Store.NotificationQuery.isOf, hxpath, hstart, hstop, hcallback, hdata] at hnot
  next place entry hlocate =>
    obtain ⟨c, sub, -, hgroup, hsame, hdrops⟩ := Groups.drops_of_locate? hlocate
    have hmodule : c.module = module := by simpa using hgroup
    simp only [Store.NotificationQuery.isOf, Bool.and_eq_true, decide_eq_true_eq] at hsame
    obtain ⟨⟨⟨⟨hxpath, hstart⟩, hstop⟩, hcallback⟩, hdata⟩ := hsame
    refine .inr ⟨.notification c sub, _, ⟨hmodule, hxpath, hstart, hstop, hcallback, hdata⟩,
      ⟨_, hdrops, rfl⟩, ?_⟩
    simp only [StoreEntry.descriptor, hmodule]

/-- **An order to remove one** finds one that was meant, if there is one. -/
theorem task_of_removal (site : Site) (hs : s.Orderly) (hremoves : order.adds = false) :
    order.Meets site s (order.task site s) := by
  cases order with
  | addChange => cases hremoves
  | addData => cases hremoves
  | addRpc => cases hremoves
  | addNotification => cases hremoves
  | removeChange module datastore xpath priority options callback data =>
      exact meets_removeChange hs.tidy module datastore xpath priority options callback data
  | removeData module xpath callback data =>
      refine meets_removeService hs.tidy (fun e he => ?_) fun c sub hmodule hxpath hcallback hdata =>
        ⟨hmodule, hxpath, hcallback, hdata⟩
      cases e with
      | change => exact he.elim
      | notification => exact he.elim
      | service service c sub =>
          cases service with
          | rpc => exact he.elim
          | data => exact ⟨c, sub, rfl, fun _ => he.1, he.2⟩
  | removeRpc xpath callback data =>
      -- the module that is not said is that of every entry with this xpath
      have hmodules : ∀ e ∈ s.entries, (removeRpc xpath callback data).Names e →
          ∃ c sub, e = .service .rpc c sub ∧ XPath.firstModule xpath = some c.module := by
        intro e he hnames
        cases e with
        | change => exact hnames.elim
        | notification => exact hnames.elim
        | service service c sub =>
            cases service with
            | data => exact hnames.elim
            | rpc =>
                have hnamed := hs.named (c, sub) (Store.mem_entries_service.1 he)
                rw [hnames.1] at hnamed
                exact ⟨c, sub, rfl, hnamed⟩
      cases hmodule : XPath.firstModule xpath with
      | none =>
          simp only [task, plan, hmodule]
          refine .inl ⟨_, rfl, fun e he hnames => ?_⟩
          obtain ⟨c, sub, -, hfirst⟩ := hmodules e he hnames
          rw [hmodule] at hfirst
          cases hfirst
      | some module =>
          simp only [task, plan, hmodule]
          refine meets_removeService hs.tidy (fun e hnames => ?_)
            fun c sub _ hxpath hcallback hdata => ⟨hxpath, hcallback, hdata⟩
          cases e with
          | change => exact hnames.elim
          | notification => exact hnames.elim
          | service service c sub =>
              cases service with
              | data => exact hnames.elim
              | rpc =>
                  refine ⟨c, sub, rfl, fun he => ?_, hnames⟩
                  obtain ⟨c', sub', heq, hfirst⟩ := hmodules _ he hnames
                  cases heq
                  exact Option.some.inj (hfirst.symm.trans hmodule)
  | removeNotification module xpath start stop callback data =>
      exact meets_removeNotification hs.tidy module xpath start stop callback data

end Order

/-! ## Next to a registry of any make -/

/-- A registry of any make: how it answers, and what it is afterwards. -/
structure AnyRegistry (ρ : Type) where
  publish : Descriptor → ρ → Except Error Unit × ρ
  retract : Descriptor → ρ → Except Error Bool × ρ

variable {ρ : Type}

/-- A host next to a registry of any make. -/
def Handler.beside (registry : AnyRegistry ρ) : Handler (StateM (Host × ρ)) where
  host act := fun w =>
    match act w.1 with
    | .ok a host => (a, (host, w.2))
  publish d := fun w => ((registry.publish d w.2).1, (w.1, (registry.publish d w.2).2))
  retract d := fun w => ((registry.retract d w.2).1, (w.1, (registry.retract d w.2).2))
  settle _ := pure ()

/-- An order is carried out next to a registry: how it ends, and what it leaves. -/
def Order.carriedOut (order : Order) (registry : AnyRegistry ρ) (site : Site) (s : Store)
    (w : Host × ρ) : Store.Ending × Host × ρ :=
  (order.task site s).run ((Handler.beside registry).answer site.config) w

/-- The disk after someone has tried to take a name away. -/
def Disk.unlinked (d : Disk) (path : String) : Disk :=
  if Path.hasNul path then d
  else match d.unlink path with
    | .ok d' => d'
    | .error _ => d

/-- Removing a segment takes its name away, and a failure to do so is only written down. -/
theorem Segment.disk_removeQuietly (path : String) (h : Host) :
    (stateAfter ((Segment.removeQuietly path : HostM Empty Unit) h)).disk =
      h.disk.unlinked path := by
  unfold Segment.removeQuietly
  have hunlink : ∃ cause, (Segment.unlink path : HostM Error _) h =
      .ok cause { h with disk := h.disk.unlinked path } := by
    unfold Segment.unlink Disk.unlinked
    by_cases hnul : Path.hasNul path = true
    · rw [if_pos hnul, if_pos hnul]
      exact ⟨_, rfl⟩
    · rw [if_neg hnul, if_neg hnul, get_bind_eq]
      cases h.disk.unlink path with
      | ok d => exact ⟨_, rfl⟩
      | error e => exact ⟨_, rfl⟩
  obtain ⟨cause, hunlink⟩ := hunlink
  have hremove : stateAfter (Segment.remove path h) =
      { h with disk := h.disk.unlinked path } := by
    unfold Segment.remove
    rw [bind_of_ok hunlink]
    cases cause <;> rfl
  cases hresult : Segment.remove path h with
  | ok u h' =>
      rw [hresult] at hremove
      rw [bind_of_ok (attempt_of_ok hresult)]
      exact congrArg Host.disk hremove
  | error e h' =>
      rw [hresult] at hremove
      rw [bind_of_ok (attempt_of_error hresult)]
      exact congrArg Host.disk hremove

/-- A plan that asks for something goes on with the answer. -/
theorem Plan.run_ask {σ β : Type} {answer : (r : Request) → StateM σ r.Answer} {w w' : σ}
    {q : Request} {a : q.Answer} {next : q.Answer → Plan β} (hanswer : answer q w = (a, w')) :
    (Plan.request q >>= next).run answer w = (next a).run answer w' := by
  change (fun x : q.Answer × σ => (next x.1).run answer x.2) (answer q w) = _
  rw [hanswer]

/-- The registry does not take part in what is done on the host. -/
theorem Handler.beside_host (registry : AnyRegistry ρ) (act : HostM Empty Unit) (w : Host × ρ) :
    (Handler.beside registry).host act w = ((), (stateAfter (act w.1), w.2)) := by
  simp only [Handler.beside]
  cases act w.1 with
  | ok u host => rfl
  | error e => exact e.elim

/-- **What the registry answers** decides how a removal ends. -/
theorem run_retractOne (registry : AnyRegistry ρ) (cfg : Config) (s without : Store)
    (d : Descriptor) (h : Host) (r : ρ) :
    (s.retractOne d without).run ((Handler.beside registry).answer cfg) (h, r) =
      match registry.retract d r with
      | (.error e, r') => (s.failed e, (h, r'))
      | (.ok last, r') => ((.ok (), without), (if last then
          stateAfter ((Segment.removeQuietly (cfg.segmentPath d.key) : HostM Empty Unit) h)
          else h, r')) := by
  rcases hretract : registry.retract d r with ⟨answer, r'⟩
  have hasked : (Handler.beside registry).answer cfg (.retract d) (h, r) = (answer, (h, r')) := by
    change ((registry.retract d r).1, (h, (registry.retract d r).2)) = _
    rw [hretract]
  unfold Store.retractOne
  refine (Plan.run_ask hasked).trans ?_
  cases answer with
  | error e => rfl
  | ok last =>
      cases last with
      | false => rfl
      | true => exact Plan.run_ask (Handler.beside_host registry _ (h, r'))

namespace Store

/-- **Removing one subscription takes out exactly one.**  It is a broken promise if and only
if none was made with everything that the order says, and then nothing happens.  When the
registry refuses, the error is what it says, and subscriptions and files are as they were.
Otherwise one that was meant is gone, all others are as they were, and the file of its
segment is removed if and only if the registry has called its descriptor the last one. -/
theorem Reachable.takes_out_one {s : Store} (hs : s.Reachable) {order : Order}
    (hremoves : order.adds = false) (registry : AnyRegistry ρ) (site : Site) (h : Host) (r : ρ) :
    ((∃ a s' w, order.carriedOut registry site s (h, r) = ((.error (.abort a), s'), w)) ↔
      ∀ e ∈ s.entries, ¬order.Names e) ∧
    ((∀ e ∈ s.entries, ¬order.Names e) →
      ∃ a, order.carriedOut registry site s (h, r) = ((.error (.abort a), s), (h, r))) ∧
    ((∃ e ∈ s.entries, order.Names e) → ∃ e ∈ s.entries, order.Names e ∧
      match registry.retract (e.descriptor site.pipe) r with
      | (.error refused, r') =>
          order.carriedOut registry site s (h, r) = ((.error (.error refused), s), (h, r'))
      | (.ok last, r') => ∃ s' h',
          order.carriedOut registry site s (h, r) = ((.ok (), s'), (h', r')) ∧
          s.Drops s' e ∧ s.entries ~ e :: s'.entries ∧
          h'.disk = if last then
            h.disk.unlinked (site.config.segmentPath (e.descriptor site.pipe).key) else h.disk) := by
  rcases Order.task_of_removal site hs.orderly hremoves with
    ⟨a, htask, hnone⟩ | ⟨e, s', hnames, hdrops, htask⟩
  · have hrun : order.carriedOut registry site s (h, r) = ((.error (.abort a), s), (h, r)) := by
      rw [Order.carriedOut, htask]
      rfl
    refine ⟨⟨fun _ => hnone, fun _ => ⟨a, s, (h, r), hrun⟩⟩, fun _ => ⟨a, hrun⟩, fun hsome => ?_⟩
    obtain ⟨e, he, hnames⟩ := hsome
    exact absurd hnames (hnone e he)
  · have he := hdrops.mem_entries
    have hrun := run_retractOne registry site.config s s' (e.descriptor site.pipe) h r
    rw [← htask] at hrun
    have hmeant : ¬∀ e ∈ s.entries, ¬order.Names e := fun hnone => hnone e he hnames
    refine ⟨⟨?_, fun hnone => absurd hnone hmeant⟩, fun hnone => absurd hnone hmeant,
      fun _ => ⟨e, he, hnames, ?_⟩⟩
    · intro ⟨a, s'', w, habort⟩
      rw [Order.carriedOut, hrun] at habort
      split at habort <;> cases habort
    · rw [Order.carriedOut, hrun]
      rcases registry.retract (e.descriptor site.pipe) r with ⟨refused | last, r'⟩
      · rfl
      · refine ⟨s', _, rfl, hdrops, hdrops.perm_entries, ?_⟩
        cases last with
        | true => exact Segment.disk_removeQuietly _ h
        | false => rfl

end Store

/-! ## Two that were made alike -/

/-- A registry that answers by its table. -/
def AnyRegistry.table : AnyRegistry Registry where
  publish d r := (.ok (), r.publish d)
  retract d r :=
    match r.retract d with
    | .ok (last, r') => (.ok last, r')
    | .error e => (.error e, r)

namespace Twins

/-- A subscription to all notifications. -/
def sub : NotificationSub := ⟨none, none, none, false, "callback", none⟩

/-- The two of them, on a segment that the first one has opened. -/
def store : Store :=
  { Store.empty with notifications := ⟨[⟨⟨"m", default⟩, ⟨[sub, sub]⟩⟩]⟩ }

/-- The registry knows both of them. -/
def registry : Registry := (Registry.empty.publish ⟨"m", .notifications, 7⟩).publish
  ⟨"m", .notifications, 7⟩

theorem reachable : store.Reachable := by
  have hplan : (Order.addNotification "m" none none none "callback" none).plan =
      .ok fun site s => s.addNotification site "m" sub := rfl
  have hopened : (Store.openAndPublish ⟨"m", .notifications, 7⟩).CanEnd (.ok default) :=
    Plan.canEnd_request.2 ⟨.ok (default, true), Plan.canEnd_request.2 ⟨.ok (), rfl⟩⟩
  have hfirst : Store.Reachable
      { Store.empty with notifications := ⟨[⟨⟨"m", default⟩, ⟨[sub]⟩⟩]⟩ } :=
    .order ⟨default, 7⟩ (.ok (), _) .empty hplan
      (Plan.canEnd_bind.2 ⟨.ok default, hopened, Plan.canEnd_request.2 ⟨(), rfl⟩⟩)
  exact .order ⟨default, 7⟩ (.ok (), _) hfirst hplan
    (Plan.canEnd_request.2 ⟨.ok (), Plan.canEnd_request.2 ⟨(), rfl⟩⟩)

/-- The order to remove one of them, and it does not matter which. -/
def order : Order := .removeNotification "m" none none none "callback" none

/-- One of two that were made alike is taken out, and the other one stays. -/
theorem one_is_taken_out : ∃ e s' w,
    order.carriedOut .table ⟨default, 7⟩ store (default, registry) = ((.ok (), s'), w) ∧
      store.entries ~ e :: s'.entries := by
  have hthere : ∃ e ∈ store.entries, order.Names e :=
    ⟨.notification ⟨"m", default⟩ sub, List.mem_cons_self, rfl, rfl, rfl, rfl, rfl, rfl⟩
  have hremoves : order.adds = false := rfl
  obtain ⟨e, he, -, hends⟩ :=
    (reachable.takes_out_one hremoves .table ⟨default, 7⟩ default registry).2.2 hthere
  have hd : e.descriptor 7 = ⟨"m", .notifications, 7⟩ := by
    rcases List.mem_cons.1 he with rfl | he
    · rfl
    · rw [List.mem_singleton.1 he]
      rfl
  rw [hd] at hends
  obtain ⟨s', h', hrun, -, hperm, -⟩ := hends
  exact ⟨e, s', _, hrun, hperm⟩

end Twins

end Subscription
