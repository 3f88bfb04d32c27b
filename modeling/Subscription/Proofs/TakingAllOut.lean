import Subscription.Proofs.TakingOut

/-!
# Taking out everything

A context that removes all of its subscriptions goes on past failures, so that one
descriptor that the registry does not let go keeps no other one back.  What is to be made
sure of is that every descriptor is asked for, none is asked for twice, and no segment
outlives its last subscriber, or goes before it, because of what became of another one.

All of it is settled by the answers of the registry, which may be of any make
(`AnyRegistry.retractEach`).  The groups come in batches of one segment each.  A batch asks
for its descriptors in a row (`Store.run_retractBatch`) and removes its segment after that,
when one of the answers was that nobody is left; so behind each batch the segments that have
gone are those that the answers so far have named (`Retracted`).  This is kept from batch to
batch and from group to group, and at the end the descriptors that were asked for are those of
all subscriptions (`Store.removes_everything`).
-/

namespace Subscription

open scoped List

variable {ρ : Type}

/-! ## What the registry says -/

/-- Asks a registry to let descriptors go, one after the other, whatever it answers; gives all
answers in their order. -/
def AnyRegistry.retractEach (registry : AnyRegistry ρ) :
    List Descriptor → ρ → List (Except Error Bool) × ρ
  | [], r => ([], r)
  | d :: rest, r =>
      let (answer, r') := registry.retract d r
      let (answers, r'') := registry.retractEach rest r'
      (answer :: answers, r'')

/-- The registry has let a descriptor go, and nobody is left on its segment. -/
def isLast : Except Error Bool → Bool
  | .ok last => last
  | .error _ => false

/-- The first of some answers that is a failure. -/
def firstFailure (answers : List (Except Error Bool)) : Option Error :=
  answers.findSome? fun
    | .ok _ => none
    | .error e => some e

/-- A segment on which nobody is left, by what the registry has said of some descriptors. -/
def IsLeft (ds : List Descriptor) (answers : List (Except Error Bool)) (key : SegmentKey) : Prop :=
  ∃ d, (d, .ok true) ∈ ds.zip answers ∧ d.key = key

/-- **What has happened outside** while some descriptors were asked for: the registry was
asked for each of them once, and the names of just those segments were taken away on which
nobody is left. -/
structure Retracted (registry : AnyRegistry ρ) (cfg : Config) (ds : List Descriptor)
    (answers : List (Except Error Bool)) (w w' : Host × ρ) : Prop where
  asked : registry.retractEach ds w.2 = (answers, w'.2)
  removed : ∃ keys : List SegmentKey, (∀ key, key ∈ keys ↔ IsLeft ds answers key) ∧
    w'.1.disk = keys.foldl (fun disk key => disk.unlinked (cfg.segmentPath key)) w.1.disk

section Answers

variable {registry : AnyRegistry ρ} {cfg : Config} {ds ds' : List Descriptor}
  {answers answers' : List (Except Error Bool)} {r r' r'' : ρ} {key : SegmentKey}

theorem AnyRegistry.retractEach_cons {d : Descriptor} {answer : Except Error Bool}
    (hretract : registry.retract d r = (answer, r')) : registry.retractEach (d :: ds) r =
      (answer :: (registry.retractEach ds r').1, (registry.retractEach ds r').2) := by
  simp only [retractEach, hretract]

theorem AnyRegistry.length_retractEach (registry : AnyRegistry ρ) (ds : List Descriptor) (r : ρ) :
    (registry.retractEach ds r).1.length = ds.length := by
  induction ds generalizing r with
  | nil => rfl
  | cons d rest ih => simp only [retractEach, List.length_cons, ih]

theorem AnyRegistry.retractEach_append : registry.retractEach (ds ++ ds') r =
    ((registry.retractEach ds r).1 ++ (registry.retractEach ds' (registry.retractEach ds r).2).1,
      (registry.retractEach ds' (registry.retractEach ds r).2).2) := by
  induction ds generalizing r with
  | nil => rfl
  | cons d rest ih => simp only [List.cons_append, retractEach, ih]

theorem firstFailure_append :
    firstFailure (answers ++ answers') = (firstFailure answers).or (firstFailure answers') :=
  List.findSome?_append

theorem isLeft_append (hlength : answers.length = ds.length) :
    IsLeft (ds ++ ds') (answers ++ answers') key ↔
      IsLeft ds answers key ∨ IsLeft ds' answers' key := by
  simp only [IsLeft, List.zip_append hlength.symm, List.mem_append]
  grind

/-- Descriptors of one segment leave nobody on it as soon as one answer says so. -/
theorem isLeft_iff_of_same_key {segment : SegmentKey} (hkeys : ∀ d ∈ ds, d.key = segment)
    (hlength : answers.length = ds.length) :
    IsLeft ds answers key ↔ key = segment ∧ answers.any isLast = true := by
  have hlast : ∀ answer, isLast answer = true ↔ answer = .ok true := by
    intro answer
    cases answer <;> simp [isLast]
  simp only [List.any_eq_true, hlast, exists_eq_right]
  constructor
  · intro hleft
    obtain ⟨d, hmem, hkey⟩ := hleft
    have hd := List.of_mem_zip hmem
    exact ⟨hkey.symm.trans (hkeys d hd.1), hd.2⟩
  · intro hboth
    obtain ⟨hkey, hanswer⟩ := hboth
    rw [← List.map_snd_zip (Nat.le_of_eq hlength)] at hanswer
    obtain ⟨⟨d, answer⟩, hmem, rfl⟩ := List.mem_map.1 hanswer
    exact ⟨d, hmem, (hkeys d (List.of_mem_zip hmem).1).trans hkey.symm⟩

theorem Retracted.nil (w : Host × ρ) : Retracted registry cfg [] [] w w where
  asked := rfl
  removed := ⟨[], fun key => by simp [IsLeft], rfl⟩

/-- One stretch after the other. -/
theorem Retracted.append {w w' w'' : Host × ρ} (hfirst : Retracted registry cfg ds answers w w')
    (hrest : Retracted registry cfg ds' answers' w' w'') :
    Retracted registry cfg (ds ++ ds') (answers ++ answers') w w'' where
  asked := by
    rw [AnyRegistry.retractEach_append, hfirst.asked, hrest.asked]
  removed := by
    have hlength : answers.length = ds.length := by
      rw [← registry.length_retractEach ds w.2, hfirst.asked]
    obtain ⟨keys, hkeys, hdisk⟩ := hfirst.removed
    obtain ⟨keys', hkeys', hdisk'⟩ := hrest.removed
    refine ⟨keys ++ keys', fun key => ?_, ?_⟩
    · rw [List.mem_append, hkeys, hkeys', isLeft_append hlength]
    · rw [List.foldl_append, ← hdisk, hdisk']

end Answers

/-! ## What the code does -/

theorem Plan.run_bind {σ α β : Type} {answer : (r : Request) → StateM σ r.Answer} {w w' : σ}
    {p : Plan α} {a : α} (hp : p.run answer w = (a, w')) (next : α → Plan β) :
    (p >>= next).run answer w = (next a).run answer w' := by
  induction p generalizing w with
  | done result =>
      cases hp
      rfl
  | ask request rest ih => exact ih _ hp

namespace Store

variable (registry : AnyRegistry ρ) (cfg : Config)

/-- **A batch** goes on past failures, and does nothing but ask, and write failures down. -/
theorem run_retractBatch (batch : List Descriptor) (last : Bool) (failure : Option Error)
    (w : Host × ρ) : ∃ h', h'.disk = w.1.disk ∧
      (retractBatch batch (last, failure)).run ((Handler.beside registry).answer cfg) w =
        ((last || (registry.retractEach batch w.2).1.any isLast,
          failure.or (firstFailure (registry.retractEach batch w.2).1)),
          (h', (registry.retractEach batch w.2).2)) := by
  induction batch generalizing last failure w with
  | nil =>
      refine ⟨w.1, rfl, ?_⟩
      change ((last, failure), w) = _
      simp [AnyRegistry.retractEach, firstFailure]
  | cons d rest ih =>
      rcases hretract : registry.retract d w.2 with ⟨answer, r'⟩
      have hasked : (Handler.beside registry).answer cfg (.retract d) w = (answer, (w.1, r')) := by
        change ((registry.retract d w.2).1, (w.1, (registry.retract d w.2).2)) = _
        rw [hretract]
      rw [AnyRegistry.retractEach_cons hretract]
      unfold retractBatch
      cases answer with
      | ok answer =>
          obtain ⟨h', hdisk, hrun⟩ := ih (last || answer) failure (w.1, r')
          refine ⟨h', hdisk, (Plan.run_ask hasked).trans (hrun.trans ?_)⟩
          simp [isLast, firstFailure, Bool.or_assoc]
      | error e =>
          have hnoted : ∀ text, ∃ h' : Host, h'.disk = w.1.disk ∧
              (Plan.note .error text >>= fun _ => retractBatch rest (last, failure.or (some e))).run
                ((Handler.beside registry).answer cfg) (w.1, r') = _ :=
            fun text => ih last (failure.or (some e)) (w.1.note .error text, r')
          obtain ⟨h', hdisk, hrun⟩ := hnoted _
          refine ⟨h', hdisk, (Plan.run_ask hasked).trans (hrun.trans ?_)⟩
          cases failure <;> simp [isLast, firstFailure]

/-- **Batches of one segment each**: behind each of them its segment is gone if, and only if,
nobody is left on it. -/
theorem run_retractBatches (batches : List (List Descriptor))
    (hkeys : ∀ batch ∈ batches, ∃ key, ∀ d ∈ batch, d.key = key) (failure : Option Error)
    (w : Host × ρ) : ∃ answers w', Retracted registry cfg batches.flatten answers w w' ∧
      (retractBatches batches failure).run ((Handler.beside registry).answer cfg) w =
        (failure.or (firstFailure answers), w') := by
  induction batches generalizing failure w with
  | nil => exact ⟨[], w, .nil w, by rw [firstFailure, List.findSome?_nil, Option.or_none]; rfl⟩
  | cons batch rest ih =>
      obtain ⟨⟨key, hkey⟩, hrest⟩ := List.forall_mem_cons.1 hkeys
      obtain ⟨h₁, hdisk, hbatch⟩ := run_retractBatch registry cfg batch false failure w
      rcases hasked : registry.retractEach batch w.2 with ⟨answers, r₁⟩
      have hlength : answers.length = batch.length := by
        rw [← registry.length_retractEach batch w.2, hasked]
      have hleft : ∀ k, IsLeft batch answers k ↔ k = key ∧ answers.any isLast = true :=
        fun _ => isLeft_iff_of_same_key hkey hlength
      rw [hasked, Bool.false_or] at hbatch
      unfold retractBatches
      rw [Plan.run_bind hbatch, List.flatten_cons]
      cases hlast : answers.any isLast with
      | false =>
          have hstretch : Retracted registry cfg batch answers w (h₁, r₁) :=
            ⟨hasked, [], fun k => by simp [hleft, hlast], hdisk⟩
          obtain ⟨answers', w', hstretch', hrun⟩ :=
            ih hrest (failure.or (firstFailure answers)) (h₁, r₁)
          refine ⟨answers ++ answers', w', hstretch.append hstretch', ?_⟩
          rw [firstFailure_append, ← Option.or_assoc, ← hrun]
          cases batch <;> rfl
      | true =>
          cases batch with
          | nil =>
              cases hasked
              cases hlast
          | cons d more =>
              have hd : d.key = key := hkey d List.mem_cons_self
              let h₂ := stateAfter
                ((Segment.removeQuietly (cfg.segmentPath d.key) : HostM Empty Unit) h₁)
              have hremoved : h₂.disk = w.1.disk.unlinked (cfg.segmentPath key) := by
                rw [← hdisk, ← hd]
                exact Segment.disk_removeQuietly _ h₁
              have hstretch : Retracted registry cfg (d :: more) answers w (h₂, r₁) :=
                ⟨hasked, [key], fun k => by simp [hleft, hlast], hremoved⟩
              obtain ⟨answers', w', hstretch', hrun⟩ :=
                ih hrest (failure.or (firstFailure answers)) (h₂, r₁)
              refine ⟨answers ++ answers', w', hstretch.append hstretch', ?_⟩
              rw [firstFailure_append, ← Option.or_assoc, ← hrun]
              exact Plan.run_ask (Handler.beside_host registry _ (h₁, r₁))

/-- The same for groups; that a group is out of the store first makes no difference outside. -/
theorem run_retractGroups (groups : List (Store × List (List Descriptor)))
    (hkeys : ∀ g ∈ groups, ∀ batch ∈ g.2, ∃ key, ∀ d ∈ batch, d.key = key)
    (failure : Option Error) (w : Host × ρ) : ∃ answers w',
      Retracted registry cfg (groups.flatMap fun g => g.2.flatten) answers w w' ∧
      (retractGroups groups failure).run ((Handler.beside registry).answer cfg) w =
        (failure.or (firstFailure answers), w') := by
  induction groups generalizing failure w with
  | nil => exact ⟨[], w, .nil w, by rw [firstFailure, List.findSome?_nil, Option.or_none]; rfl⟩
  | cons g rest ih =>
      obtain ⟨left, batches⟩ := g
      obtain ⟨hbatches, hrest⟩ := List.forall_mem_cons.1 hkeys
      obtain ⟨answers, w₁, hstretch, hrun⟩ :=
        run_retractBatches registry cfg batches hbatches failure w
      obtain ⟨answers', w', hstretch', hrun'⟩ := ih hrest (failure.or (firstFailure answers)) w₁
      refine ⟨answers ++ answers', w', hstretch.append hstretch', ?_⟩
      rw [firstFailure_append, ← Option.or_assoc, ← hrun']
      exact Plan.run_bind hrun _

/-- Removing everything next to a registry: how it ends, and what it leaves. -/
def removedAll (s : Store) (registry : AnyRegistry ρ) (site : Site) (w : Host × ρ) :
    Ending × Host × ρ :=
  (s.removeAll site).run ((Handler.beside registry).answer site.config) w

/-- **Removing everything asks for every descriptor once, whatever fails.**  The subscriptions
are gone in any case.  The registry was asked to let go the descriptor of each of them, and to
do nothing else.  The names of just those segments were taken away that it has called left by
all, and the first of its failures, if there has been one, is how the removal ends. -/
theorem removes_everything (s : Store) (registry : AnyRegistry ρ) (site : Site)
    (w : Host × ρ) : ∃ ds answers w', ds ~ s.descriptors site.pipe ∧
      Retracted registry site.config ds answers w w' ∧
      s.removedAll registry site w =
        ((match firstFailure answers with
          | none => .ok ()
          | some e => .error (.error e), empty), w') := by
  obtain ⟨answers, w', hstretch, hrun⟩ :=
    run_retractGroups registry site.config (s.removals site.pipe)
      (key_of_mem_removals s site.pipe) none w
  refine ⟨_, answers, w', perm_removals s site.pipe, hstretch, ?_⟩
  rw [removedAll, removeAll, Plan.run_bind hrun, Option.none_or]
  cases firstFailure answers <;> rfl

end Store

end Subscription
