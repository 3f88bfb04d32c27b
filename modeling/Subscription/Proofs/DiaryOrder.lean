import Mathlib.Data.List.Perm.Subperm
import Mathlib.Data.List.Nodup
import Subscription.Proofs.CallDiary

/-!
# What a diary can tell

A diary is in order when each of its entries is due to what came before it
(`Incident.Due`): only a subscription that is there leaves, a delivery takes
subscriptions that are there, each of them once, and calls those that it
took, each of them once.  Bringing a diary up to date keeps it in order, and
then the subscriptions that stand in it are those that the machine has
(`Diary.standing_bringUp`).
-/

namespace Subscription

/-! ## Finding subscriptions -/

namespace Roll

variable {roll : Roll} {es : List Enrolment}

theorem pairOff_subperm (roll : Roll) (es : List Enrolment) :
    (roll.pairOff es).1.Subperm roll := by
  induction es generalizing roll with
  | nil => exact List.nil_subperm
  | cons e rest ih =>
      unfold pairOff
      cases hfind : roll.find? fun entry => entry.2 = e with
      | none => exact ih roll
      | some entry =>
          have hmem : entry ∈ roll := List.mem_of_find?_eq_some hfind
          have htail := (List.subperm_cons entry).mpr (ih (roll.erase entry))
          exact htail.trans (List.perm_cons_erase hmem).symm.subperm

/-- Each subscription is found or missing. -/
theorem pairOff_perm (roll : Roll) (es : List Enrolment) :
    ((roll.pairOff es).1.map Prod.snd ++ (roll.pairOff es).2).Perm es := by
  induction es generalizing roll with
  | nil => exact .refl []
  | cons e rest ih =>
      unfold pairOff
      cases hfind : roll.find? fun entry => entry.2 = e with
      | none => exact List.perm_middle.trans ((ih roll).cons e)
      | some entry =>
          have hentry : entry.2 = e := by simpa using List.find?_some hfind
          simp only [List.map_cons, hentry]
          exact (ih (roll.erase entry)).cons e

/-- Subscriptions that are all there are all found, in their order. -/
theorem map_pairOff (hes : es.Subperm (roll.map Prod.snd)) :
    (roll.pairOff es).1.map Prod.snd = es := by
  induction es generalizing roll with
  | nil => rfl
  | cons e rest ih =>
      unfold pairOff
      cases hfind : roll.find? fun entry => entry.2 = e with
      | none =>
          obtain ⟨entry, hmem, hentry⟩ := List.mem_map.mp (hes.subset List.mem_cons_self)
          exact absurd hentry (by simpa using List.find?_eq_none.mp hfind entry hmem)
      | some entry =>
          have hentry : entry.2 = e := by simpa using List.find?_some hfind
          have hroll : (roll.map Prod.snd).Perm (e :: (roll.erase entry).map Prod.snd) := by
            rw [← hentry]
            exact (List.perm_cons_erase (List.mem_of_find?_eq_some hfind)).map Prod.snd
          have hrest := (List.subperm_cons e).mp (hes.trans hroll.subperm)
          simp only [List.map_cons, hentry, ih hrest]

/-- Those that stay when all leave that were not found. -/
theorem perm_stay {found : Roll} (hplaces : (roll.map Prod.fst).Nodup)
    (hfound : found.Subperm roll) :
    (roll.filter fun entry => entry.1 ∉
      (roll.filter fun entry => entry ∉ found).map Prod.fst).Perm found := by
  have hroll : roll.Nodup := hplaces.of_map
  obtain ⟨same, hsame, hsub⟩ := hfound
  refine (List.perm_ext_iff_of_nodup (hroll.filter _)
    (hsame.nodup_iff.mp (hroll.sublist hsub))).mpr fun entry => ?_
  rw [List.mem_filter, decide_eq_true_iff]
  constructor
  · intro ⟨hmem, hstays⟩
    by_contra hmissing
    exact hstays (List.mem_map_of_mem (List.mem_filter.mpr ⟨hmem, by simpa using hmissing⟩))
  · intro hmem
    have hentry : entry ∈ roll := hsub.subset (hsame.mem_iff.mpr hmem)
    refine ⟨hentry, fun hgone => ?_⟩
    obtain ⟨other, hother, hplace⟩ := List.mem_map.mp hgone
    obtain ⟨hother, hmissing⟩ := List.mem_filter.mp hother
    have heq : other = entry := List.inj_on_of_nodup_map hplaces hother hentry hplace
    rw [heq] at hmissing
    simp [hmem] at hmissing

end Roll

/-! ## Order -/

namespace Diary

/-- The entry at a place. -/
def entryAt (past : Diary) (place : Nat) : Option Incident := past.reverse[place]?

end Diary

/-- Whether an incident can come after others. -/
def Incident.Due (past : Diary) : Incident → Prop
  | enrolled _ | asked _ => True
  | left place => place ∈ past.standing.map Prod.fst
  | took places => places.Nodup ∧ places ⊆ past.standing.map Prod.fst
  | called delivery target r =>
      (∃ places place e, past.entryAt delivery = some (took places) ∧
        places[target]? = some place ∧ past.entryAt place = some (enrolled e) ∧
        Store.recipientOf e.sub = r) ∧
      ∀ r', called delivery target r' ∉ past

namespace Diary

/-- Each entry is due to what came before it. -/
def Orderly : Diary → Prop
  | [] => True
  | incident :: past => incident.Due past ∧ Orderly past

variable {past : Diary}

theorem lt_of_entryAt {place : Nat} {incident : Incident}
    (hentry : past.entryAt place = some incident) : place < past.length := by
  simpa using (List.getElem?_eq_some_iff.mp hentry).1

theorem mem_of_entryAt {place : Nat} {incident : Incident}
    (hentry : past.entryAt place = some incident) : incident ∈ past :=
  List.mem_reverse.mp (List.mem_of_getElem? hentry)

theorem entryAt_of_lt (recent : Diary) {place : Nat} (hplace : place < past.length) :
    entryAt (recent ++ past) place = past.entryAt place := by
  rw [entryAt, entryAt, List.reverse_append, List.getElem?_append_left (by simpa using hplace)]

/-- What was entered stays where it is. -/
theorem entryAt_append (recent : Diary) {place : Nat} {incident : Incident}
    (hentry : past.entryAt place = some incident) :
    entryAt (recent ++ past) place = some incident :=
  (entryAt_of_lt recent (lt_of_entryAt hentry)).trans hentry

theorem entryAt_head (past : Diary) (incident : Incident) :
    entryAt (incident :: past) past.length = some incident := by
  simp [entryAt]

/-- A call is made in the name of a delivery that came before. -/
theorem Orderly.lt_of_called (horderly : past.Orderly) {delivery target : Nat} {r : Recipient}
    (hcalled : .called delivery target r ∈ past) : delivery < past.length := by
  induction past with
  | nil => cases hcalled
  | cons incident past ih =>
      rcases List.mem_cons.mp hcalled with hnow | hbefore
      · subst hnow
        obtain ⟨places, place, e, htook, -⟩ := horderly.1.1
        exact Nat.lt_succ_of_lt (lt_of_entryAt htook)
      · exact Nat.lt_succ_of_lt (ih horderly.2 hbefore)

/-! ### Who stands -/

theorem standing_place (past : Diary) :
    ∀ entry ∈ past.standing, past.entryAt entry.1 = some (.enrolled entry.2) := by
  induction past with
  | nil => exact nofun
  | cons incident past ih =>
      intro entry hentry
      have hlater : ∀ entry ∈ standing past,
          entryAt (incident :: past) entry.1 = some (.enrolled entry.2) :=
        fun entry hmem => entryAt_append [incident] (ih entry hmem)
      cases incident with
      | enrolled e =>
          rcases List.mem_cons.mp hentry with hnew | hold
          · rw [hnew]
            exact entryAt_head past _
          · exact hlater entry hold
      | left place => exact hlater entry (List.mem_of_mem_filter hentry)
      | took places => exact hlater entry hentry
      | called delivery target r => exact hlater entry hentry
      | asked r => exact hlater entry hentry

/-- Subscriptions that stand came at places of their own. -/
theorem nodup_standing (past : Diary) : (past.standing.map Prod.fst).Nodup := by
  induction past with
  | nil => exact List.nodup_nil
  | cons incident past ih =>
      cases incident with
      | enrolled e =>
          refine List.nodup_cons.mpr ⟨fun hmem => ?_, ih⟩
          obtain ⟨entry, hentry, hplace⟩ := List.mem_map.mp hmem
          have hlt := lt_of_entryAt (standing_place past entry hentry)
          omega
      | left place => exact ih.sublist (List.filter_sublist.map Prod.fst)
      | took places => exact ih
      | called delivery target r => exact ih
      | asked r => exact ih

theorem standing_lefts (past : Diary) (gone : Roll) :
    standing ((gone.map fun entry => .left entry.1) ++ past) =
      past.standing.filter fun entry => entry.1 ∉ gone.map Prod.fst := by
  induction gone with
  | nil => simp
  | cons entry rest ih =>
      simp only [List.map_cons, List.cons_append, standing, ih, List.filter_filter]
      congr 1
      funext other
      simp only [List.mem_cons, not_or, Bool.decide_and, ne_eq]

theorem map_standing_enrolled (past : Diary) (es : List Enrolment) :
    (standing (es.map .enrolled ++ past)).map Prod.snd = es ++ past.standing.map Prod.snd := by
  induction es with
  | nil => rfl
  | cons e rest ih => simp [standing, ih]

theorem lt_of_mem_standing {place : Nat} (hplace : place ∈ past.standing.map Prod.fst) :
    place < past.length := by
  obtain ⟨entry, hentry, rfl⟩ := List.mem_map.mp hplace
  exact lt_of_entryAt (standing_place past entry hentry)

/-- Who has left came before. -/
theorem Orderly.lt_of_left (horderly : past.Orderly) {place : Nat} (hleft : .left place ∈ past) :
    place < past.length := by
  induction past with
  | nil => cases hleft
  | cons incident past ih =>
      rcases List.mem_cons.mp hleft with hnow | hbefore
      · subst hnow
        exact Nat.lt_succ_of_lt (lt_of_mem_standing horderly.1)
      · exact Nat.lt_succ_of_lt (ih horderly.2 hbefore)

/-- A subscription that stands has not left. -/
theorem Orderly.not_left (horderly : past.Orderly) :
    ∀ place ∈ past.standing.map Prod.fst, .left place ∉ past := by
  induction past with
  | nil => exact nofun
  | cons incident past ih =>
      intro place hplace
      have hlater := ih horderly.2
      rw [List.mem_cons, not_or]
      cases incident with
      | enrolled e =>
          refine ⟨nofun, ?_⟩
          rcases List.mem_cons.mp hplace with hnew | hold
          · intro hleft
            have hlt := horderly.2.lt_of_left hleft
            omega
          · exact hlater place hold
      | left other =>
          obtain ⟨entry, hentry, rfl⟩ := List.mem_map.mp hplace
          obtain ⟨hentry, hother⟩ := List.mem_filter.mp hentry
          refine ⟨fun heq => ?_, hlater _ (List.mem_map_of_mem hentry)⟩
          cases heq
          simp at hother
      | took places => exact ⟨nofun, hlater place hplace⟩
      | called delivery target r => exact ⟨nofun, hlater place hplace⟩
      | asked r => exact ⟨nofun, hlater place hplace⟩

theorem Orderly.enrolled (horderly : past.Orderly) (es : List Enrolment) :
    Orderly (es.map .enrolled ++ past) := by
  induction es with
  | nil => exact horderly
  | cons e rest ih => exact ⟨trivial, ih⟩

/-- Subscriptions that are there can leave one after the other. -/
theorem Orderly.lefts (horderly : past.Orderly) {gone : Roll} (hgone : gone ⊆ past.standing)
    (hplaces : (gone.map Prod.fst).Nodup) :
    Orderly ((gone.map fun entry => .left entry.1) ++ past) := by
  induction gone with
  | nil => exact horderly
  | cons entry rest ih =>
      obtain ⟨hentry, hrest⟩ := List.cons_subset.mp hgone
      obtain ⟨hnew, hplaces⟩ := List.nodup_cons.mp hplaces
      have hstays : entry ∈ standing ((rest.map fun entry => .left entry.1) ++ past) := by
        rw [standing_lefts]
        exact List.mem_filter.mpr ⟨hentry, decide_eq_true hnew⟩
      exact ⟨List.mem_map_of_mem hstays, ih hrest hplaces⟩

/-! ### Bringing a diary up to date -/

section BringUp

variable (past : Diary) (present : List Enrolment)

/-- **A diary that is up to date knows who is there.** -/
theorem standing_bringUp :
    ((past.bringUp present).standing.map Prod.snd).Perm present := by
  unfold bringUp
  simp only [List.append_assoc]
  rw [map_standing_enrolled, standing_lefts]
  refine List.perm_append_comm.trans ?_
  have hstay := Roll.perm_stay (nodup_standing past) (Roll.pairOff_subperm past.standing present)
  exact ((hstay.map Prod.snd).append_right _).trans (Roll.pairOff_perm past.standing present)

/-- Bringing a diary up to date only tells who came and who left. -/
theorem bringUp_eq : ∃ recent, past.bringUp present = recent ++ past ∧
    ∀ delivery target r, .called delivery target r ∉ recent :=
  ⟨_, rfl, by simp⟩

end BringUp

theorem Orderly.bringUp (horderly : past.Orderly) (present : List Enrolment) :
    (past.bringUp present).Orderly := by
  unfold Diary.bringUp
  simp only [List.append_assoc]
  refine (horderly.lefts List.filter_sublist.subset ?_).enrolled _
  exact (nodup_standing past).sublist (List.filter_sublist.map Prod.fst)

end Diary

end Subscription
