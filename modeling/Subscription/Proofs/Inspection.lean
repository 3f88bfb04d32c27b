import Subscription.Proofs.AnyLock
import Subscription.Proofs.ArbitraryBytes
import Subscription.Proofs.Reopening

/-!
# Reading whoever has the lock

What whoever reads a file is told depends on the lock at its start and on the bytes behind it
(`Content.told`): the lock may be out of reach for as long as one waits (`Content.obstacle`), and
otherwise the content is told as if nobody else were there.

Reading leaves a mark in the mutex at most (`Content.Marked`), and a mark does not show: whoever
reads afterwards is told the same (`Content.Marked.told_eq`).  For hosts this is
`Host.Inspected`: names are as before, and each file is, but for its mark.
-/

namespace Subscription

open LockLayout

/-! ## What a content tells one who asks for its lock -/

namespace Content

variable {c c' c₁ : Content} {kind : HeaderKind} {s : Segment}

/-- A lock at the start of a content where the main party is on record if it can take the mutex
once more, and where one more reader can be counted. -/
structure IsApproachable (c : Content) : Prop where
  record : (c.lockAt lockOffset).mutex.IsOnRecord mainParty
  room : (c.lockAt lockOffset).readers ≠ RwLock.maxReaders

/-- Two contents that differ at most in the words of the mutex at their start, which the main
party has tried to have; where there is no room for that lock, they do not differ. -/
structure Marked (c c' : Content) : Prop where
  short : c.length < lockSize → c' = c
  long : lockSize ≤ c.length → c.MarkedAt mainParty lockOffset c'

/-- Why a reader does not get the lock at the start of a content, if there is one. -/
def obstacle (c : Content) : Option Error :=
  if lockSize ≤ c.length then
    (c.lockAt lockOffset).mutex.hindrance mainParty .read "EventReader::read"
  else none

/-- What comes of one attempt to read, when the lock has to be had. -/
def outcome (c : Content) (kind : HeaderKind) (s : Segment) :
    Except Error (Except Fault Snapshot) :=
  match c.obstacle with
  | some e => .error e
  | none => c.verdict kind s

/-- What whoever reads is told in the end, when the lock has to be had. -/
def told (c : Content) (kind : HeaderKind) (s : Segment) : Except Error Snapshot :=
  Segment.lastWord (c.outcome kind s)

namespace Marked

theorem refl (c : Content) : c.Marked c where
  short _ := rfl
  long _ :=
    { toSameApart := .refl c
      mutex := .refl (c.fits_mutexAt lockOffset)
      queue := rfl
      readers := rfl }

theorem length (hmarked : c.Marked c') : c'.length = c.length := by
  by_cases hin : lockSize ≤ c.length
  · exact (hmarked.long hin).length
  · rw [hmarked.short (Nat.lt_of_not_le hin)]

theorem trans (hfirst : c.Marked c₁) (hsecond : c₁.Marked c') : c.Marked c' where
  short hshort := (hsecond.short (hfirst.length.symm ▸ hshort)).trans (hfirst.short hshort)
  long hin := (hfirst.long hin).trans (hsecond.long (hfirst.length.symm ▸ hin))

theorem approachable (hmarked : c.Marked c') (hin : lockSize ≤ c.length)
    (happroachable : c.IsApproachable) : c'.IsApproachable where
  record := (hmarked.long hin).mutex.record happroachable.record
  room := by
    rw [(hmarked.long hin).readers]
    exact happroachable.room

/-- **A mark does not show**: whoever reads afterwards is told the same. -/
theorem outcome_eq (hmarked : c.Marked c') (kind : HeaderKind) (s : Segment) :
    c'.outcome kind s = c.outcome kind s := by
  by_cases hin : lockSize ≤ c.length
  · have hlong := hmarked.long hin
    have hobstacle : c'.obstacle = c.obstacle := by
      rw [obstacle, obstacle, if_pos hin, if_pos (hmarked.length ▸ hin), hlong.mutex.hindrance]
    have hverdict : c'.verdict kind s = c.verdict kind s :=
      verdict_congr fun i hi _ => hlong.byte i (isApart_of_le hi)
    rw [outcome, outcome, hobstacle, hverdict]
  · rw [hmarked.short (Nat.lt_of_not_le hin)]

/-- A mark is left in no other word than those of the mutex. -/
theorem byte_eq (hmarked : c.Marked c') {i : Nat} (hi : ¬ IsMutexWord lockOffset i) :
    c'.byte i = c.byte i := by
  by_cases hin : lockSize ≤ c.length
  · exact (hmarked.long hin).byte_eq hi
  · rw [hmarked.short (Nat.lt_of_not_le hin)]

/-- Where nobody has the mutex, no harm is done. -/
theorem unharmed (hmarked : c.Marked c') (hin : lockSize ≤ c.length)
    (hrest : (c.lockAt lockOffset).mutex.IsAtRest) : c.Unharmed c' :=
  ((hmarked.long hin).visited hrest).unharmed hrest hin

theorem told_eq (hmarked : c.Marked c') (kind : HeaderKind) (s : Segment) :
    c'.told kind s = c.told kind s := by
  rw [told, told, hmarked.outcome_eq]

end Marked

end Content

/-! ## Reading a file whose lock somebody may have -/

/-- Where nobody else is to come up. -/
structure Host.IsQuiet (h : Host) : Prop where
  leavers : h.leavers = []
  waiters : h.waiters = []

namespace Segment

variable {h : Host} {file : FileId} {t : Segment} {c : Content} {kind : HeaderKind}

open Content Host

/-- **One attempt to read**, whoever has the lock. -/
theorem exists_tryRead_any (hreg : h.disk.IsRegular file) (hquiet : h.IsQuiet)
    (hfile : t.file = some file) (hin : lockSize ≤ c.length) (happroachable : c.IsApproachable)
    (kind : HeaderKind) {span : Span} (hspan : span.seconds.toNat < 0x8000000000000000) :
    ∃ h' c', tryRead kind span span ⟨t, h.withContent file c⟩ =
        ofExcept ((c.outcome kind (t.fittedTo c.length)).mapError .error)
          ⟨t.fittedTo c.length, h'.withContent file c'⟩ ∧ h.Later h' ∧ c.Marked c' := by
  obtain ⟨ht, htry⟩ := tryRead_of_le hreg hfile hin kind span span
  have hextent : lockOffset + lockExtent ≤ c.length := Nat.le_trans (by decide) hin
  have hlimit : 0 ≤ (deadline h.now (span.shorter span)).toNanos := by
    have hsame : span.shorter span = span := by
      unfold Span.shorter
      split <;> rfl
    rw [hsame]
    exact toNanos_deadline_nonneg (Int.natCast_nonneg _) hspan
  have hmarked : ∀ {c'}, c.MarkedAt mainParty lockOffset c' → c.Marked c' :=
    fun hlong => ⟨fun hshort => absurd hin (Nat.not_le.2 hshort), fun _ => hlong⟩
  obtain ⟨e, h', c', hhindrance, hlock, hlater, hlong⟩ |
    ⟨hfree, h', c₁, c₂, hlock, hunlock, hlater, hsame, hlong⟩ :=
      lockRead_any hreg hextent hquiet.leavers hquiet.waiters happroachable.record
        happroachable.room hlimit "EventReader::read"
  · refine ⟨h', c', htry.trans ?_, hlater, hmarked hlong⟩
    rw [outcome, obstacle, if_pos hin, hhindrance]
    exact withReadLock_refused ht hlock _
  · refine ⟨h', c₂, htry.trans ?_, hlater, hmarked hlong⟩
    rw [outcome, obstacle, if_pos hin, hfree]
    exact withReadLock_had ht hlock hunlock
      (copyEvent_apart (by rwa [hlater.disk]) ht kind hsame)

/-- **Whoever reads is told something**, whoever has the lock, and leaves a mark at most. -/
theorem exists_readEvent_any (hreg : h.disk.IsRegular file) (hquiet : h.IsQuiet)
    (hfile : t.file = some file) (hin : lockSize ≤ c.length) (happroachable : c.IsApproachable)
    (kind : HeaderKind) {span : Span} (hspan : span.seconds.toNat < 0x8000000000000000) :
    ∃ h' c', readEvent kind span span ⟨t, h.withContent file c⟩ =
        ofExcept ((c.told kind (t.fittedTo c.length)).mapError .error)
          ⟨t.fittedTo c.length, h'.withContent file c'⟩ ∧ h.Later h' ∧ c.Marked c' := by
  obtain ⟨h₁, c₁, hfirst, hlater₁, hmarked₁⟩ :=
    exists_tryRead_any hreg hquiet hfile hin happroachable kind hspan
  obtain ⟨h₂, c₂, hsecond, hlater₂, hmarked₂⟩ := exists_tryRead_any (h := h₁) (c := c₁)
    (by rwa [hlater₁.disk])
    ⟨hlater₁.leavers.trans hquiet.leavers, hlater₁.waiters.trans hquiet.waiters⟩
    ((t.file_fittedTo c.length).trans hfile) (hmarked₁.length ▸ hin)
    (hmarked₁.approachable hin happroachable) kind hspan
  rw [hmarked₁.length, fittedTo_fittedTo, hmarked₁.outcome_eq] at hsecond
  obtain ⟨last, hlast, hread⟩ := exists_readEvent_of_tryRead hfirst hsecond
  obtain rfl | rfl := hlast
  · exact ⟨h₁, c₁, hread, hlater₁, hmarked₁⟩
  · exact ⟨h₂, c₂, hread, hlater₁.trans hlater₂, hmarked₁.trans hmarked₂⟩

/-- A file without room for a lock is at fault, pipe or not, and stays as it is. -/
theorem readEvent_of_lt (hfile : t.file = some file)
    (hshort : (h.disk.content file).length < lockSize) (kind : HeaderKind) (span : Span) :
    readEvent kind span span ⟨t, h⟩ =
      ofExcept (((h.disk.content file).told kind
        (t.fittedTo (h.disk.content file).length)).mapError .error)
        ⟨t.fittedTo (h.disk.content file).length, h⟩ := by
  have hfirst := tryRead_of_lt hfile hshort kind span span
  have hsecond := tryRead_of_lt ((t.file_fittedTo (h.disk.content file).length).trans hfile)
    hshort kind span span
  rw [fittedTo_fittedTo] at hsecond
  obtain ⟨last, hlast, hread⟩ := exists_readEvent_of_tryRead hfirst hsecond
  have hobstacle : (h.disk.content file).obstacle = none := if_neg (Nat.not_le.2 hshort)
  rw [told, outcome, hobstacle]
  obtain rfl | rfl := hlast <;> exact hread

end Segment

/-! ## What is left of a listing -/

/-- A file, and what is left of it by whoever has read it: marks in the mutex at its start, and
nothing else.  A pipe that nobody has open loses what is in it when it is closed again. -/
inductive FileNode.Inspected : FileNode → FileNode → Prop where
  | regular {mode : Nat} {c c' : Content} (marked : c.Marked c') :
      Inspected (.regular mode c) (.regular mode c')
  | fifo {mode pending pending' readers : Nat}
      (left : pending' = pending ∨ readers = 0 ∧ pending' = 0) :
      Inspected (.fifo mode pending readers) (.fifo mode pending' readers)

/-- Two hosts, of which the second one is what is left of the first one when some files have been
read. -/
structure Host.Inspected (isRead : FileId → Prop) (h h' : Host) : Prop where
  entries : h'.disk.entries = h.disk.entries
  others : ∀ id, ¬ isRead id → h'.disk.file? id = h.disk.file? id
  files : ∀ id, Option.Rel FileNode.Inspected (h.disk.file? id) (h'.disk.file? id)
  leavers : h'.leavers = h.leavers
  waiters : h'.waiters = h.waiters

namespace FileNode

variable {node node₁ node₂ : FileNode}

theorem Inspected.refl (node : FileNode) : node.Inspected node := by
  cases node with
  | regular mode c => exact .regular (.refl c)
  | fifo mode pending readers => exact .fifo (.inl rfl)

theorem Inspected.trans (hfirst : node.Inspected node₁) (hsecond : node₁.Inspected node₂) :
    node.Inspected node₂ := by
  cases hfirst with
  | regular hmarked =>
      cases hsecond with
      | regular hmarked' => exact .regular (hmarked.trans hmarked')
  | fifo hleft =>
      cases hsecond with
      | fifo hleft' =>
          refine .fifo ?_
          obtain rfl | hgone := hleft'
          · exact hleft
          · exact .inr hgone

theorem Inspected.mode_eq (hinspected : node.Inspected node₁) : node₁.mode = node.mode := by
  cases hinspected <;> rfl

theorem rel_trans {place place₁ place₂ : Option FileNode}
    (hfirst : Option.Rel Inspected place place₁) (hsecond : Option.Rel Inspected place₁ place₂) :
    Option.Rel Inspected place place₂ := by
  cases hfirst with
  | none => exact hsecond
  | some hone =>
      cases hsecond with
      | some htwo => exact .some (hone.trans htwo)

end FileNode

namespace Host

variable {h h₁ h₂ : Host} {isRead isRead' : FileId → Prop} {file : FileId}

theorem Inspected.refl (h : Host) : h.Inspected isRead h where
  entries := rfl
  others _ _ := rfl
  files id := by
    cases h.disk.file? id with
    | none => exact .none
    | some node => exact .some (.refl node)
  leavers := rfl
  waiters := rfl

theorem Inspected.trans (hfirst : h.Inspected isRead h₁) (hsecond : h₁.Inspected isRead h₂) :
    h.Inspected isRead h₂ where
  entries := hsecond.entries.trans hfirst.entries
  others id hid := (hsecond.others id hid).trans (hfirst.others id hid)
  files id := FileNode.rel_trans (hfirst.files id) (hsecond.files id)
  leavers := hsecond.leavers.trans hfirst.leavers
  waiters := hsecond.waiters.trans hfirst.waiters

theorem Inspected.mono (hmore : ∀ id, isRead id → isRead' id) (hinspected : h.Inspected isRead h₁) :
    h.Inspected isRead' h₁ where
  entries := hinspected.entries
  others id hid := hinspected.others id fun hread => hid (hmore id hread)
  files := hinspected.files
  leavers := hinspected.leavers
  waiters := hinspected.waiters

theorem Inspected.quiet (hinspected : h.Inspected isRead h₁) (hquiet : h.IsQuiet) : h₁.IsQuiet where
  leavers := hinspected.leavers.trans hquiet.leavers
  waiters := hinspected.waiters.trans hquiet.waiters

theorem Inspected.content (hinspected : h.Inspected isRead h₁) (file : FileId) :
    (h.disk.content file).Marked (h₁.disk.content file) := by
  have hnodes := hinspected.files file
  rw [Disk.content, Disk.content]
  generalize h.disk.file? file = node at hnodes ⊢
  generalize h₁.disk.file? file = node' at hnodes ⊢
  cases hnodes with
  | none => exact .refl _
  | some hrel =>
      cases hrel with
      | regular hmarked => exact hmarked
      | fifo => exact .refl _

/-- A file is still there. -/
theorem Inspected.exists_node (hinspected : h.Inspected isRead h₁) {id : FileId} {node : FileNode}
    (hfile : h.disk.file? id = some node) :
    ∃ node', h₁.disk.file? id = some node' ∧ node.Inspected node' := by
  have hnodes := hinspected.files id
  rw [hfile] at hnodes
  generalize h₁.disk.file? id = place at hnodes ⊢
  cases hnodes with
  | some hnode => exact ⟨_, rfl, hnode⟩

theorem Inspected.regular (hinspected : h.Inspected isRead h₁) {id : FileId} {mode : Nat}
    {c : Content} (hfile : h.disk.file? id = some (.regular mode c)) :
    ∃ c', h₁.disk.file? id = some (.regular mode c') ∧ c.Marked c' := by
  obtain ⟨node', hfile', hnode⟩ := hinspected.exists_node hfile
  cases hnode with
  | regular hmarked => exact ⟨_, hfile', hmarked⟩

/-- A pipe that holds nothing unless somebody has it open is as before. -/
theorem Inspected.pipe (hinspected : h.Inspected isRead h₁) {id : FileId}
    {mode pending readers : Nat} (hfile : h.disk.file? id = some (.fifo mode pending readers))
    (hsound : readers = 0 → pending = 0) : h₁.disk.file? id = h.disk.file? id := by
  obtain ⟨node', hfile', hnode⟩ := hinspected.exists_node hfile
  rw [hfile', hfile]
  cases hnode with
  | fifo hleft =>
      obtain rfl | hgone := hleft
      · rfl
      · rw [hgone.2, hsound hgone.1]

/-- What can be opened still can. -/
theorem Inspected.openFile_eq (hinspected : h.Inspected isRead h₁) (path : String)
    (access : Access) : h₁.disk.openFile path access = h.disk.openFile path access := by
  have hallows : ∀ id, h₁.disk.allows id access = h.disk.allows id access := by
    intro id
    have hnodes := hinspected.files id
    rw [Disk.allows, Disk.allows]
    generalize h.disk.file? id = node at hnodes ⊢
    generalize h₁.disk.file? id = node' at hnodes ⊢
    cases hnodes with
    | none => rfl
    | some hrel => simp only [Option.all_some, hrel.mode_eq]
  simp only [Disk.openFile, Disk.find_congr hinspected.entries, hallows]

/-- One file has been read. -/
theorem inspected_of_node (hentries : h₁.disk.entries = h.disk.entries)
    (hothers : ∀ id, id ≠ file → h₁.disk.file? id = h.disk.file? id)
    (hfile : Option.Rel FileNode.Inspected (h.disk.file? file) (h₁.disk.file? file))
    (hleavers : h₁.leavers = h.leavers) (hwaiters : h₁.waiters = h.waiters) :
    h.Inspected (· = file) h₁ where
  entries := hentries
  others := hothers
  files id := by
    by_cases hid : id = file
    · rw [hid]
      exact hfile
    · rw [hothers id hid]
      have hsame : h.Inspected (· = file) h := .refl h
      exact hsame.files id
  leavers := hleavers
  waiters := hwaiters

/-- A regular file whose lock was asked for. -/
theorem inspected_withContent (hreg : h.disk.IsRegular file) (hlater : h.Later h₁) {c : Content}
    (hmarked : (h.disk.content file).Marked c) :
    h.Inspected (· = file) (h₁.withContent file c) := by
  have hdisk : (h₁.withContent file c).disk = h.disk.modifyContent file fun _ => c := by
    rw [← hlater.disk]
    rfl
  obtain ⟨mode, c₀, hfile⟩ := hreg
  refine inspected_of_node ?_ (fun id hid => ?_) ?_ hlater.leavers hlater.waiters
  · rw [hdisk]
    rfl
  · rw [hdisk]
    exact Disk.file?_modifyFile_of_ne _ hid
  · rw [Disk.content, hfile] at hmarked
    rw [hdisk, Disk.modifyContent, Disk.file?_modifyFile_same, hfile]
    exact .some (.regular hmarked)

/-- A file that is opened and closed again. -/
theorem inspected_attach_detach (h : Host) (file : FileId) :
    h.Inspected (· = file) { h with disk := (h.disk.attach file).detach file } := by
  refine inspected_of_node rfl (fun id hid => ?_) ?_ rfl rfl
  · exact (Disk.file?_modifyFile_of_ne _ hid).trans (Disk.file?_modifyFile_of_ne _ hid)
  · rw [Disk.detach, Disk.file?_modifyFile_same, Disk.attach, Disk.file?_modifyFile_same]
    cases h.disk.file? file with
    | none => exact .none
    | some node =>
        refine .some ?_
        cases node with
        | regular mode c => exact .refl _
        | fifo mode pending readers =>
            refine .fifo ?_
            by_cases hnobody : readers = 0
            · exact .inr ⟨hnobody, by simp [hnobody]⟩
            · exact .inl (if_neg (by omega))

end Host

end Subscription
