import Mathlib.Logic.Function.Basic
import Subscription.Config.Basic
import Subscription.Proofs.Collections
import Subscription.Proofs.Opening
import Subscription.Proofs.SegmentName

/-!
# The directory of the segments

The segments lie side by side in a directory that holds nothing but files
(`Disk.IsShelf`).  What stands in it is a function from keys to files
(`Disk.standing`), and this is how the operations on segments are seen from here:

* a path leads into the directory or nowhere (`Disk.IsShelf.destination_eq`): there is
  no other directory that a module name with slashes in it could lead to;
* making a file and taking its name away changes the function at one key, and the
  directory stays what it is (`Disk.IsShelf.update`), since no two keys share a
  name;
* opening a subscription segment is one of three things (`openSubscription_shelf`);
* removing a segment that stands succeeds (`removeQuietly_shelf`), and removing one that
  does not changes nothing (`removeQuietly_absent`).
-/

namespace Subscription

namespace Path

/-- The pieces of a path that say something. -/
def steps (path : String) : List String := (pieces path).filter fun p => p ≠ ""

theorem endsWith_slash_iff {text : String} :
    text.endsWith "/" = true ↔ ∃ front, text.toList = front ++ ['/'] := by
  rw [← String.endsWith_toSlice, String.Slice.endsWith_string_iff, String.copy_toSlice]
  constructor
  · rintro ⟨front, hfront⟩
    exact ⟨front, hfront.symm⟩
  · rintro ⟨front, hfront⟩
    exact ⟨front, hfront.symm⟩

/-- A joined path ends like the name. -/
theorem toList_join (directory name : String) :
    ∃ front, (join directory name).toList = front ++ name.toList := by
  unfold join
  split
  · exact ⟨[], rfl⟩
  · split
    · exact ⟨[], rfl⟩
    · split
      · exact ⟨directory.toList, String.toList_append⟩
      · exact ⟨directory.toList ++ ['/'], by simp⟩

/-- A name is looked for in the directory that it is joined to. -/
theorem steps_join {directory name : String} (hname : name.startsWith "/" = false) :
    steps (join directory name) = steps directory ++ steps name := by
  unfold join
  rw [if_neg (by simp [hname])]
  split
  · rename_i hempty
    rw [String.isEmpty_iff.1 hempty]
    rfl
  · split
    · rename_i hends
      obtain ⟨front, hdirectory⟩ := endsWith_slash_iff.1 hends
      simp [steps, pieces, hdirectory, List.splitOn_append_cons_self]
    · simp [steps, pieces, List.splitOn_append_cons_self]

end Path

namespace SegmentKey

/-- The name of a segment can be that of a file in the directory. -/
structure Fits (directory : String) (key : SegmentKey) : Prop where
  single : '/' ∉ key.name.toList
  short : key.name.utf8ByteSize ≤ maxNameLength
  within : (Path.join directory key.name).utf8ByteSize < maxPathLength

variable {key : SegmentKey}

theorem startsWith_name (key : SegmentKey) : key.name.startsWith "/" = false := by
  simp [toList_name]

theorem name_ne_dots (key : SegmentKey) : key.name ≠ "." ∧ key.name ≠ ".." := by
  constructor <;> exact fun heq => by simpa [toList_name] using congrArg String.toList heq

theorem ne_empty_of_toList {text : String} {c : Char} (hc : c ∈ text.toList) : text ≠ "" := by
  rintro rfl
  simp at hc

/-- A name without a slash is one step. -/
theorem steps_name (hsingle : '/' ∉ key.name.toList) : Path.steps key.name = [key.name] := by
  have hne : key.name ≠ "" := ne_empty_of_toList (c := 's') (by simp [toList_name])
  simp [Path.steps, Path.pieces, List.splitOn_eq_singleton hsingle, hne]

/-- What does not end in a slash has a last piece. -/
theorem exists_piece {text : List Char} {c : Char} (hlast : text.getLast? = some c)
    (hc : c ≠ '/') : ∃ piece ∈ text.splitOn '/', piece ≠ [] := by
  induction text with
  | nil => simp at hlast
  | cons x rest ih =>
      rw [List.splitOn_cons_eq_if_modifyHead]
      by_cases hx : x = '/'
      · subst hx
        cases rest with
        | nil =>
            simp only [List.getLast?_singleton, Option.some.injEq] at hlast
            exact absurd hlast.symm hc
        | cons y rest =>
            obtain ⟨piece, hpiece, hne⟩ := ih (by simpa using hlast)
            exact ⟨piece, by simp [hpiece], hne⟩
      · rw [if_neg (by simpa using hx)]
        cases hsplit : rest.splitOn '/' with
        | nil => exact absurd hsplit (List.splitOn_ne_nil _ _)
        | cons piece more => exact ⟨x :: piece, by simp, by simp⟩

/-- A name with a slash goes through a directory, and the name of that begins
like the name of a segment. -/
theorem steps_name_of_mem (hslash : '/' ∈ key.name.toList) :
    ∃ first second rest, Path.steps key.name = first :: second :: rest ∧
      first ≠ "." ∧ first ≠ ".." := by
  obtain ⟨front, back, hsplit, hfront⟩ := List.eq_append_cons_of_mem hslash
  have hback : ∃ c, back.getLast? = some c ∧ c ≠ '/' := by
    obtain ⟨c, hlast, hc⟩ := getLast?_name key
    rw [hsplit, List.getLast?_append_cons] at hlast
    cases back with
    | nil =>
        simp only [List.getLast?_singleton, Option.some.injEq] at hlast
        exact absurd hlast.symm hc
    | cons x rest => exact ⟨c, by simpa using hlast, hc⟩
  obtain ⟨more, hs⟩ : ∃ more, front = 's' :: more := by
    cases front with
    | nil => simp [toList_name] at hsplit
    | cons x more =>
        have hx : 's' = x := by
          rw [toList_name] at hsplit
          exact List.head_eq_of_cons_eq hsplit
        exact ⟨more, by rw [hx]⟩
  obtain ⟨c, hlast, hc⟩ := hback
  obtain ⟨piece, hpiece, hne⟩ := exists_piece hlast hc
  have hsteps : Path.steps key.name =
      String.ofList front :: ((back.splitOn '/').map String.ofList).filter fun p => p ≠ "" := by
    rw [Path.steps, Path.pieces, hsplit, List.splitOn_append_cons_self_of_not_mem hfront,
      List.map_cons, List.filter_cons_of_pos]
    simp [hs]
  cases hrest : ((back.splitOn '/').map String.ofList).filter fun p => p ≠ "" with
  | nil =>
      have hempty := List.filter_eq_nil_iff.1 hrest (String.ofList piece)
        (List.mem_map_of_mem hpiece)
      exact absurd hempty (by simpa using hne)
  | cons second rest =>
      rw [hrest] at hsteps
      refine ⟨String.ofList front, second, rest, hsteps, ?_, ?_⟩ <;>
        exact fun heq => by simpa [hs] using congrArg String.toList heq

end SegmentKey

namespace Disk

variable {d d' : Disk} {directory : String} {location : Location} {key : SegmentKey}
variable {id : FileId}

/-- The directory that some pieces of a path lead to from another one. -/
def enter (d : Disk) (location : Location) (pieces : List String) : Except Errno Location :=
  pieces.foldlM d.descend location

/-- Where the path of a directory leads, there is a directory with nothing but
files in it. -/
structure IsShelf (d : Disk) (directory : String) (location : Location) : Prop where
  reached : d.enter [] (Path.steps directory) = .ok location
  flat : ∀ name, d.entryAt (location ++ [name]) ≠ some .directory

/-- The files in a directory, by the keys of the segments. -/
def standing (d : Disk) (directory : String) (key : SegmentKey) : Option FileId :=
  d.fileAt (Path.join directory key.name)

/-! ## Where the paths lead -/

theorem walk_cons {slash : Bool} {piece : String} {rest : List String} (hrest : rest ≠ []) :
    d.walk slash location (piece :: rest) =
      (d.descend location piece).bind fun next => d.walk slash next rest := by
  cases rest with
  | nil => exact absurd rfl hrest
  | cons p more => rfl

/-- A path is followed through the directories at its front. -/
theorem walk_append {slash : Bool} {next : Location} {front back : List String}
    (hback : back ≠ []) (henter : d.enter location front = .ok next) :
    d.walk slash location (front ++ back) = d.walk slash next back := by
  induction front generalizing location with
  | nil =>
      have hsame : location = next := by simpa [enter, pure, Except.pure] using henter
      rw [hsame, List.nil_append]
  | cons piece rest ih =>
      rw [List.cons_append, walk_cons (by simp [hback])]
      unfold enter at henter
      rw [List.foldlM_cons] at henter
      cases hdescend : d.descend location piece with
      | error e => simp [hdescend, bind, Except.bind] at henter
      | ok mid =>
          rw [hdescend] at henter
          exact ih henter

section Added

variable (hkept : ∀ l, d.entryAt l = some .directory → d'.entryAt l = some .directory)

include hkept

/-- What leads into a directory still does where directories have only been
added. -/
theorem descend_mono {piece : String} {next : Location}
    (hdescend : d.descend location piece = .ok next) : d'.descend location piece = .ok next := by
  unfold descend at hdescend ⊢
  split at hdescend
  · rwa [if_pos ‹_›]
  · split at hdescend
    · rwa [if_neg ‹_›, if_pos ‹_›]
    · split at hdescend
      · cases hdescend
      · rw [if_neg ‹_›, if_neg ‹_›, if_neg ‹_›]
        cases hentry : d.entryAt (location ++ [piece]) with
        | none => simp [hentry] at hdescend
        | some entry =>
            cases entry with
            | file id => simp [hentry] at hdescend
            | directory =>
                rw [hkept _ hentry]
                simpa [hentry] using hdescend

theorem enter_mono {next : Location} {pieces : List String}
    (henter : d.enter location pieces = .ok next) : d'.enter location pieces = .ok next := by
  induction pieces generalizing location with
  | nil => exact henter
  | cons piece rest ih =>
      unfold enter at henter ⊢
      rw [List.foldlM_cons] at henter ⊢
      cases hdescend : d.descend location piece with
      | error e => simp [hdescend, bind, Except.bind] at henter
      | ok mid =>
          rw [hdescend] at henter
          rw [descend_mono hkept hdescend]
          exact ih henter

theorem walk_mono {slash : Bool} {pieces : List String} {dest : Destination}
    (hwalk : d.walk slash location pieces = .ok dest) :
    d'.walk slash location pieces = .ok dest := by
  induction pieces generalizing location with
  | nil => exact hwalk
  | cons piece rest ih =>
      by_cases hlast : rest = []
      · subst hlast
        exact hwalk
      · rw [walk_cons hlast] at hwalk ⊢
        cases hdescend : d.descend location piece with
        | error e =>
            rw [hdescend] at hwalk
            cases hwalk
        | ok mid =>
            rw [hdescend] at hwalk
            rw [descend_mono hkept hdescend]
            exact ih hwalk

/-- A path that leads somewhere still does. -/
theorem target_mono {path : String} {dest : Destination} (htarget : d.target path = .ok dest) :
    d'.target path = .ok dest := by
  unfold target at htarget ⊢
  split at htarget
  · cases htarget
  · rw [if_neg ‹_›]
    split at htarget
    · cases htarget
    · rw [if_neg ‹_›]
      exact walk_mono hkept htarget

end Added

theorem lookupName_of_fits (d : Disk) (location : Location) (hfits : key.Fits directory) :
    d.lookupName location key.name = .ok (d.entryAt (location ++ [key.name])) := by
  rw [lookupName, if_neg (Nat.not_lt.2 hfits.short)]

namespace IsShelf

variable (hshelf : d.IsShelf directory location)

include hshelf

/-- The path of a segment leads through the directory. -/
theorem target_eq (key : SegmentKey)
    (hwithin : (Path.join directory key.name).utf8ByteSize < maxPathLength) :
    d.target (Path.join directory key.name) =
      d.walk false location (Path.steps key.name) := by
  obtain ⟨front, hfront⟩ := Path.toList_join directory key.name
  have hopen : (Path.join directory key.name).endsWith "/" = false := by
    rw [← Bool.not_eq_true, Path.endsWith_slash_iff]
    rintro ⟨other, hother⟩
    obtain ⟨c, hlast, hc⟩ := SegmentKey.getLast?_name key
    have hends := congrArg List.getLast? (hfront.symm.trans hother)
    rw [List.getLast?_append, hlast, List.getLast?_concat] at hends
    exact hc (by simpa using hends)
  have hnonempty : (Path.join directory key.name).isEmpty = false := by
    rw [String.isEmpty_eq_false_iff]
    exact SegmentKey.ne_empty_of_toList (c := 's') (by simp [hfront, SegmentKey.toList_name])
  have hsteps : Path.steps key.name ≠ [] := by
    by_cases hslash : '/' ∈ key.name.toList
    · obtain ⟨first, second, rest, hsteps, -⟩ := SegmentKey.steps_name_of_mem hslash
      simp [hsteps]
    · simp [SegmentKey.steps_name hslash]
  unfold target
  rw [if_neg (by simp [hnonempty]), if_neg (Nat.not_le.2 hwithin), hopen]
  change d.walk false [] (Path.steps _) = _
  rw [Path.steps_join (SegmentKey.startsWith_name key), walk_append hsteps hshelf.reached]

/-- A name that fits is one in the directory. -/
theorem target_of_fits (hfits : key.Fits directory) :
    d.target (Path.join directory key.name) = .ok (.name location key.name false) := by
  rw [hshelf.target_eq key hfits.within, SegmentKey.steps_name hfits.single, walk,
    if_neg (SegmentKey.name_ne_dots key).1, if_neg (SegmentKey.name_ne_dots key).2]

/-- A path that leads anywhere leads into the directory. -/
theorem destination_eq {dest : Destination}
    (htarget : d.target (Path.join directory key.name) = .ok dest) :
    '/' ∉ key.name.toList ∧ (Path.join directory key.name).utf8ByteSize < maxPathLength ∧
      dest = .name location key.name false := by
  have hwithin : (Path.join directory key.name).utf8ByteSize < maxPathLength := by
    unfold target at htarget
    split at htarget
    · cases htarget
    · split at htarget
      · cases htarget
      · exact Nat.not_le.1 ‹_›
  rw [hshelf.target_eq key hwithin] at htarget
  by_cases hslash : '/' ∈ key.name.toList
  · exfalso
    obtain ⟨first, second, rest, hsteps, hdot, hdots⟩ := SegmentKey.steps_name_of_mem hslash
    rw [hsteps, walk_cons (by simp), descend, if_neg hdot, if_neg hdots] at htarget
    split at htarget
    · cases htarget
    · -- A directory would have to lie in this one.
      split at htarget
      · exact hshelf.flat first ‹_›
      · cases htarget
      · cases htarget
  · refine ⟨hslash, hwithin, ?_⟩
    rw [SegmentKey.steps_name hslash, walk, if_neg (SegmentKey.name_ne_dots key).1,
      if_neg (SegmentKey.name_ne_dots key).2] at htarget
    cases htarget
    rfl

/-- A name that is looked up at all is one that fits. -/
theorem fits_of_lookup {parent : Location} {last : String} {slash : Bool} {found : Option Entry}
    (htarget : d.target (Path.join directory key.name) = .ok (.name parent last slash))
    (hlookup : d.lookupName parent last = .ok found) :
    key.Fits directory ∧ parent = location ∧ last = key.name ∧
      found = d.entryAt (location ++ [key.name]) := by
  obtain ⟨hsingle, hwithin, hdest⟩ := hshelf.destination_eq htarget
  cases hdest
  unfold lookupName at hlookup
  split at hlookup
  · cases hlookup
  · cases hlookup
    exact ⟨⟨hsingle, Nat.not_lt.1 ‹_›, hwithin⟩, rfl, rfl, rfl⟩

/-- **What stands in the directory is what the names in it stand for.** -/
theorem standing_eq_some_iff :
    d.standing directory key = some id ↔
      key.Fits directory ∧ d.entryAt (location ++ [key.name]) = some (.file id) := by
  constructor
  · intro hstanding
    unfold standing fileAt find at hstanding
    cases htarget : d.target (Path.join directory key.name) with
    | error e => simp [htarget, bind, Except.bind] at hstanding
    | ok dest =>
        obtain ⟨hsingle, hwithin, rfl⟩ := hshelf.destination_eq htarget
        cases hlookup : d.lookupName location key.name with
        | error e => simp [htarget, hlookup, bind, Except.bind] at hstanding
        | ok found =>
            obtain ⟨hfits, -, -, rfl⟩ := hshelf.fits_of_lookup htarget hlookup
            refine ⟨hfits, ?_⟩
            cases hentry : d.entryAt (location ++ [key.name]) with
            | none => simp [htarget, hlookup, hentry, bind, Except.bind] at hstanding
            | some entry =>
                cases entry with
                | directory => simp [htarget, hlookup, hentry, bind, Except.bind] at hstanding
                | file other =>
                    have hother : other = id := by
                      simpa [htarget, hlookup, hentry, bind, Except.bind] using hstanding
                    rw [hother]
  · rintro ⟨hfits, hentry⟩
    have htarget := hshelf.target_of_fits hfits
    have hlookup := lookupName_of_fits d location hfits
    simp [standing, fileAt, find, htarget, hlookup, hentry, bind, Except.bind]

theorem standing_eq_none_of_fits (hfits : key.Fits directory) :
    d.standing directory key = none ↔ d.entryAt (location ++ [key.name]) = none := by
  constructor
  · intro hnone
    cases hentry : d.entryAt (location ++ [key.name]) with
    | none => rfl
    | some entry =>
        cases entry with
        | directory => exact absurd hentry (hshelf.flat key.name)
        | file id => simp [hshelf.standing_eq_some_iff.2 ⟨hfits, hentry⟩] at hnone
  · intro hentry
    rw [Option.eq_none_iff_forall_ne_some]
    intro id hstanding
    simp [(hshelf.standing_eq_some_iff.1 hstanding).2] at hentry

/-- Only a file that stands there can be removed. -/
theorem exists_standing_of_unlink
    (hunlink : d.unlink (Path.join directory key.name) = .ok d') :
    ∃ file, d.standing directory key = some file := by
  unfold unlink at hunlink
  cases htarget : d.target (Path.join directory key.name) with
  | error e => simp [htarget, bind, Except.bind] at hunlink
  | ok dest =>
      obtain ⟨-, -, rfl⟩ := hshelf.destination_eq htarget
      cases hlookup : d.lookupName location key.name with
      | error e => simp [htarget, hlookup, bind, Except.bind] at hunlink
      | ok found =>
          obtain ⟨hfits, -, -, rfl⟩ := hshelf.fits_of_lookup htarget hlookup
          cases hentry : d.entryAt (location ++ [key.name]) with
          | none => simp [htarget, hlookup, hentry, bind, Except.bind] at hunlink
          | some entry =>
              cases entry with
              | directory => exact absurd hentry (hshelf.flat key.name)
              | file id => exact ⟨id, hshelf.standing_eq_some_iff.2 ⟨hfits, hentry⟩⟩

/-! ## How the directory changes -/

/-- Other names do not matter. -/
theorem congr (hentries : d'.entries = d.entries) :
    d'.IsShelf directory location ∧ d'.standing directory = d.standing directory := by
  have hentry : ∀ l, d'.entryAt l = d.entryAt l := fun l => by rw [entryAt, entryAt, hentries]
  have hshelf' : d'.IsShelf directory location := by
    refine ⟨enter_mono (fun l hl => (hentry l).trans hl) hshelf.reached, ?_⟩
    intro name
    rw [hentry]
    exact hshelf.flat name
  refine ⟨hshelf', funext fun key => ?_⟩
  refine Option.ext fun id => ?_
  rw [hshelf'.standing_eq_some_iff, hshelf.standing_eq_some_iff, hentry]

/-- **One name changes one key.** -/
theorem update (d' : Disk) (file : Option FileId) (hfits : key.Fits directory)
    (hhere : d'.entryAt (location ++ [key.name]) = file.map .file)
    (hother : ∀ l, l ≠ location ++ [key.name] → d'.entryAt l = d.entryAt l) :
    d'.IsShelf directory location ∧
      d'.standing directory = Function.update (d.standing directory) key file := by
  have hshelf' : d'.IsShelf directory location := by
    refine ⟨enter_mono ?_ hshelf.reached, ?_⟩
    · intro l hl
      have hne : l ≠ location ++ [key.name] := by
        rintro rfl
        exact hshelf.flat _ hl
      rw [hother l hne, hl]
    · intro name
      by_cases hname : name = key.name
      · subst hname
        rw [hhere]
        cases file <;> simp
      · rw [hother _ (by simpa using hname)]
        exact hshelf.flat name
  refine ⟨hshelf', funext fun key' => ?_⟩
  refine Option.ext fun id => ?_
  rw [hshelf'.standing_eq_some_iff]
  by_cases hkey : key' = key
  · subst hkey
    rw [hhere, Function.update_self]
    cases file with
    | none => simp
    | some f => simp [hfits]
  · have hname : key'.name ≠ key.name := fun hsame => hkey (SegmentKey.name_injective hsame)
    rw [hother _ (by simpa using hname), Function.update_of_ne hkey,
      hshelf.standing_eq_some_iff]

end IsShelf

/-! ## Names that are given and taken away -/

theorem entryAt_link {l : Location} {entry : Entry} (hl : l ≠ []) (hfree : d.entryAt l = none)
    (hentries : d'.entries = d.entries ++ [(l, entry)]) (l' : Location) :
    d'.entryAt l' = if l' = l then some entry else d.entryAt l' := by
  unfold entryAt at hfree ⊢
  rw [if_neg hl] at hfree
  rw [hentries]
  by_cases hroot : l' = []
  · simp [hroot, Ne.symm hl]
  · rw [if_neg hroot, if_neg hroot, lookup_concat _ _ _ _ hfree]

theorem entryAt_unlinkAt {l : Location} (hl : l ≠ []) (l' : Location) :
    (d.unlinkAt l).entryAt l' = if l' = l then none else d.entryAt l' := by
  unfold entryAt unlinkAt
  by_cases hroot : l' = []
  · simp [hroot, Ne.symm hl]
  · rw [if_neg hroot, if_neg hroot, lookup_filter_ne]

end Disk

/-! ## Making and removing segments -/

namespace Segment

variable {ε : Type} {h : Host} {directory : String} {location : Location}

/-- **How the opening of a subscription segment ends,** seen from the directory. -/
theorem openSubscription_shelf (hshelf : h.disk.IsShelf directory location) (key : SegmentKey)
    (kind : HeaderKind) (mode : Nat) :
    (∃ s h', openSubscription (Path.join directory key.name) kind mode h = .ok (s, true) h' ∧
      s.file = some h.disk.files.length ∧
      Path.hasNul (Path.join directory key.name) = false ∧
      h.disk.standing directory key = none ∧
      Host.Made (location ++ [key.name]) kind h h' ∧
      h'.disk.IsShelf directory location ∧
      h'.disk.standing directory =
        Function.update (h.disk.standing directory) key (some h.disk.files.length)) ∨
    (∃ file s h', openSubscription (Path.join directory key.name) kind mode h = .ok (s, false) h' ∧
      s.file = some file ∧ h.disk.standing directory key = some file ∧
      Host.Found file kind h h') ∨
    ∃ e h', openSubscription (Path.join directory key.name) kind mode h = .error e h' ∧
      Host.Untouched h h' := by
  rcases openSubscription_cases (Path.join directory key.name) kind mode h with
    ⟨parent, last, s, h', hnul, htarget, hfree, hrun, hfile, hmade⟩ |
    ⟨file, s, h', hstanding, hrun, hfile, hfound⟩ | hfailed
  · obtain ⟨hfits, rfl, rfl, hentry⟩ := hshelf.fits_of_lookup htarget hfree
    have hview := Disk.entryAt_link (by simp) hentry.symm hmade.entries
    obtain ⟨hshelf', hstanding⟩ := hshelf.update h'.disk (some h.disk.files.length) hfits
      ((hview _).trans (if_pos rfl)) fun l hl => (hview l).trans (if_neg hl)
    exact .inl ⟨s, h', hrun, hfile, hnul, (hshelf.standing_eq_none_of_fits hfits).2 hentry.symm,
      hmade, hshelf', hstanding⟩
  · exact .inr (.inl ⟨file, s, h', hrun, hfile, hstanding, hfound⟩)
  · exact .inr (.inr hfailed)

/-- Removing a segment that stands takes its name away, and does nothing else. -/
theorem removeQuietly_standing (hshelf : h.disk.IsShelf directory location) {key : SegmentKey}
    {file : FileId} (hstanding : h.disk.standing directory key = some file)
    (hnul : Path.hasNul (Path.join directory key.name) = false) :
    (removeQuietly (Path.join directory key.name) : HostM ε Unit) h =
      .ok () { h with disk := h.disk.unlinkAt (location ++ [key.name]) } := by
  obtain ⟨hfits, hentry⟩ := hshelf.standing_eq_some_iff.1 hstanding
  have hdisk : h.disk.unlink (Path.join directory key.name) =
      .ok (h.disk.unlinkAt (location ++ [key.name])) := by
    simp [Disk.unlink, hshelf.target_of_fits hfits, Disk.lookupName_of_fits _ _ hfits, hentry,
      bind, Except.bind]
  have hunlink : (unlink (Path.join directory key.name) : HostM Error _) h =
      .ok none { h with disk := h.disk.unlinkAt (location ++ [key.name]) } := by
    unfold unlink
    rw [if_neg (by simp [hnul]), get_bind_eq]
    simp only [hdisk]
    rfl
  have hremove : remove (Path.join directory key.name) h =
      .ok () { h with disk := h.disk.unlinkAt (location ++ [key.name]) } := by
    unfold remove
    rw [bind_of_ok hunlink]
    rfl
  unfold removeQuietly
  rw [bind_of_ok (attempt_of_ok hremove)]
  rfl

/-- **A segment that stands can be removed.** -/
theorem removeQuietly_shelf (hshelf : h.disk.IsShelf directory location) {key : SegmentKey}
    {file : FileId} (hstanding : h.disk.standing directory key = some file)
    (hnul : Path.hasNul (Path.join directory key.name) = false) :
    ∃ h', (removeQuietly (Path.join directory key.name) : HostM ε Unit) h = .ok () h' ∧
      h'.disk.files = h.disk.files ∧ h'.leavers = h.leavers ∧ h'.waiters = h.waiters ∧
      h'.disk.IsShelf directory location ∧
      h'.disk.standing directory = Function.update (h.disk.standing directory) key none := by
  obtain ⟨hfits, -⟩ := hshelf.standing_eq_some_iff.1 hstanding
  have hview := Disk.entryAt_unlinkAt (d := h.disk) (l := location ++ [key.name]) (by simp)
  obtain ⟨hshelf', hstanding'⟩ := hshelf.update
    (h.disk.unlinkAt (location ++ [key.name])) none hfits
    ((hview _).trans (if_pos rfl)) fun l hl => (hview l).trans (if_neg hl)
  exact ⟨_, removeQuietly_standing hshelf hstanding hnul, rfl, rfl, rfl, hshelf', hstanding'⟩

/-- What cannot be removed is left alone. -/
theorem removeQuietly_absent (hshelf : h.disk.IsShelf directory location) {key : SegmentKey}
    (habsent : h.disk.standing directory key = none) :
    ∃ h', (removeQuietly (Path.join directory key.name) : HostM ε Unit) h = .ok () h' ∧
      h'.disk = h.disk ∧ h'.leavers = h.leavers ∧ h'.waiters = h.waiters := by
  obtain ⟨cause, hunlink⟩ : ∃ cause,
      (unlink (Path.join directory key.name) : HostM Error _) h = .ok (some cause) h := by
    unfold unlink
    by_cases hnul : Path.hasNul (Path.join directory key.name) = true
    · exact ⟨.nulInName, by rw [if_pos hnul]; rfl⟩
    · rw [if_neg hnul, get_bind_eq]
      cases hdisk : h.disk.unlink (Path.join directory key.name) with
      | error e => exact ⟨.errno e, rfl⟩
      | ok d =>
          obtain ⟨file, hstanding⟩ := hshelf.exists_standing_of_unlink hdisk
          simp [habsent] at hstanding
  have hremove : remove (Path.join directory key.name) h = .error (.system "unlink" cause) h := by
    unfold remove
    rw [bind_of_ok hunlink]
    rfl
  unfold removeQuietly
  rw [bind_of_ok (attempt_of_error hremove)]
  exact ⟨_, rfl, rfl, rfl, rfl⟩

end Segment

end Subscription
