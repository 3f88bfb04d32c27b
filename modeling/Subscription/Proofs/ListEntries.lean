import Subscription.Proofs.CanonicalPath

/-!
# Telling list entries apart

A path tells the entries of a list apart by the values of their keys, each of them between
single quotes.  A value may hold any text, quotes and brackets among it, and is written as it
is.  So a value can hold what leads over to the next key, and then the same path can be read
in two ways: the value may end there, or later.

Every path has a first reading, in which each value but the last ends as soon as the next key
can begin (`Keys.reading`).

* Two entries of one list have the same path just when they have the same first reading
  (`Node.paths_differ_iff`).
* An entry is its own first reading just when no value but the last holds what leads over to
  the next key (`Keys.reading_eq_self_iff`).  There are no such values where there are no
  single quotes in them (`Keys.clear_of_no_quote`).
* Any other entry has the path of another one (`Node.entries_share_a_path`).
-/

namespace Subscription

/-! ## Cutting a text at a mark -/

/-- What is in front of the first place where a mark is, and what is behind the mark. -/
def cutAt (mark : List Char) : List Char → List Char × List Char
  | [] => ([], [])
  | c :: rest =>
      if mark <+: c :: rest then ([], (c :: rest).drop mark.length)
      else (c :: (cutAt mark rest).1, (cutAt mark rest).2)

/-- A mark behind a text does not begin before the text ends. -/
def EndsBefore (text mark : List Char) : Prop :=
  ∀ front back, text = front ++ back → mark <+: back ++ mark → back = []

variable {mark : List Char}

theorem cutAt_of_begins {text : List Char} (hmark : mark ≠ []) (hbegins : mark <+: text) :
    cutAt mark text = ([], text.drop mark.length) := by
  cases text with
  | nil => exact absurd (List.prefix_nil.1 hbegins) hmark
  | cons c rest => rw [cutAt, if_pos hbegins]

theorem cutAt_of_not_begins {c : Char} {text : List Char} (hbegins : ¬mark <+: c :: text) :
    cutAt mark (c :: text) = (c :: (cutAt mark text).1, (cutAt mark text).2) := by
  rw [cutAt, if_neg hbegins]

/-- Nothing is lost but the mark. -/
theorem append_cutAt (hmark : mark ≠ []) (text : List Char) :
    (cutAt mark (text ++ mark)).1 ++ mark ++ (cutAt mark (text ++ mark)).2 = text ++ mark := by
  induction text with
  | nil => simp [cutAt_of_begins hmark List.prefix_rfl]
  | cons c rest ih =>
      rw [List.cons_append]
      by_cases hbegins : mark <+: c :: (rest ++ mark)
      · rw [cutAt_of_begins hmark hbegins]
        exact List.prefix_iff_eq_append.1 hbegins
      · rw [cutAt_of_not_begins hbegins, List.cons_append, List.cons_append, ih]

/-- What is behind a mark does not matter for what is in front of it. -/
theorem cutAt_append (hmark : mark ≠ []) (text behind : List Char) :
    cutAt mark (text ++ mark ++ behind) =
      ((cutAt mark (text ++ mark)).1, (cutAt mark (text ++ mark)).2 ++ behind) := by
  induction text with
  | nil =>
      rw [List.nil_append, cutAt_of_begins hmark (List.prefix_append _ _),
        cutAt_of_begins hmark List.prefix_rfl]
      simp
  | cons c rest ih =>
      have hlong : mark.length ≤ (c :: rest ++ mark).length := by
        rw [List.length_append]
        exact Nat.le_add_left _ _
      by_cases hbegins : mark <+: c :: rest ++ mark
      · rw [cutAt_of_begins hmark hbegins,
          cutAt_of_begins hmark (hbegins.trans (List.prefix_append _ _)),
          List.drop_append_of_le_length hlong]
      · have hlater : ¬mark <+: c :: rest ++ mark ++ behind := fun hbegins' =>
          hbegins (List.prefix_of_prefix_length_le hbegins' (List.prefix_append _ _) hlong)
        simp only [List.cons_append] at hbegins hlater ih ⊢
        rw [cutAt_of_not_begins hbegins, cutAt_of_not_begins hlater, ih]

/-- A text is cut at its end just when the mark does not begin before. -/
theorem cutAt_eq_self_iff (hmark : mark ≠ []) {text : List Char} :
    cutAt mark (text ++ mark) = (text, []) ↔ EndsBefore text mark := by
  induction text with
  | nil =>
      rw [List.nil_append, cutAt_of_begins hmark List.prefix_rfl, List.drop_length]
      refine iff_of_true rfl fun front back htext _ => ?_
      exact (List.append_eq_nil_iff.1 htext.symm).2
  | cons c rest ih =>
      by_cases hbegins : mark <+: c :: rest ++ mark
      · rw [cutAt_of_begins hmark hbegins]
        refine iff_of_false (fun hcut => ?_) (fun hends => ?_)
        · cases hcut
        · cases hends [] (c :: rest) rfl hbegins
      · rw [List.cons_append] at hbegins ⊢
        rw [cutAt_of_not_begins hbegins, Prod.mk.injEq, List.cons.injEq, and_iff_right rfl]
        refine Prod.ext_iff.symm.trans (ih.trans ?_)
        constructor
        · intro hends front back htext hmark
          cases front with
          | nil =>
              rw [List.nil_append] at htext
              rw [← htext] at hmark
              exact absurd hmark hbegins
          | cons d front => exact hends front back (List.cons.inj htext).2 hmark
        · intro hends front back htext
          exact hends (c :: front) back (congrArg (c :: ·) htext)

/-! ## First readings -/

namespace Keys

/-- What leads over from the value of a key to that of the next one. -/
def bridge (next : String) : List Char := "'][".toList ++ next.toList ++ "='".toList

theorem bridge_ne_nil (next : String) : bridge next ≠ [] := nofun

/-- What follows the value of a key when there are some keys behind it. -/
def behind (rest : List (String × String)) : List Char :=
  "']".toList ++ (Node.keyText rest).toList

/-- The first reading of a key's value and of the keys behind it. -/
def readingFrom (name : String) (value : List Char) :
    List (String × String) → List (String × String)
  | [] => [(name, String.ofList value)]
  | (next, following) :: rest =>
      let parts := cutAt (bridge next) (value ++ bridge next)
      (name, String.ofList parts.1) :: readingFrom next (parts.2 ++ following.toList) rest

/-- The first reading of keys: each value but the last ends as soon as the next key can
begin. -/
def reading : List (String × String) → List (String × String)
  | [] => []
  | (name, value) :: rest => readingFrom name value.toList rest

/-- No value but the last holds the beginning of what leads over to the next key, with
which it may go on behind the value. -/
def Clear : List (String × String) → Prop
  | (_, value) :: (next, following) :: rest =>
      EndsBefore value.toList (bridge next) ∧ Clear ((next, following) :: rest)
  | _ => True

theorem toList_keyText_cons (name value : String) (rest : List (String × String)) :
    (Node.keyText ((name, value) :: rest)).toList =
      '[' :: (name.toList ++ "='".toList ++ value.toList ++ behind rest) := by
  rw [behind, Node.toList_keyText, Node.toList_keyText, List.map_cons, List.flatMap_cons,
    Node.chars_comparison]
  simp

theorem behind_cons (next value : String) (rest : List (String × String)) :
    behind ((next, value) :: rest) = bridge next ++ (value.toList ++ behind rest) := by
  rw [behind, toList_keyText_cons, bridge]
  simp

variable {name : String} {value value' : List Char} {rest rest' keys keys' : List (String × String)}

theorem map_fst_readingFrom (name : String) (value : List Char) (rest : List (String × String)) :
    (readingFrom name value rest).map Prod.fst = name :: rest.map Prod.fst := by
  induction rest generalizing name value with
  | nil => rfl
  | cons key rest ih => rw [readingFrom, List.map_cons, ih, List.map_cons]

/-- What is read is written as it was. -/
theorem toList_keyText_readingFrom (name : String) (value : List Char)
    (rest : List (String × String)) :
    (Node.keyText (readingFrom name value rest)).toList =
      '[' :: (name.toList ++ "='".toList ++ value ++ behind rest) := by
  induction rest generalizing name value with
  | nil => simp only [readingFrom, toList_keyText_cons, String.toList_ofList]
  | cons key rest ih =>
      obtain ⟨next, following⟩ := key
      let parts := cutAt (bridge next) (value ++ bridge next)
      have hcut : parts.1 ++ (bridge next ++ parts.2) = value ++ bridge next := by
        rw [← List.append_assoc]
        exact append_cutAt (bridge_ne_nil next) value
      have hbehind : behind (readingFrom next (parts.2 ++ following.toList) rest) =
          bridge next ++ (parts.2 ++ (following.toList ++ behind rest)) := by
        rw [behind, ih, bridge]
        simp
      have htext : parts.1 ++ behind (readingFrom next (parts.2 ++ following.toList) rest) =
          value ++ behind ((next, following) :: rest) := by
        rw [hbehind, behind_cons, ← List.append_assoc (bridge next), ← List.append_assoc, hcut,
          List.append_assoc]
      rw [readingFrom, toList_keyText_cons, List.append_assoc, List.append_assoc _ value, ← htext]
      simp only [String.toList_ofList, parts]

/-- The same text is read in the same way. -/
theorem readingFrom_congr (hnames : rest.map Prod.fst = rest'.map Prod.fst)
    (htext : value ++ behind rest = value' ++ behind rest') :
    readingFrom name value rest = readingFrom name value' rest' := by
  induction rest generalizing name value value' rest' with
  | nil =>
      obtain rfl := List.map_eq_nil_iff.1 hnames.symm
      rw [List.append_cancel_right htext]
  | cons key rest ih =>
      obtain ⟨_, following⟩ := key
      obtain ⟨⟨next, following'⟩, rest', rfl, rfl, hrest⟩ := List.map_eq_cons_iff.1 hnames.symm
      rw [behind_cons, behind_cons] at htext
      have hcut : cutAt (bridge next) (value ++ bridge next ++ (following.toList ++ behind rest)) =
          cutAt (bridge next) (value' ++ bridge next ++ (following'.toList ++ behind rest')) := by
        rw [List.append_assoc value, List.append_assoc value', htext]
      rw [cutAt_append (bridge_ne_nil next), cutAt_append (bridge_ne_nil next),
        Prod.mk.injEq, ← List.append_assoc, ← List.append_assoc] at hcut
      rw [readingFrom, readingFrom, hcut.1]
      exact congrArg _ (ih hrest.symm hcut.2)

/-- A key is read as it is when it is clear, and when those behind it are. -/
theorem readingFrom_eq_self_iff {value : String} :
    readingFrom name value.toList rest = (name, value) :: rest ↔
      Clear ((name, value) :: rest) := by
  induction rest generalizing name value with
  | nil => simp [readingFrom, Clear]
  | cons key rest ih =>
      obtain ⟨next, following⟩ := key
      have hmark := bridge_ne_nil next
      rw [readingFrom, Clear, ← cutAt_eq_self_iff hmark, ← ih]
      constructor
      · intro hread
        obtain ⟨hfirst, hrest⟩ := List.cons.inj hread
        have hvalue : (cutAt (bridge next) (value.toList ++ bridge next)).1 = value.toList := by
          rw [← String.ofList_inj, (Prod.mk.inj hfirst).2, String.ofList_toList]
        have hnothing : (cutAt (bridge next) (value.toList ++ bridge next)).2 = [] := by
          have hcut := append_cutAt hmark value.toList
          rw [hvalue] at hcut
          exact List.append_right_eq_self.1 hcut
        rw [hnothing] at hrest
        exact ⟨Prod.ext hvalue hnothing, hrest⟩
      · intro hread
        obtain ⟨hcut, hrest⟩ := hread
        rw [hcut, String.ofList_toList]
        exact congrArg _ hrest

theorem map_fst_reading (keys : List (String × String)) :
    (reading keys).map Prod.fst = keys.map Prod.fst := by
  cases keys with
  | nil => rfl
  | cons key rest => exact map_fst_readingFrom key.1 key.2.toList rest

/-- Keys are written like their first reading. -/
theorem keyText_reading (keys : List (String × String)) :
    Node.keyText (reading keys) = Node.keyText keys := by
  cases keys with
  | nil => rfl
  | cons key rest =>
      rw [← String.toList_inj, reading, toList_keyText_readingFrom, ← toList_keyText_cons]

/-- **Keys are written alike** just when they have the same first reading. -/
theorem keyText_eq_iff (hnames : keys.map Prod.fst = keys'.map Prod.fst) :
    Node.keyText keys = Node.keyText keys' ↔ reading keys = reading keys' := by
  constructor
  · intro htext
    cases keys with
    | nil =>
        obtain rfl := List.map_eq_nil_iff.1 hnames.symm
        rfl
    | cons key rest =>
        obtain ⟨_, value⟩ := key
        obtain ⟨⟨name, value'⟩, rest', rfl, rfl, hrest⟩ := List.map_eq_cons_iff.1 hnames.symm
        rw [← String.toList_inj, toList_keyText_cons, toList_keyText_cons, List.cons.injEq,
          List.append_assoc, List.append_assoc _ value'.toList] at htext
        exact readingFrom_congr hrest.symm (List.append_cancel_left htext.2)
  · intro hread
    rw [← keyText_reading keys, hread, keyText_reading]

/-- **Keys are their own first reading** just when they are clear. -/
theorem reading_eq_self_iff : reading keys = keys ↔ Clear keys := by
  cases keys with
  | nil => exact iff_of_true rfl trivial
  | cons key rest => exact readingFrom_eq_self_iff

/-- Where there are no single quotes in values, there is nothing that leads over. -/
theorem clear_of_no_quote (hkeys : ∀ key ∈ keys, '\x27' ∉ key.2.toList) : Clear keys := by
  induction keys with
  | nil => trivial
  | cons key rest ih =>
      obtain ⟨hfirst, hrest⟩ := List.forall_mem_cons.1 hkeys
      cases rest with
      | nil => trivial
      | cons following rest =>
          refine ⟨?_, ih hrest⟩
          intro front back hvalue hbegins
          cases back with
          | nil => rfl
          | cons c back =>
              obtain rfl : '\x27' = c := (List.cons_prefix_cons.1 hbegins).1
              exact absurd (by simp [hvalue]) hfirst

end Keys

/-! ## Paths of entries -/

namespace Node

variable {a b : Node}

/-- Steps to two entries of a list differ by their keys alone. -/
theorem step_eq_iff (ha : a.kind = .list) (hb : b.kind = .list) (hmodule : a.module = b.module)
    (hname : a.name = b.name) (parentModule : Option String) :
    a.step parentModule = b.step parentModule ↔ keyText a.keys = keyText b.keys := by
  rw [step, step, hmodule, hname, predicateText, predicateText, ha, hb]
  exact String.append_right_inj _

/-- **When paths tell entries apart.**  Two entries of one list, at any place below one parent,
have different paths just when they have different first readings.  So they always do when the
keys of both are clear and not the same.  Keys that are not clear share their path with
others, their first reading. -/
theorem paths_differ_iff (ha : a.kind = .list) (hb : b.kind = .list)
    (hmodule : a.module = b.module) (hname : a.name = b.name)
    (hkeys : a.keys.map Prod.fst = b.keys.map Prod.fst)
    (path : String) (parentModule : Option String) :
    (path ++ "/" ++ a.step parentModule ≠ path ++ "/" ++ b.step parentModule ↔
        Keys.reading a.keys ≠ Keys.reading b.keys) ∧
      (Keys.Clear a.keys → Keys.Clear b.keys →
        (path ++ "/" ++ a.step parentModule ≠ path ++ "/" ++ b.step parentModule ↔
          a.keys ≠ b.keys)) ∧
      (¬Keys.Clear a.keys → ∃ twin : Node, twin.kind = .list ∧ twin.module = a.module ∧
        twin.name = a.name ∧ twin.keys.map Prod.fst = a.keys.map Prod.fst ∧
        twin.keys ≠ a.keys ∧
        path ++ "/" ++ twin.step parentModule = path ++ "/" ++ a.step parentModule) := by
  have hpaths : path ++ "/" ++ a.step parentModule = path ++ "/" ++ b.step parentModule ↔
      Keys.reading a.keys = Keys.reading b.keys := by
    rw [String.append_right_inj, step_eq_iff ha hb hmodule hname, Keys.keyText_eq_iff hkeys]
  refine ⟨not_congr hpaths, ?_, ?_⟩
  · intro hclear hclear'
    rw [Ne, hpaths, Keys.reading_eq_self_iff.2 hclear, Keys.reading_eq_self_iff.2 hclear']
  · intro hunclear
    let twin : Node := { a with keys := Keys.reading a.keys }
    have hstep : twin.step parentModule = a.step parentModule :=
      (step_eq_iff (a := twin) ha ha rfl rfl parentModule).2 (Keys.keyText_reading a.keys)
    exact ⟨twin, ha, rfl, rfl, Keys.map_fst_reading a.keys,
      mt Keys.reading_eq_self_iff.1 hunclear, by rw [hstep]⟩

/-- Values that hold quotes and brackets but lead nowhere tell entries apart, and a value that
leads over to the next key does not. -/
theorem paths_differ_iff_marks :
    "/m:top" ++ "/" ++ (list "m" "l" [("k", "it's"), ("n", "']['")]).step (some "m") ≠
        "/m:top" ++ "/" ++ (list "m" "l" [("k", "it's'"), ("n", "][''")]).step (some "m") ∧
      ¬Keys.Clear [("k", "x'][n='y"), ("n", "z")] ∧
      ∃ twin : Node, twin.keys ≠ [("k", "x'][n='y"), ("n", "z")] ∧
        "/m:top" ++ "/" ++ twin.step (some "m") =
          "/m:top" ++ "/" ++ (list "m" "l" [("k", "x'][n='y"), ("n", "z")]).step (some "m") := by
  have hapart := paths_differ_iff (a := list "m" "l" [("k", "it's"), ("n", "']['")])
    (b := list "m" "l" [("k", "it's'"), ("n", "][''")]) rfl rfl rfl rfl rfl "/m:top" (some "m")
  have hshared := paths_differ_iff (a := list "m" "l" [("k", "x'][n='y"), ("n", "z")])
    (b := list "m" "l" [("k", "x'][n='y"), ("n", "z")]) rfl rfl rfl rfl rfl "/m:top" (some "m")
  have hunclear : ¬Keys.Clear [("k", "x'][n='y"), ("n", "z")] :=
    mt Keys.reading_eq_self_iff.2 (by decide)
  obtain ⟨twin, -, -, -, -, hkeys, hpath⟩ := hshared.2.2 hunclear
  exact ⟨hapart.1.2 (by decide), hunclear, twin, hkeys, hpath⟩

/-- **One path for two entries**: the value of the first key may end at the first quote, or
later. -/
theorem entries_share_a_path :
    (list "m" "l" [("k", "x'][n='y"), ("n", "z")]).keys ≠
        (list "m" "l" [("k", "x"), ("n", "y'][n='z")]).keys ∧
      "/m:top" ++ "/" ++ (list "m" "l" [("k", "x'][n='y"), ("n", "z")]).step (some "m") =
        "/m:top" ++ "/" ++ (list "m" "l" [("k", "x"), ("n", "y'][n='z")]).step (some "m") := by
  decide

end Node

end Subscription
