import Subscription.Proofs.FilterCuts
import Subscription.Store.Add
import Subscription.Text.Utf8

/-!
# The first node of an xpath

An xpath that subscribers give is looked at up to the end of its first node, and no
further.  Here a text is described by its quotes instead (`XPath.Paired`): it is *closed*
when every quote that is opened in it is closed, and it is a *node* when it has no slash
outside of its quotes besides.

* `isValid_iff` — the xpaths that are taken: behind the slash there is a node, which is not
  empty and ends at a slash or with the text.
* `rule_is_kept_iff` — the rule that is documented for xpaths asks for more: that quotes are
  closed everywhere (`XPath.WellFormed`).  Xpaths are judged by that rule exactly when
  nothing behind the first node leaves a quote open; `quote_stays_open` is one of those that
  are taken although they do.
* `firstNodeBytes_bytes` — the end of the node may be looked for byte by byte: the bytes of
  other characters are none of those that matter.
-/

namespace Subscription

namespace XPath

/-! ## Quotes -/

/-- A text that closes every quote which it opens.  Inside of quotes there may be anything
but the same quote, and outside of them only what is allowed there. -/
inductive Paired (allowed : Char → Prop) : List Char → Prop
  | nil : Paired allowed []
  | plain {c : Char} {rest : List Char} (hquote : isQuote c = false) (hallowed : allowed c)
      (hrest : Paired allowed rest) : Paired allowed (c :: rest)
  | quoted {q : Char} {value rest : List Char} (hquote : isQuote q = true)
      (hvalue : q ∉ value) (hrest : Paired allowed rest) :
      Paired allowed (q :: (value ++ q :: rest))

/-- A text that closes every quote which it opens. -/
abbrev Closed : List Char → Prop := Paired fun _ => True

/-- A text that closes every quote which it opens, and has no slash outside of them. -/
abbrev IsNode : List Char → Prop := Paired (· ≠ '/')

/-- A text that is empty or goes on with another node. -/
def AtSlash (behind : List Char) : Prop := ∀ c ∈ behind.head?, c = '/'

theorem atSlash_nil : AtSlash [] := by simp [AtSlash]

namespace Paired

variable {allowed allowed' : Char → Prop} {text behind : List Char}

theorem mono (himp : ∀ c, allowed c → allowed' c) (htext : Paired allowed text) :
    Paired allowed' text := by
  induction htext with
  | nil => exact .nil
  | plain hquote hallowed _ ih => exact .plain hquote (himp _ hallowed) ih
  | quoted hquote hvalue _ ih => exact .quoted hquote hvalue ih

theorem append (htext : Paired allowed text) (hbehind : Paired allowed behind) :
    Paired allowed (text ++ behind) := by
  induction htext with
  | nil => exact hbehind
  | plain hquote hallowed _ ih => exact .plain hquote hallowed ih
  | @quoted q value rest hquote hvalue _ ih =>
      rw [List.cons_append, List.append_assoc, List.cons_append]
      exact .quoted hquote hvalue ih

end Paired

theorem IsNode.closed {node : List Char} (hnode : IsNode node) : Closed node :=
  hnode.mono fun _ _ => trivial

/-- A node does not begin with a slash. -/
theorem IsNode.head_ne {c : Char} {rest : List Char} (hnode : IsNode (c :: rest)) : c ≠ '/' := by
  cases hnode with
  | plain _ hallowed _ => exact hallowed
  | quoted hquote _ _ =>
      intro heq
      subst heq
      exact absurd hquote (by decide)

/-- The quote that is open behind a text, given the one that is open in front of it. -/
def openQuote (quote : Option Char) : List Char → Option Char
  | [] => quote
  | c :: rest =>
      match quote with
      | some q => openQuote (if c = q then none else some q) rest
      | none => openQuote (if isQuote c then some c else none) rest

/-- A quote stays open up to its like. -/
theorem openQuote_value {q : Char} {value : List Char} (hvalue : q ∉ value)
    (rest : List Char) : openQuote (some q) (value ++ q :: rest) = openQuote none rest := by
  induction value with
  | nil => simp [openQuote]
  | cons c value ih =>
      have hc : c ≠ q := by
        intro heq
        subst heq
        exact hvalue List.mem_cons_self
      rw [List.cons_append, openQuote]
      simp only [if_neg hc]
      exact ih fun hmem => hvalue (List.mem_cons_of_mem _ hmem)

/-- What the quote that is open, if any, asks of the rest of a closed text. -/
def ClosesQuote (text : List Char) : Option Char → Prop
  | none => Closed text
  | some q => ∃ value rest, text = value ++ q :: rest ∧ q ∉ value ∧ Closed rest

theorem closesQuote_of_openQuote {quote : Option Char} {text : List Char}
    (hopen : openQuote quote text = none) : ClosesQuote text quote := by
  induction text generalizing quote with
  | nil =>
      cases hopen
      exact .nil
  | cons c rest ih =>
      cases quote with
      | none =>
          rw [openQuote] at hopen
          by_cases hquote : isQuote c = true
          · rw [if_pos hquote] at hopen
            obtain ⟨value, behind, rfl, hvalue, hbehind⟩ := ih hopen
            exact .quoted hquote hvalue hbehind
          · rw [if_neg hquote] at hopen
            exact .plain (by simpa using hquote) trivial (ih hopen)
      | some q =>
          rw [openQuote] at hopen
          by_cases hc : c = q
          · subst hc
            simp only [if_pos] at hopen
            exact ⟨[], rest, rfl, by simp, ih hopen⟩
          · simp only [if_neg hc] at hopen
            obtain ⟨value, behind, rfl, hvalue, hbehind⟩ := ih hopen
            exact ⟨c :: value, behind, rfl, by simp [hvalue, Ne.symm hc], hbehind⟩

/-- **A text is closed** when no quote is open behind it. -/
theorem closed_iff {text : List Char} : Closed text ↔ openQuote none text = none := by
  constructor
  · intro hclosed
    induction hclosed with
    | nil => rfl
    | plain hquote _ _ ih =>
        rw [openQuote]
        simpa [hquote] using ih
    | quoted hquote hvalue _ ih =>
        rw [openQuote]
        simp only [hquote, if_true, openQuote_value hvalue]
        exact ih
  · intro hopen
    exact closesQuote_of_openQuote hopen

instance (text : List Char) : Decidable (Closed text) := decidable_of_iff' _ closed_iff

/-! ## The end of a node -/

variable {text node behind : List Char} {quote : Option Char}

/-- Inside of quotes a node goes on up to the closing quote. -/
theorem nodeText_value {q : Char} {value : List Char} (hvalue : q ∉ value) (rest : List Char) :
    nodeText (some q) (value ++ q :: rest) = (nodeText none rest).map (value ++ q :: ·) := by
  induction value with
  | nil => simp [nodeText]
  | cons c value ih =>
      have hc : c ≠ q := by
        intro heq
        subst heq
        exact hvalue List.mem_cons_self
      rw [List.cons_append, nodeText]
      simp only [if_neg hc, ih fun hmem => hvalue (List.mem_cons_of_mem _ hmem), Option.map_map]
      rfl

/-- A node is found when a slash comes behind it, or nothing. -/
theorem IsNode.nodeText_append (hnode : IsNode node) (hbehind : AtSlash behind) :
    nodeText none (node ++ behind) = some node := by
  induction hnode with
  | nil =>
      cases behind with
      | nil => rfl
      | cons c rest =>
          cases hbehind c rfl
          rfl
  | plain hquote hallowed _ ih =>
      rw [List.cons_append, nodeText]
      simp [hquote, hallowed, ih]
  | quoted hquote hvalue _ ih =>
      rw [List.cons_append, List.append_assoc, List.cons_append, nodeText]
      simp [hquote, nodeText_value hvalue, ih]

/-- What is found, when the text starts inside or outside of quotes. -/
def EndsNode (text node : List Char) : Option Char → Prop
  | none => IsNode node ∧ ∃ behind, text = node ++ behind ∧ AtSlash behind
  | some q => ∃ value more, node = value ++ q :: more ∧ q ∉ value ∧ IsNode more ∧
      ∃ behind, text = node ++ behind ∧ AtSlash behind

theorem endsNode_of_nodeText (hfound : nodeText quote text = some node) :
    EndsNode text node quote := by
  induction text generalizing quote node with
  | nil =>
      cases quote with
      | none =>
          cases hfound
          exact ⟨.nil, [], rfl, atSlash_nil⟩
      | some q => cases hfound
  | cons c rest ih =>
      cases quote with
      | some q =>
          rw [nodeText] at hfound
          obtain ⟨node, hrest, rfl⟩ := Option.map_eq_some_iff.1 hfound
          have hends := ih hrest
          by_cases hc : c = q
          · subst hc
            rw [if_pos rfl] at hends
            obtain ⟨hnode, behind, rfl, hbehind⟩ := hends
            exact ⟨[], node, rfl, by simp, hnode, behind, rfl, hbehind⟩
          · rw [if_neg hc] at hends
            obtain ⟨value, more, rfl, hvalue, hmore, behind, rfl, hbehind⟩ := hends
            exact ⟨c :: value, more, rfl, by simp [hvalue, Ne.symm hc], hmore, behind, rfl, hbehind⟩
      | none =>
          rw [nodeText] at hfound
          by_cases hquote : isQuote c = true
          · simp only [if_pos hquote] at hfound
            obtain ⟨node, hrest, rfl⟩ := Option.map_eq_some_iff.1 hfound
            obtain ⟨value, more, rfl, hvalue, hmore, behind, rfl, hbehind⟩ := ih hrest
            exact ⟨.quoted hquote hvalue hmore, behind, rfl, hbehind⟩
          · simp only [if_neg hquote] at hfound
            by_cases hslash : c = '/'
            · subst hslash
              rw [if_pos rfl] at hfound
              cases hfound
              exact ⟨.nil, '/' :: rest, rfl, by simp [AtSlash]⟩
            · rw [if_neg hslash] at hfound
              obtain ⟨node, hrest, rfl⟩ := Option.map_eq_some_iff.1 hfound
              obtain ⟨hnode, behind, rfl, hbehind⟩ := ih hrest
              exact ⟨.plain (by simpa using hquote) hslash hnode, behind, rfl, hbehind⟩

/-- **The node at the start of a text** is the only one that ends at a slash or with the
text. -/
theorem nodeText_eq_some_iff :
    nodeText none text = some node ↔
      IsNode node ∧ ∃ behind, text = node ++ behind ∧ AtSlash behind := by
  constructor
  · exact endsNode_of_nodeText
  · intro h
    obtain ⟨hnode, behind, rfl, hbehind⟩ := h
    exact hnode.nodeText_append hbehind

/-- A closed text starts with a node, and what comes behind it is closed. -/
theorem Closed.exists_node (hclosed : Closed text) :
    ∃ node behind, text = node ++ behind ∧ IsNode node ∧ AtSlash behind ∧ Closed behind := by
  induction hclosed with
  | nil => exact ⟨[], [], rfl, .nil, atSlash_nil, .nil⟩
  | @plain c rest hquote _ hrest ih =>
      by_cases hslash : c = '/'
      · subst hslash
        exact ⟨[], '/' :: rest, rfl, .nil, by simp [AtSlash], .plain hquote trivial hrest⟩
      · obtain ⟨node, behind, rfl, hnode, hbehind⟩ := ih
        exact ⟨c :: node, behind, rfl, .plain hquote hslash hnode, hbehind⟩
  | @quoted q value rest hquote hvalue _ ih =>
      obtain ⟨node, behind, rfl, hnode, hbehind⟩ := ih
      exact ⟨q :: (value ++ q :: node), behind, by simp, .quoted hquote hvalue hnode, hbehind⟩

/-! ## Xpaths -/

/-- An xpath is made of a slash, its first node and what comes behind that. -/
structure Starts (xpath : String) (node behind : List Char) : Prop where
  text : xpath.toList = '/' :: (node ++ behind)
  node : IsNode node
  stops : AtSlash behind

/-- The rule that is documented for xpaths: behind a slash there is a node that is not
empty, and every quote that is opened is closed. -/
def WellFormed (xpath : String) : Prop :=
  ∃ c rest, xpath.toList = '/' :: c :: rest ∧ c ≠ '/' ∧ Closed (c :: rest)

variable {xpath : String}

/-- An xpath starts in one way only. -/
theorem Starts.unique (hstarts : Starts xpath node behind) {node' behind' : List Char}
    (hstarts' : Starts xpath node' behind') : node' = node ∧ behind' = behind := by
  have htexts : node ++ behind = node' ++ behind' :=
    (List.cons.inj (hstarts.text.symm.trans hstarts'.text)).2
  have hfound := hstarts.node.nodeText_append hstarts.stops
  rw [htexts, hstarts'.node.nodeText_append hstarts'.stops] at hfound
  cases hfound
  exact ⟨rfl, (List.append_cancel_left htexts).symm⟩

/-- What is said to be the first node is the one that the xpath starts with. -/
theorem firstNode_eq_some_iff {first : String} :
    firstNode xpath = some first ↔
      ∃ node behind, Starts xpath node behind ∧ first = String.ofList ('/' :: node) := by
  unfold firstNode
  split
  · rename_i rest htext
    rw [Option.map_eq_some_iff]
    constructor
    · intro h
      obtain ⟨node, hfound, rfl⟩ := h
      obtain ⟨hnode, behind, rfl, hbehind⟩ := nodeText_eq_some_iff.1 hfound
      exact ⟨node, behind, ⟨htext, hnode, hbehind⟩, rfl⟩
    · intro h
      obtain ⟨node, behind, hstarts, rfl⟩ := h
      rw [hstarts.text, List.cons.injEq] at htext
      exact ⟨node, nodeText_eq_some_iff.2 ⟨hstarts.node, behind, htext.2.symm, hstarts.stops⟩, rfl⟩
  · rename_i hother
    constructor
    · intro hfound
      cases hfound
    · intro h
      obtain ⟨node, behind, hstarts, rfl⟩ := h
      exact absurd hstarts.text (hother _)

/-- **The xpaths that are taken** start with a node that is not empty. -/
theorem isValid_iff :
    isValid xpath = true ↔ ∃ node behind, Starts xpath node behind ∧ node ≠ [] := by
  have hvalid : isValid xpath = true ↔
      ∃ node, node ≠ [] ∧ firstNode xpath = some (String.ofList ('/' :: node)) := by
    unfold isValid firstNode
    split
    · rename_i rest htext
      cases hfound : nodeText none rest with
      | none => simp
      | some node => simp [String.ofList_inj]
    · simp
  rw [hvalid]
  constructor
  · intro h
    obtain ⟨node, hne, hfirst⟩ := h
    obtain ⟨node', behind, hstarts, hsame⟩ := firstNode_eq_some_iff.1 hfirst
    cases (List.cons.inj (String.ofList_inj.1 hsame)).2
    exact ⟨node, behind, hstarts, hne⟩
  · intro h
    obtain ⟨node, behind, hstarts, hne⟩ := h
    exact ⟨node, hne, firstNode_eq_some_iff.2 ⟨node, behind, hstarts, rfl⟩⟩

/-- An xpath follows the documented rule when what comes behind its first node is closed as
well. -/
theorem wellFormed_iff :
    WellFormed xpath ↔ ∃ node behind, Starts xpath node behind ∧ node ≠ [] ∧ Closed behind := by
  constructor
  · intro h
    obtain ⟨c, rest, htext, hc, hclosed⟩ := h
    obtain ⟨node, behind, hsplit, hnode, hstops, hbehind⟩ := hclosed.exists_node
    have hne : node ≠ [] := by
      intro heq
      subst heq
      rw [List.nil_append] at hsplit
      exact hc (hstops c (by simp [← hsplit]))
    rw [hsplit] at htext
    exact ⟨node, behind, ⟨htext, hnode, hstops⟩, hne, hbehind⟩
  · intro h
    obtain ⟨node, behind, hstarts, hne, hbehind⟩ := h
    obtain ⟨c, more, rfl⟩ := List.exists_cons_of_ne_nil hne
    exact ⟨c, more ++ behind, hstarts.text, hstarts.node.head_ne,
      hstarts.node.closed.append hbehind⟩

theorem checkXPath_eq_ok_iff : checkXPath xpath = .ok () ↔ isValid xpath = true := by
  unfold checkXPath
  split
  · simp [*]
  · simp [*]

/-- What is said of an xpath that is refused. -/
theorem eq_of_checkXPath {e : Error} (hrefused : checkXPath xpath = .error e) :
    e = .invalid (.badXPath xpath) := by
  unfold checkXPath at hrefused
  split at hrefused
  · cases hrefused
  · cases hrefused
    rfl

/-- **When xpaths are judged by the documented rule.**  An xpath is taken when it starts with
a node that is not empty; the rule says the same of it exactly when nothing behind that node
leaves a quote open.  An xpath that is refused is named in the error. -/
theorem rule_is_kept_iff (xpath : String) :
    (checkXPath xpath = .ok () ↔ ∃ node behind, Starts xpath node behind ∧ node ≠ []) ∧
      ((checkXPath xpath = .ok () ↔ WellFormed xpath) ↔
        ∀ node behind, Starts xpath node behind → node ≠ [] → Closed behind) ∧
      ∀ e, checkXPath xpath = .error e → e.kind = .validation ∧
        e.message = s!"Validation failed: Invalid xpath \"{xpath}\"." := by
  have haccepted : checkXPath xpath = .ok () ↔
      ∃ node behind, Starts xpath node behind ∧ node ≠ [] :=
    checkXPath_eq_ok_iff.trans isValid_iff
  refine ⟨haccepted, ?_, ?_⟩
  · rw [haccepted, wellFormed_iff]
    constructor
    · intro hkept node behind hstarts hne
      obtain ⟨node', behind', hstarts', -, hclosed⟩ := hkept.1 ⟨node, behind, hstarts, hne⟩
      rw [← (hstarts.unique hstarts').2]
      exact hclosed
    · intro hclosed
      constructor
      · intro h
        obtain ⟨node, behind, hstarts, hne⟩ := h
        exact ⟨node, behind, hstarts, hne, hclosed node behind hstarts hne⟩
      · intro h
        obtain ⟨node, behind, hstarts, hne, -⟩ := h
        exact ⟨node, behind, hstarts, hne⟩
  · intro e hrefused
    cases eq_of_checkXPath hrefused
    exact ⟨rfl, rfl⟩

/-- An xpath that is taken although its second node leaves a quote open. -/
theorem quote_stays_open :
    ¬ (checkXPath "/m:a/b['x" = .ok () ↔ WellFormed "/m:a/b['x") := by
  intro hkept
  obtain ⟨c, rest, htext, -, hclosed⟩ := hkept.1 rfl
  have hsame : c :: rest = "m:a/b['x".toList := (List.cons.inj htext).2.symm
  rw [hsame] at hclosed
  exact absurd hclosed (by decide)

/-! ## Looking at bytes -/

/-- What is found when the end of a node is looked for byte by byte. -/
def nodeBytes (quote : Option UInt8) : List UInt8 → Option (List UInt8)
  | [] => if quote.isNone then some [] else none
  | b :: rest =>
      match quote with
      | some q => (nodeBytes (if b = q then none else some q) rest).map (b :: ·)
      | none =>
          if b = 0x27 ∨ b = 0x22 then (nodeBytes (some b) rest).map (b :: ·)
          else if b = 0x2F then some []
          else (nodeBytes none rest).map (b :: ·)

/-- The bytes of the first node and of the slash before it. -/
def firstNodeBytes : List UInt8 → Option (List UInt8)
  | 0x2F :: rest => (nodeBytes none rest).map (0x2F :: ·)
  | _ => none

/-- The byte of a character that has one byte. -/
def byteOf (c : Char) : UInt8 := UInt8.ofNat c.toNat

/-- The bytes of some characters. -/
def encode (text : List Char) : List UInt8 := text.flatMap String.utf8EncodeChar

theorem bytes_ofList (text : List Char) : Utf8.bytes (String.ofList text) = encode text := by
  rw [Utf8.bytes, String.toUTF8_eq_toByteArray, String.toByteArray_ofList, List.utf8Encode]
  simp [encode]

/-- A character has one byte, or bytes that no character has for its only one. -/
theorem utf8EncodeChar_cases (c : Char) :
    c.toNat < 128 ∧ String.utf8EncodeChar c = [byteOf c] ∨
      128 ≤ c.toNat ∧ ∀ b ∈ String.utf8EncodeChar c, 128 ≤ b.toNat := by
  have hvalue : c.val.toNat = c.toNat := rfl
  have hbyte : ∀ n, 128 ≤ n → n < 256 → 128 ≤ (UInt8.ofNat n).toNat := by
    intro n hlow hhigh
    rw [UInt8.toNat_ofNat_of_lt' hhigh]
    exact hlow
  have hvalid : c.toNat < 0xD800 ∨ (0xDFFF < c.toNat ∧ c.toNat < 0x110000) := c.valid
  simp only [String.utf8EncodeChar, hvalue, byteOf]
  split
  · exact .inl ⟨by omega, rfl⟩
  · refine .inr ⟨by omega, ?_⟩
    split
    · simp only [List.forall_mem_cons, List.not_mem_nil, false_imp_iff, implies_true, and_true]
      exact ⟨hbyte _ (by omega) (by omega), hbyte _ (by omega) (by omega)⟩
    split
    · simp only [List.forall_mem_cons, List.not_mem_nil, false_imp_iff, implies_true, and_true]
      exact ⟨hbyte _ (by omega) (by omega), hbyte _ (by omega) (by omega),
        hbyte _ (by omega) (by omega)⟩
    · simp only [List.forall_mem_cons, List.not_mem_nil, false_imp_iff, implies_true, and_true]
      exact ⟨hbyte _ (by omega) (by omega), hbyte _ (by omega) (by omega),
        hbyte _ (by omega) (by omega), hbyte _ (by omega) (by omega)⟩

/-- Characters that have one byte are told apart by it. -/
theorem byteOf_eq_iff {c d : Char} (hc : c.toNat < 128) (hd : d.toNat < 128) :
    byteOf c = byteOf d ↔ c = d := by
  constructor
  · intro hsame
    have hnumbers := congrArg UInt8.toNat hsame
    rw [byteOf, byteOf, UInt8.toNat_ofNat_of_lt' (show c.toNat < 256 by omega),
      UInt8.toNat_ofNat_of_lt' (show d.toNat < 256 by omega)] at hnumbers
    exact Char.toNat_inj.1 hnumbers
  · intro heq
    subst heq
    rfl

theorem toNat_of_isQuote {q : Char} (hquote : isQuote q = true) : q.toNat < 128 := by
  simp only [isQuote, Bool.or_eq_true, beq_iff_eq] at hquote
  rcases hquote with rfl | rfl
  · decide
  · decide

/-- The bytes of other characters come before the end of a node, inside of quotes and
outside. -/
theorem nodeBytes_append {bytes : List UInt8} (hbytes : ∀ b ∈ bytes, 128 ≤ b.toNat)
    {quote : Option UInt8} (hquote : ∀ q ∈ quote, q.toNat < 128) (rest : List UInt8) :
    nodeBytes quote (bytes ++ rest) = (nodeBytes quote rest).map (bytes ++ ·) := by
  induction bytes with
  | nil => simp
  | cons b bytes ih =>
      have hb := hbytes b List.mem_cons_self
      have hrest := ih fun d hd => hbytes d (List.mem_cons_of_mem _ hd)
      have hother : ∀ d : UInt8, d.toNat < 128 → b ≠ d := by
        intro d hd heq
        subst heq
        omega
      cases quote with
      | some q =>
          rw [List.cons_append, nodeBytes]
          simp only [if_neg (hother q (hquote q rfl)), hrest, Option.map_map]
          rfl
      | none =>
          have hplain : ¬ (b = 0x27 ∨ b = 0x22) :=
            not_or.2 ⟨hother _ (by decide), hother _ (by decide)⟩
          rw [List.cons_append, nodeBytes]
          simp only [if_neg hplain, if_neg (hother 0x2F (by decide)), hrest, Option.map_map]
          rfl

theorem toNat_of_byteOf {quote : Option Char} (hquote : ∀ q ∈ quote, isQuote q = true) :
    ∀ b ∈ quote.map byteOf, b.toNat < 128 := by
  intro b hb
  obtain ⟨q, hq, rfl⟩ := Option.map_eq_some_iff.1 hb
  have hlt := toNat_of_isQuote (hquote q hq)
  rw [byteOf, UInt8.toNat_ofNat_of_lt' (show q.toNat < 256 by omega)]
  exact hlt

/-- A byte of a small character is a quote when the character is one. -/
theorem byteOf_isQuote_iff {c : Char} (hc : c.toNat < 128) :
    (byteOf c = 0x27 ∨ byteOf c = 0x22) ↔ isQuote c = true := by
  rw [isQuote, Bool.or_eq_true, beq_iff_eq, beq_iff_eq,
    ← byteOf_eq_iff hc (show (Char.toNat '\x27') < 128 by decide),
    ← byteOf_eq_iff hc (show (Char.toNat '\x22') < 128 by decide)]
  rfl

theorem encode_cons (c : Char) (rest : List Char) :
    encode (c :: rest) = String.utf8EncodeChar c ++ encode rest :=
  List.flatMap_cons

theorem map_encode_cons (c : Char) (found : Option (List Char)) :
    (found.map (c :: ·)).map encode =
      (found.map encode).map (String.utf8EncodeChar c ++ ·) := by
  cases found with
  | none => rfl
  | some node => simp [encode_cons]

/-- A large character is part of the node, wherever it stands. -/
theorem nodeText_cons_of_le {quote : Option Char} (hquote : ∀ q ∈ quote, isQuote q = true)
    {c : Char} (hc : 128 ≤ c.toNat) (rest : List Char) :
    nodeText quote (c :: rest) = (nodeText quote rest).map (c :: ·) := by
  have hother : ∀ d : Char, d.toNat < 128 → c ≠ d := by
    intro d hd heq
    subst heq
    omega
  cases quote with
  | some q => rw [nodeText, if_neg (hother q (toNat_of_isQuote (hquote q rfl)))]
  | none =>
      have hplain : ¬ isQuote c = true := by
        intro hmark
        have hlt := toNat_of_isQuote hmark
        omega
      rw [nodeText, if_neg hplain, if_neg (hother '/' (by decide))]

/-- **Byte by byte** the same end of the node is found. -/
theorem nodeBytes_encode {quote : Option Char} (hquote : ∀ q ∈ quote, isQuote q = true)
    (text : List Char) :
    nodeBytes (quote.map byteOf) (encode text) = (nodeText quote text).map encode := by
  induction text generalizing quote with
  | nil =>
      cases quote with
      | none => rfl
      | some q => rfl
  | cons c rest ih =>
      have hnone : nodeBytes none (encode rest) = (nodeText none rest).map encode :=
        @ih none (by simp)
      have hmap := map_encode_cons c
      rw [encode_cons]
      rcases utf8EncodeChar_cases c with ⟨hc, hone⟩ | ⟨hc, hbytes⟩
      · -- the only byte says which character it is
        rw [hone] at hmap ⊢
        simp only [List.singleton_append] at hmap ⊢
        cases quote with
        | some q =>
            rw [Option.map_some, nodeBytes, nodeText]
            simp only [byteOf_eq_iff hc (toNat_of_isQuote (hquote q rfl)), hmap]
            by_cases hsame : c = q
            · rw [if_pos hsame, if_pos hsame, hnone]
            · rw [if_neg hsame, if_neg hsame, ← ih hquote]
              rfl
        | none =>
            have hslash : byteOf c = 0x2F ↔ c = '/' :=
              byteOf_eq_iff hc (show (Char.toNat '/') < 128 by decide)
            rw [Option.map_none, nodeBytes, nodeText]
            simp only [byteOf_isQuote_iff hc, hslash]
            by_cases hopen : isQuote c = true
            · have hquoted : ∀ q ∈ some c, isQuote q = true := by
                intro q hq
                cases hq
                exact hopen
              rw [if_pos hopen, if_pos hopen, hmap, ← ih hquoted]
              rfl
            · rw [if_neg hopen, if_neg hopen]
              by_cases hstop : c = '/'
              · rw [if_pos hstop, if_pos hstop]
                rfl
              · rw [if_neg hstop, if_neg hstop, hmap, hnone]
      · -- no byte is a mark, and neither is the character
        rw [nodeBytes_append hbytes (toNat_of_byteOf hquote), ih hquote,
          nodeText_cons_of_le hquote hc, hmap]

/-- Bytes that do not begin with a slash have no first node. -/
theorem firstNodeBytes_of_ne {b : UInt8} (hb : b ≠ 0x2F) (rest : List UInt8) :
    firstNodeBytes (b :: rest) = none := by
  unfold firstNodeBytes
  split
  · rename_i heq
    exact absurd (List.cons.inj heq).1 hb
  · rfl

/-- The first byte of a character that is no slash is none either. -/
theorem exists_encode_of_ne {c : Char} (hc : c ≠ '/') (rest : List Char) :
    ∃ b more, encode (c :: rest) = b :: more ∧ b ≠ 0x2F := by
  rw [encode_cons]
  rcases utf8EncodeChar_cases c with ⟨hsmall, hone⟩ | ⟨hlarge, hbytes⟩
  · refine ⟨byteOf c, encode rest, by rw [hone]; rfl, ?_⟩
    exact fun hb => hc ((byteOf_eq_iff hsmall (show (Char.toNat '/') < 128 by decide)).1 hb)
  · obtain ⟨b, more, hbytes'⟩ := List.exists_cons_of_length_pos (l := String.utf8EncodeChar c)
      (by rw [String.length_utf8EncodeChar]; exact Char.utf8Size_pos c)
    refine ⟨b, more ++ encode rest, by rw [hbytes']; rfl, ?_⟩
    intro heq
    subst heq
    have hlow := hbytes 0x2F (by rw [hbytes']; exact List.mem_cons_self)
    exact absurd hlow (by decide)

/-- The first node of an xpath is found by looking at its bytes, as well as by looking at
its characters. -/
theorem firstNodeBytes_bytes (xpath : String) :
    firstNodeBytes (Utf8.bytes xpath) = (firstNode xpath).map Utf8.bytes := by
  have hxpath : Utf8.bytes xpath = encode xpath.toList := by
    rw [← bytes_ofList, String.ofList_toList]
  rw [hxpath, firstNode]
  cases htext : xpath.toList with
  | nil => rfl
  | cons c rest =>
      by_cases hslash : c = '/'
      · subst hslash
        have hencode : ∀ text, encode ('/' :: text) = 0x2F :: encode text := by
          intro text
          rw [encode_cons]
          rfl
        rw [hencode, firstNodeBytes]
        simp only [Option.map_map]
        have hfound : nodeBytes none (encode rest) = (nodeText none rest).map encode :=
          @nodeBytes_encode none (by simp) rest
        rw [hfound, Option.map_map]
        congr 1
        funext node
        simp only [Function.comp_apply, bytes_ofList, hencode]
      · obtain ⟨b, more, hencode, hb⟩ := exists_encode_of_ne hslash rest
        rw [hencode, firstNodeBytes_of_ne hb]
        split
        · rename_i heq
          exact absurd (List.cons.inj heq).1 hslash
        · rfl

end XPath

end Subscription
