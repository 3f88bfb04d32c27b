import Subscription.Data.Value

/-!
# Leaves and their text

A leaf has a text and a type, and its value is what the text means in the type.  Several texts
may mean the same: a number can be written with a plus sign and with zeros in front.  A value
is written in one way only.

* A text means a number of an integer type just when it is an optional sign and digits, a
  minus sign only where the type has negative numbers, and when the number that they write
  fits the type (`IntegerType.parse_eq_some_iff`).
* What is written for a value means that value again (`typedData_text?`), so that two leaves of
  one type have the same value just when the same is written for both
  (`Node.leaves_are_exact`).  Decimal numbers are left out: they are rounded.
-/

namespace Subscription

/-! ## Numbers -/

/-- The number that digits write, the first one counting most. -/
def decimalValue : List Char → Nat
  | [] => 0
  | d :: rest => (d.toNat - 48) * Nat.pow 10 rest.length + decimalValue rest

/-- One or more ASCII digits. -/
structure AreDigits (digits : List Char) : Prop where
  nonempty : digits ≠ []
  ascii : ∀ d ∈ digits, '0' ≤ d ∧ d ≤ '9'

theorem isDigit_iff {d : Char} : d.isDigit = true ↔ '0' ≤ d ∧ d ≤ '9' := by
  simp [Char.isDigit, Char.le_def]

/-- Digits that are read from the left, behind a number that was read before them. -/
theorem ofDigitChars_eq (digits : List Char) (n : Nat) : Nat.ofDigitChars 10 digits n =
    n * Nat.pow 10 digits.length + decimalValue digits := by
  induction digits generalizing n with
  | nil => simp [decimalValue]
  | cons d rest ih =>
      have hzero : '0'.toNat = 48 := rfl
      have hpow : Nat.pow 10 (d :: rest).length = Nat.pow 10 rest.length * 10 := rfl
      rw [Nat.ofDigitChars_cons, ih, decimalValue, hpow, hzero]
      grind

/-- A run of digits has the number that it writes, and nothing else has one. -/
theorem digitsValue?_eq_some_iff {digits : List Char} {n : Nat} :
    digitsValue? digits = some n ↔ AreDigits digits ∧ n = decimalValue digits := by
  have hdigits : AreDigits digits ↔ digits ≠ [] ∧ digits.all Char.isDigit := by
    rw [List.all_eq_true]
    simp only [isDigit_iff]
    exact ⟨fun h => ⟨h.nonempty, h.ascii⟩, fun h => ⟨h.1, h.2⟩⟩
  have hvalue : Nat.ofDigitChars 10 digits 0 = decimalValue digits := by
    rw [ofDigitChars_eq, Nat.zero_mul, Nat.zero_add]
  rw [digitsValue?, hvalue, hdigits, Option.ite_none_right_eq_some, Option.some.injEq,
    eq_comm (a := n)]

theorem map_digitsValue?_eq_some_iff {digits : List Char} {f : Nat → Int} {v : Int} :
    (digitsValue? digits).map f = some v ↔ AreDigits digits ∧ v = f (decimalValue digits) := by
  simp only [Option.map_eq_some_iff, digitsValue?_eq_some_iff]
  grind

/-- Digits do not begin with a sign. -/
theorem AreDigits.ne_sign {digits : List Char} (hdigits : AreDigits digits) {sign : Char}
    (hsign : sign.toNat < 48) (rest : List Char) : digits ≠ sign :: rest := by
  intro h
  subst h
  have hleast := (hdigits.ascii sign List.mem_cons_self).1
  have : '0'.toNat ≤ sign.toNat := hleast
  have hzero : '0'.toNat = 48 := rfl
  omega

namespace IntegerType

variable {t : IntegerType} {text : String} {v : Int}

/-- A text writes a number: digits behind an optional sign, which may be a minus sign where the
type has negative numbers. -/
inductive Writes (t : IntegerType) : List Char → Int → Prop
  | plain {digits : List Char} (hdigits : AreDigits digits) :
      Writes t digits (decimalValue digits)
  | plus {digits : List Char} (hdigits : AreDigits digits) :
      Writes t ('+' :: digits) (decimalValue digits)
  | minus {digits : List Char} (hdigits : AreDigits digits) (hsigned : t.signed = true) :
      Writes t ('-' :: digits) (-(decimalValue digits : Int))

theorem signedValue?_eq_some_iff {chars : List Char} :
    t.signedValue? chars = some v ↔ t.Writes chars v := by
  constructor
  · intro h
    unfold signedValue? at h
    split at h
    · obtain ⟨hdigits, rfl⟩ := map_digitsValue?_eq_some_iff.1 h
      exact .plus hdigits
    · obtain ⟨hsigned, h⟩ := Option.ite_none_right_eq_some.1 h
      obtain ⟨hdigits, rfl⟩ := map_digitsValue?_eq_some_iff.1 h
      exact .minus hdigits hsigned
    · obtain ⟨hdigits, rfl⟩ := map_digitsValue?_eq_some_iff.1 h
      exact .plain hdigits
  · intro h
    cases h with
    | plain hdigits =>
        -- Digits are no sign, so that they are read as they are.
        unfold signedValue?
        split
        · next rest => exact absurd rfl (hdigits.ne_sign (by decide) rest)
        · next rest => exact absurd rfl (hdigits.ne_sign (by decide) rest)
        · exact map_digitsValue?_eq_some_iff.2 ⟨hdigits, rfl⟩
    | plus hdigits => exact map_digitsValue?_eq_some_iff.2 ⟨hdigits, rfl⟩
    | minus hdigits hsigned =>
        rw [signedValue?, if_pos hsigned]
        exact map_digitsValue?_eq_some_iff.2 ⟨hdigits, rfl⟩

/-- **The numbers of an integer type**, and the texts that mean them. -/
theorem parse_eq_some_iff :
    t.parse text = some v ↔ t.Writes text.toList v ∧ t.least ≤ v ∧ v ≤ t.greatest := by
  rw [parse, Option.filter_eq_some_iff, signedValue?_eq_some_iff, decide_eq_true_eq]

/-- The types and where they end. -/
example : all.map (fun t => (t.least, t.greatest)) =
    [(-128, 127), (-32768, 32767), (-2147483648, 2147483647),
      (-9223372036854775808, 9223372036854775807), (0, 255), (0, 65535), (0, 4294967295),
      (0, 18446744073709551615)] := by decide

/-- A number is written as a text that means it, where it has a sign that the type has. -/
theorem writes_toString (hsigned : v < 0 → t.signed = true) : t.Writes (toString v).toList v := by
  have hwritten (n : Nat) :
      AreDigits (Nat.repr n).toList ∧ n = decimalValue (Nat.repr n).toList := by
    rw [Nat.toList_repr]
    exact digitsValue?_eq_some_iff.1 (digitsValue?_toDigits n)
  cases v with
  | ofNat n =>
      obtain ⟨hdigits, hn⟩ := hwritten n
      have hplain := Writes.plain (t := t) hdigits
      rw [← hn] at hplain
      exact hplain
  | negSucc n =>
      obtain ⟨hdigits, hn⟩ := hwritten n.succ
      have hminus := Writes.minus hdigits (hsigned (Int.negSucc_lt_zero n))
      rw [← hn] at hminus
      have htext : (toString (Int.negSucc n)).toList = '-' :: (Nat.repr n.succ).toList :=
        String.toList_append
      rw [htext]
      exact hminus

/-- A number of a type is written as a text that means it. -/
theorem parse_toString (hleast : t.least ≤ v) (hgreatest : v ≤ t.greatest) :
    t.parse (toString v) = some v := by
  refine parse_eq_some_iff.2 ⟨writes_toString ?_, hleast, hgreatest⟩
  intro hbelow
  by_cases hsigned : t.signed = true
  · exact hsigned
  · rw [least, if_neg hsigned] at hleast
    omega

end IntegerType

/-! ## Texts -/

section Texts

variable {type : LeafType} {text xpath : String} {data : ValueData}

theorem typedData_integer_eq_ok_iff {t : IntegerType} :
    typedData (.integer t) text = .ok data ↔ ∃ v, t.parse text = some v ∧ data = .integer t v := by
  rw [typedData]
  cases t.parse text <;> simp [eq_comm]

theorem typedData_boolean_eq_ok_iff :
    typedData .boolean text = .ok data ↔
      ∃ b : Bool, text = (if b then "true" else "false") ∧ data = .boolean b := by
  rw [typedData, Bool.exists_bool]
  grind

/-- **A value is written as a text that means it**. -/
theorem typedData_text? (hdecimal : type ≠ .decimal64) (hempty : type ≠ .empty)
    (hdata : typedData type text = .ok data) :
    ∃ written, data.text? = some written ∧ typedData type written = .ok data := by
  cases type with
  | decimal64 => exact absurd rfl hdecimal
  | empty => exact absurd rfl hempty
  | binary | bits | enumeration | identityRef | instanceId | string =>
      cases hdata
      exact ⟨text, rfl, rfl⟩
  | boolean =>
      obtain ⟨b, rfl, rfl⟩ := typedData_boolean_eq_ok_iff.1 hdata
      exact ⟨_, rfl, hdata⟩
  | integer t =>
      obtain ⟨v, hv, rfl⟩ := typedData_integer_eq_ok_iff.1 hdata
      obtain ⟨-, hleast, hgreatest⟩ := IntegerType.parse_eq_some_iff.1 hv
      have hagain := IntegerType.parse_toString hleast hgreatest
      exact ⟨toString v, rfl, typedData_integer_eq_ok_iff.2 ⟨v, hagain, rfl⟩⟩

theorem leafData_eq_ok_iff (hempty : type ≠ .empty) {value : Option String} :
    leafData type value xpath = .ok data ↔
      ∃ text, value = some text ∧ typedData type text = .ok data := by
  cases value with
  | none => simp [leafData]
  | some text => simp [leafData]

end Texts

namespace Node

variable {type : LeafType} {node : Node} {xpath : String} {value : Value}

/-- A leaf of a type, or an entry of a leaf-list of the type. -/
def IsLeaf (node : Node) (type : LeafType) : Prop :=
  node.kind = .leaf type ∨ node.kind = .leafList type

theorem ofNode_leaf_eq_ok_iff (hleaf : node.IsLeaf type) :
    Value.ofNode node xpath = .ok value ↔ ∃ data,
      leafData type node.value xpath = .ok data ∧ value = ⟨xpath, node.isDefault, data⟩ := by
  have hdata : node.data xpath = leafData type node.value xpath := by
    rcases hleaf with hkind | hkind <;> rw [Node.data, hkind]
  rw [Value.ofNode, hdata]
  cases leafData type node.value xpath <;> simp [Except.map, eq_comm]

theorem ofNode_integer_eq_ok_iff {t : IntegerType} (hleaf : node.IsLeaf (.integer t)) :
    Value.ofNode node xpath = .ok value ↔ ∃ text v, node.value = some text ∧
      t.Writes text.toList v ∧ t.least ≤ v ∧ v ≤ t.greatest ∧
      value = ⟨xpath, node.isDefault, .integer t v⟩ := by
  have hempty : LeafType.integer t ≠ .empty := nofun
  simp only [ofNode_leaf_eq_ok_iff hleaf, leafData_eq_ok_iff hempty,
    typedData_integer_eq_ok_iff, IntegerType.parse_eq_some_iff]
  grind

theorem ofNode_boolean_eq_ok_iff (hleaf : node.IsLeaf .boolean) :
    Value.ofNode node xpath = .ok value ↔ ∃ b : Bool,
      node.value = some (if b then "true" else "false") ∧
      value = ⟨xpath, node.isDefault, .boolean b⟩ := by
  have hempty : LeafType.boolean ≠ .empty := nofun
  simp only [ofNode_leaf_eq_ok_iff hleaf, leafData_eq_ok_iff hempty, typedData_boolean_eq_ok_iff]
  grind

/-- The text that is written for the value of a leaf may stand in its place. -/
theorem ofNode_text? (hleaf : node.IsLeaf type) (hdecimal : type ≠ .decimal64)
    (hempty : type ≠ .empty) (hvalue : Value.ofNode node xpath = .ok value) :
    ∃ written, value.data.text? = some written ∧ typedData type written = .ok value.data ∧
      Value.ofNode { node with value := some written } xpath = .ok value := by
  obtain ⟨data, hdata, rfl⟩ := (ofNode_leaf_eq_ok_iff hleaf).1 hvalue
  obtain ⟨text, -, htyped⟩ := (leafData_eq_ok_iff hempty).1 hdata
  obtain ⟨written, hwritten, hagain⟩ := typedData_text? hdecimal hempty htyped
  refine ⟨written, hwritten, hagain, ?_⟩
  have hleaf' : IsLeaf { node with value := some written } type := hleaf
  exact (ofNode_leaf_eq_ok_iff hleaf').2
    ⟨data, (leafData_eq_ok_iff hempty).2 ⟨written, rfl, hagain⟩, rfl⟩

/-- Two leaves of one type that are written the same have the same value. -/
theorem data_eq_of_text?_eq {other : Node} {xpath' : String} {value' : Value}
    (hleaf : node.IsLeaf type) (hleaf' : other.IsLeaf type) (hdecimal : type ≠ .decimal64)
    (hvalue : Value.ofNode node xpath = .ok value)
    (hvalue' : Value.ofNode other xpath' = .ok value')
    (htext : value.data.text? = value'.data.text?) : value.data = value'.data := by
  by_cases hempty : type = .empty
  · -- An empty leaf has one value and no text, so that here nothing follows from the texts.
    subst hempty
    obtain ⟨data, hdata, rfl⟩ := (ofNode_leaf_eq_ok_iff hleaf).1 hvalue
    obtain ⟨data', hdata', rfl⟩ := (ofNode_leaf_eq_ok_iff hleaf').1 hvalue'
    exact Except.ok.inj (hdata.symm.trans hdata')
  · obtain ⟨written, hwritten, hagain, -⟩ := ofNode_text? hleaf hdecimal hempty hvalue
    obtain ⟨written', hwritten', hagain', -⟩ := ofNode_text? hleaf' hdecimal hempty hvalue'
    have hsame : written = written' := Option.some.inj (by rw [← hwritten, htext, hwritten'])
    subst hsame
    exact Except.ok.inj (hagain.symm.trans hagain')

/-- **Leaves are exact.**  A leaf of an integer type has a value just when its text is an
optional sign and digits that write a number of the type, and its value is that number; a
boolean leaf has a value just when its text is one of two.  Decimal numbers aside, what is
written for a value has the same value when it is put in the place of the text, and leaves of
one type have the same value just when the same is written for both. -/
theorem leaves_are_exact (hleaf : node.IsLeaf type) (xpath : String) (value : Value) :
    (∀ t, type = .integer t →
      (Value.ofNode node xpath = .ok value ↔ ∃ text v, node.value = some text ∧
        t.Writes text.toList v ∧ t.least ≤ v ∧ v ≤ t.greatest ∧
        value = ⟨xpath, node.isDefault, .integer t v⟩)) ∧
    (type = .boolean →
      (Value.ofNode node xpath = .ok value ↔ ∃ b : Bool,
        node.value = some (if b then "true" else "false") ∧
        value = ⟨xpath, node.isDefault, .boolean b⟩)) ∧
    (type ≠ .decimal64 → Value.ofNode node xpath = .ok value →
      (type ≠ .empty → ∃ written, value.data.text? = some written ∧
        Value.ofNode { node with value := some written } xpath = .ok value) ∧
      ∀ (other : Node) (xpath' : String) (value' : Value), other.IsLeaf type →
        Value.ofNode other xpath' = .ok value' →
        (value.data = value'.data ↔ value.data.text? = value'.data.text?)) := by
  refine ⟨?_, ?_, ?_⟩
  · intro t htype
    subst htype
    exact ofNode_integer_eq_ok_iff hleaf
  · intro htype
    subst htype
    exact ofNode_boolean_eq_ok_iff hleaf
  · intro hdecimal hvalue
    refine ⟨?_, ?_⟩
    · intro hempty
      obtain ⟨written, hwritten, -, hagain⟩ := ofNode_text? hleaf hdecimal hempty hvalue
      exact ⟨written, hwritten, hagain⟩
    · intro other xpath' value' hleaf' hvalue'
      exact ⟨congrArg ValueData.text?, data_eq_of_text?_eq hleaf hleaf' hdecimal hvalue hvalue'⟩

/-- A leaf of eight bits that holds the least number, with a zero in front. -/
def coldest : Node := leaf "m" "level" (.integer .int8) "-0128"

/-- The least number of eight bits is read past the zero, and is written without it. -/
theorem leaves_are_exact_coldest :
    coldest.IsLeaf (.integer .int8) ∧
    Value.ofNode coldest "/m:level" = .ok ⟨"/m:level", false, .integer .int8 (-128)⟩ ∧
    Value.ofNode { coldest with value := some "-128" } "/m:level" =
      .ok ⟨"/m:level", false, .integer .int8 (-128)⟩ := by
  have hleaf : coldest.IsLeaf (.integer .int8) := .inl rfl
  have hexact := leaves_are_exact hleaf "/m:level" ⟨"/m:level", false, .integer .int8 (-128)⟩
  have hdigits : AreDigits ['0', '1', '2', '8'] :=
    ((digitsValue?_eq_some_iff (n := 128)).1 rfl).1
  have hvalue := (hexact.1 .int8 rfl).2
    ⟨"-0128", -128, rfl, .minus hdigits rfl, by decide, by decide, rfl⟩
  obtain ⟨written, hwritten, hagain⟩ := (hexact.2.2 nofun hvalue).1 nofun
  obtain rfl : written = "-128" := Option.some.inj (hwritten.symm.trans rfl)
  exact ⟨hleaf, hvalue, hagain⟩

end Node

end Subscription
