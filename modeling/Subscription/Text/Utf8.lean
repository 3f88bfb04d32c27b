/-!
# UTF-8

Texts lie in files as UTF-8.  A file may hold bytes that are no text, and
there are two ways to read one: `Utf8.text?` refuses such bytes, `Utf8.text`
makes the best of them.

The tolerant reading goes from byte to byte.  A byte either is a character,
or begins one and says how many bytes follow it and which the next may be
(`Unfinished`), or can begin none.  Where a byte does not go on with what is
unfinished, all that was read of it becomes one replacement character, and
the byte is read as a new beginning.

* `Utf8.text_bytes` — the bytes of a text read as that text.
-/

namespace Subscription

namespace Utf8

/-- The bytes of a text. -/
def bytes (text : String) : List UInt8 :=
  text.toUTF8.data.toList

/-- The text that bytes stand for, if they are UTF-8. -/
def text? (bytes : List UInt8) : Option String :=
  String.fromUTF8? ⟨bytes.toArray⟩

/-- What stands for bytes that are no character. -/
def replacement : Char := '\uFFFD'

/-- A character of which only the first bytes have been read. -/
structure Unfinished where
  /-- The bits of the character so far. -/
  value : Nat
  /-- The least byte that may be next. -/
  least : Nat
  /-- The greatest byte that may be next. -/
  greatest : Nat
  /-- How many bytes there are after the next one. -/
  owed : Nat
  deriving DecidableEq, Repr, Inhabited

/-- What a byte comes to. -/
inductive Progress where
  /-- The character ends with it. -/
  | character (c : Char)
  | unfinished (u : Unfinished)
  /-- It is out of place. -/
  | broken
  deriving DecidableEq, Repr, Inhabited

/-- What comes of the first byte of a character.  The ranges leave out the
longer forms of characters that have a shorter one, the surrogates, and what
is behind the last code point. -/
def begin (b : Nat) : Progress :=
  if b < 0x80 then .character (Char.ofNat b)
  else if b < 0xC2 then .broken
  else if b < 0xE0 then .unfinished ⟨b % 0x20, 0x80, 0xBF, 0⟩
  else if b < 0xF0 then
    .unfinished ⟨b % 0x10, if b = 0xE0 then 0xA0 else 0x80, if b = 0xED then 0x9F else 0xBF, 1⟩
  else if b < 0xF5 then
    .unfinished ⟨b % 0x08, if b = 0xF0 then 0x90 else 0x80, if b = 0xF4 then 0x8F else 0xBF, 2⟩
  else .broken

/-- What comes of the next byte of a character. -/
def Unfinished.next (u : Unfinished) (b : Nat) : Progress :=
  if b < u.least ∨ u.greatest < b then .broken
  else
    match u.owed with
    | 0 => .character (Char.ofNat (u.value * 64 + b % 64))
    | owed + 1 => .unfinished ⟨u.value * 64 + b % 64, 0x80, 0xBF, owed⟩

/-- How far the tolerant reading has come. -/
structure Reading where
  /-- The characters so far, backwards. -/
  done : List Char
  unfinished : Option Unfinished
  deriving DecidableEq, Repr, Inhabited

namespace Reading

/-- Nothing has been read. -/
def start : Reading := ⟨[], none⟩

/-- Reads the first byte of a character. -/
def first (done : List Char) (b : UInt8) : Reading :=
  match begin b.toNat with
  | .character c => ⟨c :: done, none⟩
  | .unfinished u => ⟨done, some u⟩
  | .broken => ⟨replacement :: done, none⟩

/-- Reads one byte more. -/
def read (r : Reading) (b : UInt8) : Reading :=
  match r.unfinished with
  | none => first r.done b
  | some u =>
      match u.next b.toNat with
      | .character c => ⟨c :: r.done, none⟩
      | .unfinished u => ⟨r.done, some u⟩
      | .broken => first (replacement :: r.done) b

/-- The characters when there is no byte left. -/
def finish (r : Reading) : List Char :=
  match r.unfinished with
  | none => r.done.reverse
  | some _ => (replacement :: r.done).reverse

end Reading

/-- The text that bytes stand for, with replacement characters for what is
none. -/
def text (bytes : List UInt8) : String :=
  String.ofList (bytes.foldl Reading.read .start).finish

/-- A byte below 0x80 is a character. -/
theorem begin_ascii {b : Nat} (h : b < 0x80) : begin b = .character (Char.ofNat b) := by
  simp [begin, h]

/-- A character of two bytes has begun. -/
theorem begin_two {b : Nat} (h : 0xC2 ≤ b) (h' : b < 0xE0) :
    begin b = .unfinished ⟨b % 0x20, 0x80, 0xBF, 0⟩ := by
  rw [begin, if_neg (by omega), if_neg (by omega), if_pos h']

/-- A character of three bytes has begun. -/
theorem begin_three {b : Nat} (h : 0xE0 ≤ b) (h' : b < 0xF0) :
    begin b = .unfinished
      ⟨b % 0x10, if b = 0xE0 then 0xA0 else 0x80, if b = 0xED then 0x9F else 0xBF, 1⟩ := by
  rw [begin, if_neg (by omega), if_neg (by omega), if_neg (by omega), if_pos h']

/-- A character of four bytes has begun. -/
theorem begin_four {b : Nat} (h : 0xF0 ≤ b) (h' : b < 0xF5) :
    begin b = .unfinished
      ⟨b % 0x08, if b = 0xF0 then 0x90 else 0x80, if b = 0xF4 then 0x8F else 0xBF, 2⟩ := by
  rw [begin, if_neg (by omega), if_neg (by omega), if_neg (by omega), if_neg (by omega), if_pos h']

/-- The bytes of a character are read as that character, whatever was read before. -/
theorem foldl_read_encode (c : Char) (done : List Char) :
    (String.utf8EncodeChar c).foldl Reading.read ⟨done, none⟩ = ⟨c :: done, none⟩ := by
  have hv : c.val.toNat < 0xD800 ∨ (0xDFFF < c.val.toNat ∧ c.val.toNat < 0x110000) := c.valid
  have hc : Char.ofNat c.val.toNat = c := Char.ofNat_toNat c
  simp only [String.utf8EncodeChar]
  generalize c.val.toNat = v at *
  subst hc
  have byte (n : Nat) (h : n < 256) : (UInt8.ofNat n).toNat = n := by
    rw [UInt8.toNat_ofNat']; omega
  split
  · simp only [List.foldl_cons, List.foldl_nil, Reading.read, Reading.first]
    rw [byte v (by omega), begin_ascii (by omega)]
  split
  · simp only [List.foldl_cons, List.foldl_nil, Reading.read, Reading.first]
    rw [byte _ (by omega), byte _ (by omega), begin_two (by omega) (by omega)]
    simp only [Unfinished.next]
    rw [if_neg (by omega), show (v / 64 % 32 + 192) % 0x20 * 64 + (v % 64 + 128) % 64 = v by omega]
  split
  · simp only [List.foldl_cons, List.foldl_nil, Reading.read, Reading.first]
    rw [byte _ (by omega), byte _ (by omega), byte _ (by omega), begin_three (by omega) (by omega)]
    simp only [Unfinished.next]
    rw [if_neg (by split <;> split <;> omega)]
    simp only
    rw [if_neg (by omega),
      show ((v / 4096 % 16 + 224) % 0x10 * 64 + (v / 64 % 64 + 128) % 64) * 64 +
        (v % 64 + 128) % 64 = v by omega]
  · simp only [List.foldl_cons, List.foldl_nil, Reading.read, Reading.first]
    rw [byte _ (by omega), byte _ (by omega), byte _ (by omega), byte _ (by omega),
      begin_four (by omega) (by omega)]
    simp only [Unfinished.next]
    rw [if_neg (by split <;> split <;> omega)]
    simp only
    rw [if_neg (by omega)]
    simp only
    rw [if_neg (by omega),
      show (((v / 262144 % 8 + 240) % 0x08 * 64 + (v / 4096 % 64 + 128) % 64) * 64 +
        (v / 64 % 64 + 128) % 64) * 64 + (v % 64 + 128) % 64 = v by omega]

/-- The bytes of a text read as that text: nothing in them needs replacement. -/
theorem text_bytes (s : String) : text (bytes s) = s := by
  have h : bytes s = s.toList.flatMap String.utf8EncodeChar := by
    have h : s.toUTF8 = s.toList.utf8Encode := by
      have := @String.toByteArray_ofList s.toList
      rw [String.ofList_toList] at this
      exact this
    rw [bytes, h, List.utf8Encode]
    simp
  have fold (cs done : List Char) :
      (cs.flatMap String.utf8EncodeChar).foldl Reading.read ⟨done, none⟩ =
        ⟨cs.reverse ++ done, none⟩ := by
    induction cs generalizing done with
    | nil => rfl
    | cons c rest ih =>
        rw [List.flatMap_cons, List.foldl_append, foldl_read_encode, ih]
        simp
  rw [text, h, Reading.start, fold]
  simp [Reading.finish]

end Utf8

end Subscription
