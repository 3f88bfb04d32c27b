import Subscription.Disk.Content

/-!
# The bytes of a content

A content is looked at byte by byte: `Content.byte` is the byte at an offset,
inside the pages as they are in memory and zero behind them.  Reading depends
on nothing else (`read_congr`), writing changes the bytes that it covers and
no others (`read_write_same`, `byte_write_of_outside`), and setting the length
keeps the bytes in front of both ends (`byte_resize`).

What is stored as a number comes back (`number_setNumber`) and is not touched
from elsewhere (`number_write_of_outside`).  The same holds for signatures
(`signer?_write_of_outside`).
-/

namespace Subscription

/-- The last page does not end before the file does. -/
theorem le_pageEnd (length : Nat) : length ≤ pageEnd length := by
  unfold pageEnd pageSize
  omega

namespace Sparse

/-- Overwriting inside the sequence replaces the bytes one by one. -/
theorem getElem?_overwrite {s : Sparse} {start : Nat} {new : List UInt8} (i : Nat)
    (hin : start + new.length ≤ s.size) :
    (s.overwrite start new).toList[i]? =
      if start ≤ i ∧ i < start + new.length then new[i - start]? else s.toList[i]? := by
  have hfront : (s.toList.take start).length = start := by
    rw [List.length_take, length_toList]
    omega
  rw [overwrite, toList_append, toList, toList_drop, toList_takePadded,
    Nat.sub_eq_zero_of_le (by omega : start ≤ s.size), List.replicate_zero, List.append_nil]
  by_cases hlo : i < start
  · rw [if_neg (by omega), List.getElem?_append_left (by omega), List.getElem?_take_of_lt hlo]
  · rw [List.getElem?_append_right (by omega), hfront]
    by_cases hhi : i < start + new.length
    · rw [if_pos (by omega), List.getElem?_append_left (by omega)]
    · rw [if_neg (by omega), List.getElem?_append_right (by omega), List.getElem?_drop]
      congr 1
      omega

end Sparse

namespace Content

/-- The byte at an offset; behind the pages there are zeros. -/
def byte (c : Content) (i : Nat) : UInt8 :=
  c.pages.toList[i]?.getD 0

/-- The bytes that are read are those from the offset on. -/
theorem getElem?_read (c : Content) {offset count k : Nat} (hk : k < count) :
    (c.read offset count)[k]? = some (c.byte (offset + k)) := by
  have hsize := c.pages.length_toList
  have hfront : ((c.pages.toList.drop offset).take count).length
      = min count (c.pages.size - offset) := by simp
  rw [read, Sparse.toList_takePadded, Sparse.toList_drop, Sparse.size_drop, byte]
  by_cases hin : offset + k < c.pages.size
  · rw [List.getElem?_append_left (by omega), List.getElem?_take_of_lt hk,
      List.getElem?_drop, List.getElem?_eq_getElem (by omega)]
    rfl
  · rw [List.getElem?_append_right (by omega), List.getElem?_replicate,
      List.getElem?_eq_none (l := c.pages.toList) (by omega), if_pos (by omega)]
    rfl

/-- Reading depends on the bytes only. -/
theorem read_congr {c c' : Content} {offset offset' count : Nat}
    (h : ∀ k < count, c.byte (offset + k) = c'.byte (offset' + k)) :
    c.read offset count = c'.read offset' count := by
  apply List.ext_getElem?
  intro k
  by_cases hk : k < count
  · rw [c.getElem?_read hk, c'.getElem?_read hk, h k hk]
  · rw [List.getElem?_eq_none (by simp; omega), List.getElem?_eq_none (by simp; omega)]

/-- A number depends on its bytes only. -/
theorem number_congr {c c' : Content} {offset count : Nat}
    (h : ∀ k < count, c.byte (offset + k) = c'.byte (offset + k)) :
    c.number offset count = c'.number offset count := by
  rw [number, number, read_congr h]

/-! ## Writing -/

section Writing

variable (c : Content) {offset i : Nat} {new : List UInt8}

/-- Writing covers the bytes from the offset on, up to the end of the pages. -/
theorem byte_write (i : Nat) :
    (c.write offset new).byte i =
      if offset ≤ i ∧ i < offset + new.length ∧ i < pageEnd c.length
      then new[i - offset]?.getD 0 else c.byte i := by
  have hlen : (new.take (pageEnd c.length - min offset (pageEnd c.length))).length
      = min (pageEnd c.length - min offset (pageEnd c.length)) new.length := List.length_take
  rw [byte, byte, write]
  simp only []
  rw [Sparse.getElem?_overwrite i (c.write_inside offset new), hlen]
  by_cases hcover : offset ≤ i ∧ i < offset + new.length ∧ i < pageEnd c.length
  · rw [if_pos hcover, if_pos (by omega), List.getElem?_take_of_lt (by omega)]
    congr 2
    omega
  · rw [if_neg hcover, if_neg (by omega)]

/-- A byte that the writing does not cover. -/
theorem byte_write_of_outside (hout : i < offset ∨ offset + new.length ≤ i) :
    (c.write offset new).byte i = c.byte i := by
  rw [byte_write, if_neg (by omega)]

/-- What has been written is read. -/
theorem read_write_same (hin : offset + new.length ≤ c.length) :
    (c.write offset new).read offset new.length = new := by
  have hpage := le_pageEnd c.length
  apply List.ext_getElem?
  intro k
  by_cases hk : k < new.length
  · rw [getElem?_read _ hk, c.byte_write, if_pos (by omega), Nat.add_sub_cancel_left,
      List.getElem?_eq_getElem hk]
    rfl
  · rw [List.getElem?_eq_none (by simp; omega), List.getElem?_eq_none (by omega)]

/-- What lies elsewhere is read as before. -/
theorem read_write_of_outside {start count : Nat}
    (hout : start + count ≤ offset ∨ offset + new.length ≤ start) :
    (c.write offset new).read start count = c.read start count :=
  read_congr fun k hk => c.byte_write_of_outside (by omega)

theorem number_write_of_outside {start count : Nat}
    (hout : start + count ≤ offset ∨ offset + new.length ≤ start) :
    (c.write offset new).number start count = c.number start count := by
  rw [number, number, c.read_write_of_outside hout]

/-- A signature that is not written over stays. -/
theorem signer?_write_of_outside {place : Nat}
    (hout : place + Signature.bytes.length ≤ offset ∨ offset + new.length ≤ place) :
    (c.write offset new).signer? place = c.signer? place := by
  rw [signer?, signer?, write, List.find?_filter]
  congr 2
  funext s
  by_cases hs : s.offset = place
  · have hkept : s.isOutside offset (offset + new.length) = true := by
      rw [Signature.isOutside, decide_eq_true_iff, Signature.stop, hs]
      omega
    simp [hkept]
  · simp [hs]

end Writing

/-! ## Numbers -/

section Numbers

variable (c : Content) {offset count n : Nat}

@[simp] theorem length_setNumber : (c.setNumber offset count n).length = c.length := rfl

/-- A stored number is read back, as far as its bytes can hold it. -/
theorem number_setNumber (hin : offset + count ≤ c.length) :
    (c.setNumber offset count n).number offset count = n % Word.capacity count := by
  have hstored : offset + (Word.toBytes count n).length ≤ c.length := by
    rw [Word.length_toBytes]
    exact hin
  have hread := c.read_write_same hstored
  rw [Word.length_toBytes] at hread
  rw [number, setNumber, hread, Word.ofBytes_toBytes]

theorem number_setNumber_of_outside {start size : Nat}
    (hout : start + size ≤ offset ∨ offset + count ≤ start) :
    (c.setNumber offset count n).number start size = c.number start size :=
  c.number_write_of_outside (by rw [Word.length_toBytes]; exact hout)

theorem signer?_setNumber_of_outside {place : Nat}
    (hout : place + Signature.bytes.length ≤ offset ∨ offset + count ≤ place) :
    (c.setNumber offset count n).signer? place = c.signer? place :=
  c.signer?_write_of_outside (by rw [Word.length_toBytes]; exact hout)

theorem byte_setNumber_of_outside {i : Nat} (hout : i < offset ∨ offset + count ≤ i) :
    (c.setNumber offset count n).byte i = c.byte i :=
  c.byte_write_of_outside (by rw [Word.length_toBytes]; exact hout)

/-- Signing writes two bytes. -/
theorem byte_sign (p : Party) (i : Nat) :
    (c.sign offset p).byte i = (c.write offset Signature.bytes).byte i := rfl

theorem byte_sign_of_outside (p : Party) {i : Nat}
    (hout : i < offset ∨ offset + Signature.bytes.length ≤ i) :
    (c.sign offset p).byte i = c.byte i :=
  c.byte_write_of_outside hout

theorem signer?_sign_of_outside (p : Party) {place : Nat}
    (hout : place + Signature.bytes.length ≤ offset ∨ offset + Signature.bytes.length ≤ place) :
    (c.sign offset p).signer? place = c.signer? place := by
  have hne : offset ≠ place := by
    rintro rfl
    have hlength : 0 < Signature.bytes.length := by decide
    omega
  have hold : (c.write offset Signature.bytes).signer? place = c.signer? place :=
    c.signer?_write_of_outside hout
  rw [← hold, signer?, signer?, sign, List.find?_cons_of_neg (by simpa using hne)]

end Numbers

/-! ## Setting the length -/

section Length

variable (c : Content) {length : Nat}

/-- The bytes in front of both ends stay, all others become zero. -/
theorem byte_resize (i : Nat) :
    (c.resize length).byte i = if i < min c.length length then c.byte i else 0 := by
  have hc := le_pageEnd c.length
  have hl := le_pageEnd length
  have hkept : (c.pages.toList.take (min c.length length)).length = min c.length length := by
    rw [List.length_take, Sparse.length_toList, c.size_pages]
    omega
  rw [byte, byte, resize]
  simp only [Sparse.toList_takePadded, Sparse.size_takePadded, c.size_pages]
  rw [Nat.sub_eq_zero_of_le (by omega : min c.length length ≤ pageEnd c.length),
    List.replicate_zero, List.append_nil, List.take_of_length_le (by omega)]
  by_cases hi : i < min c.length length
  · rw [if_pos hi, List.getElem?_append_left (by omega), List.getElem?_take_of_lt hi]
  · rw [if_neg hi, List.getElem?_append_right (by omega), List.getElem?_replicate]
    split <;> rfl

/-- What lies in front of both ends stays. -/
theorem byte_resize_of_lt {i : Nat} (hold : i < c.length) (hnew : i < length) :
    (c.resize length).byte i = c.byte i := by
  rw [byte_resize, if_pos (by omega)]

/-- So do the signatures there. -/
theorem signer?_resize {place : Nat} (hold : place + Signature.bytes.length ≤ c.length)
    (hnew : place + Signature.bytes.length ≤ length) :
    (c.resize length).signer? place = c.signer? place := by
  rw [signer?, signer?, resize, List.find?_filter]
  congr 2
  funext s
  by_cases hs : s.offset = place
  · have hkept : s.stop ≤ min c.length length := by
      rw [Signature.stop, hs]
      omega
    simp [hkept]
  · simp [hs]

end Length

end Content

end Subscription
