import Subscription.Disk.Sparse
import Subscription.Party
import Subscription.Word

/-!
# The content of a file

A file has a length, and its bytes lie in memory in whole pages, which all
who map the file share.  The length mostly ends inside a page; behind it,
the rest of that page is there as well.  Whoever has mapped more than the
length can read and write these bytes, although they are no part of the file
(`Content.bytes`).  They start as zeros, and whenever the length is set they
become zeros again, so that a file which grows has zeros behind its old end.

The view is `Content.read`: the bytes from an offset on.  Writing never makes
a file longer (`Content.length_write`); that is what `Content.resize` is for,
which cuts the bytes off or adds zeros.  Numbers are stored with
`Content.setNumber` and read with `Content.number`.

Parties sign their names in files with a number that the system has given
them.  Which number that is only the system knows, and nobody else can write
it.  So a content keeps where a party has signed (`Content.sign`), and the
signature is gone once anything else has been written there.
-/

namespace Subscription

/-- The number of bytes in a page. -/
def pageSize : Nat := 4096

/-- Where the last page of a file ends. -/
def pageEnd (length : Nat) : Nat := (length + (pageSize - 1)) / pageSize * pageSize

/-- The name of a party in a file. -/
structure Signature where
  offset : Nat
  party : Party
  deriving DecidableEq, Repr, Inhabited

namespace Signature

/-- What lies under a signature: the highest number of a party takes as many
bytes. -/
def bytes : List UInt8 := [0xFF, 0x7F]

/-- Where a signature ends. -/
def stop (s : Signature) : Nat := s.offset + bytes.length

/-- Whether the bytes from a start to a stop have none of the signature's. -/
def isOutside (s : Signature) (start stop : Nat) : Bool :=
  min stop s.stop ≤ max start s.offset

/-- Bytes that lie at the start of a signature are not outside it. -/
theorem not_isOutside (s : Signature) {count : Nat} (some : 0 < count) :
    s.isOutside s.offset (s.offset + count) = false := by
  rw [isOutside, decide_eq_false_iff_not, stop, bytes,
    List.length_cons, List.length_cons]
  omega

end Signature

/-- The content of a file: its length, its pages, and who has signed it
where. -/
structure Content where
  length : Nat
  pages : Sparse
  signatures : List Signature
  size_pages : pages.size = pageEnd length
  deriving Repr

namespace Content

/-- The content of a file that holds nothing. -/
def empty : Content := ⟨0, .nil, [], by decide⟩

instance : Inhabited Content := ⟨empty⟩

/-- The content with exactly the given bytes. -/
def ofBytes (bytes : List UInt8) : Content :=
  ⟨bytes.length, (Sparse.bytes bytes .nil).takePadded (pageEnd bytes.length), [],
    Sparse.size_takePadded _ _⟩

/-- The `count` bytes from an offset on; past the pages they are zero. -/
def read (c : Content) (offset count : Nat) : List UInt8 :=
  ((c.pages.drop offset).takePadded count).toList

/-- All bytes of the file. -/
def bytes (c : Content) : List UInt8 := c.read 0 c.length

/-- Sets the length; whatever lies behind the old or the new end becomes
zero. -/
def resize (c : Content) (length : Nat) : Content :=
  let kept := min c.length length
  ⟨length, (c.pages.takePadded kept).takePadded (pageEnd length),
    c.signatures.filter (fun s => s.stop ≤ kept), Sparse.size_takePadded _ _⟩

/-- What is kept of bytes to be written lies inside the pages. -/
theorem write_inside (c : Content) (offset : Nat) (new : List UInt8) :
    min offset (pageEnd c.length) +
      (new.take (pageEnd c.length - min offset (pageEnd c.length))).length ≤ c.pages.size := by
  rw [c.size_pages, List.length_take]
  omega

/-- Replaces the bytes from an offset on; what would lie past the last page
is dropped. -/
def write (c : Content) (offset : Nat) (new : List UInt8) : Content :=
  let start := min offset (pageEnd c.length)
  ⟨c.length, c.pages.overwrite start (new.take (pageEnd c.length - start)),
    c.signatures.filter (fun s => s.isOutside offset (offset + new.length)),
    (Sparse.size_overwrite (c.write_inside offset new)).trans c.size_pages⟩

/-- The number that the `count` bytes from an offset on stand for. -/
def number (c : Content) (offset count : Nat) : Nat :=
  Word.ofBytes (c.read offset count)

/-- Stores a number in the `count` bytes from an offset on. -/
def setNumber (c : Content) (offset count n : Nat) : Content :=
  c.write offset (Word.toBytes count n)

/-- Writes the name of a party at an offset. -/
def sign (c : Content) (offset : Nat) (party : Party) : Content :=
  let c := c.write offset Signature.bytes
  { c with signatures := ⟨offset, party⟩ :: c.signatures }

/-- The party that has signed at an offset. -/
def signer? (c : Content) (offset : Nat) : Option Party :=
  (c.signatures.find? fun s => s.offset = offset).map Signature.party

/-- Writing keeps the length. -/
@[simp] theorem length_write (c : Content) (offset : Nat) (new : List UInt8) :
    (c.write offset new).length = c.length := rfl

/-- A resized content has the length asked for. -/
@[simp] theorem length_resize (c : Content) (length : Nat) :
    (c.resize length).length = length := rfl

/-- Reading gives as many bytes as asked for. -/
@[simp] theorem length_read (c : Content) (offset count : Nat) :
    (c.read offset count).length = count := by
  rw [read, Sparse.length_toList, Sparse.size_takePadded]

/-- Whoever signs has signed. -/
@[simp] theorem signer?_sign (c : Content) (offset : Nat) (party : Party) :
    (c.sign offset party).signer? offset = some party := by
  simp [signer?, sign]

/-- No signature is left where something has been written. -/
theorem signer?_write (c : Content) {offset : Nat} {new : List UInt8} (written : new ≠ []) :
    (c.write offset new).signer? offset = none := by
  rw [signer?, Option.map_eq_none_iff, List.find?_eq_none]
  intro s mem same
  cases of_decide_eq_true same
  have outside := (List.mem_filter.1 mem).2
  rw [s.not_isOutside (List.length_pos_iff.2 written)] at outside
  exact Bool.false_ne_true outside

end Content

end Subscription
