import Subscription.Event
import Subscription.Proofs.LockBytes

/-!
# The event stored in a content

A content *holds* a snapshot when its header and the bytes behind it say what
the snapshot says, in the layout of one of the two kinds of headers
(`Content.Holds`).  This is where those who write segments and those who read
them meet: storing an event makes a content hold it, whatever was there before
(`Holds.stored`), clearing keeps all but the event and the payload
(`Holds.consumed`), and growing keeps everything (`Holds.grown`).

The lock at the start of the content is not touched by any of this
(`lockAt_stored`, `lockAt_consumed`), and neither are the bytes behind the
header and the payload (`byte_stored`, `byte_consumed`).
-/

namespace Subscription

/-! ## Snapshots -/

namespace Snapshot

/-- What a new segment holds. -/
def blank : HeaderKind → Snapshot
  | .single => ⟨.none, 0, 0, 0, none, none, []⟩
  | .multi => ⟨.none, 0, 0, 0, some 0, some 0, []⟩

/-- The snapshot after an event was published.  Only a segment that has a
priority takes that of the event. -/
def posted (s : Snapshot) (record : EventRecord) (payload : List UInt8) : Snapshot :=
  { s with
    event := record.event
    requestId := s.requestId + 1
    sid := record.sid
    ncSid := record.ncSid
    priority := s.priority.map fun _ => record.priority
    payload }

/-- The snapshot after its event was marked as consumed. -/
def cleared (s : Snapshot) : Snapshot := { s with event := .none, payload := [] }

end Snapshot

/-! ## The fields of a header -/

/-- What holds for the sizes and places in a header, for arithmetic. -/
theorem HeaderKind.size_bounds (kind : HeaderKind) : 120 ≤ kind.size ∧ kind.size ≤ 128 := by
  cases kind <;> decide

theorem Field.offset_bounds (f : Field) : 96 ≤ f.offset ∧ f.offset + 4 ≤ 128 := by
  cases f <;> decide

/-- Two fields of a header do not overlap. -/
theorem Field.apart {f g : Field} (hne : f ≠ g) :
    f.offset + 4 ≤ g.offset ∨ g.offset + 4 ≤ f.offset := by
  cases f <;> cases g <;> first | exact absurd rfl hne | decide

namespace Content

variable {c : Content} {kind : HeaderKind} {f g : Field} {v : UInt32}

@[simp] theorem length_setField : (c.setField f v).length = c.length := rfl

theorem byte_setField_of_outside {i : Nat} (hout : i < f.offset ∨ f.offset + 4 ≤ i) :
    (c.setField f v).byte i = c.byte i :=
  c.byte_setNumber_of_outside hout

/-- A field is found as it was stored. -/
theorem field_setField_same (hin : f.offset + 4 ≤ c.length) : (c.setField f v).field f = v := by
  have hlt := v.toNat_lt
  have hcap : Word.capacity 4 = 4294967296 := by decide
  rw [field, setField, c.number_setNumber hin, Nat.mod_eq_of_lt (by omega), UInt32.ofNat_toNat]

/-- A field is not touched by storing another one. -/
theorem field_setField_of_ne (hne : g ≠ f) : (c.setField f v).field g = c.field g := by
  rw [field, field, setField, c.number_setNumber_of_outside (Field.apart hne)]

/-- A field depends on its bytes only. -/
theorem field_congr {c' : Content} (h : ∀ i, 96 ≤ i → i < f.offset + 4 → c.byte i = c'.byte i) :
    c.field f = c'.field f := by
  have hbounds := f.offset_bounds
  rw [field, field, number_congr fun k hk => h _ (by omega) (by omega)]

/-! ## Holding a snapshot -/

/-- What a header and the bytes behind it say. -/
structure Holds (kind : HeaderKind) (c : Content) (s : Snapshot) : Prop where
  covers : kind.size + s.payload.length ≤ c.length
  event : c.field .event = s.event.raw
  requestId : c.field .requestId = s.requestId
  sid : c.field .sid = s.sid
  ncSid : c.field .ncSid = s.ncSid
  payloadLength : (c.field .payloadLength).toNat = s.payload.length
  payload : c.read kind.size s.payload.length = s.payload
  priority : s.priority = if kind = .multi then some (c.field .priority) else none
  subscriberCount :
    s.subscriberCount = if kind = .multi then some (c.field .subscriberCount) else none

/-- What a content holds does not depend on its lock, nor on what lies behind
the payload. -/
theorem Holds.congr {c' : Content} {s : Snapshot} (hholds : Holds kind c s)
    (hlen : kind.size + s.payload.length ≤ c'.length)
    (hbytes : ∀ i, 96 ≤ i → i < kind.size + s.payload.length → c'.byte i = c.byte i) :
    Holds kind c' s := by
  have hsize := kind.size_bounds
  have hfield : ∀ f, f.offset + 4 ≤ kind.size → c'.field f = c.field f := by
    intro f hin
    apply field_congr
    intro i hlow hhigh
    exact hbytes i hlow (by omega)
  have hread : c'.read kind.size s.payload.length = c.read kind.size s.payload.length :=
    read_congr fun k hk => hbytes _ (by omega) (by omega)
  have hcommon : ∀ f, f.offset + 4 ≤ 120 → c'.field f = c.field f :=
    fun f hf => hfield f (Nat.le_trans hf hsize.1)
  exact
    { covers := hlen
      event := (hcommon .event (by decide)).trans hholds.event
      requestId := (hcommon .requestId (by decide)).trans hholds.requestId
      sid := (hcommon .sid (by decide)).trans hholds.sid
      ncSid := (hcommon .ncSid (by decide)).trans hholds.ncSid
      payloadLength := by
        rw [hcommon .payloadLength (by decide)]
        exact hholds.payloadLength
      payload := hread.trans hholds.payload
      priority := by
        cases kind with
        | single => exact hholds.priority
        | multi =>
            rw [hfield .priority (by decide)]
            exact hholds.priority
      subscriberCount := by
        cases kind with
        | single => exact hholds.subscriberCount
        | multi =>
            rw [hfield .subscriberCount (by decide)]
            exact hholds.subscriberCount }

/-! ## Storing and clearing -/

/-- Stores fields, one after the other. -/
def setFields (c : Content) (fields : List (Field × UInt32)) : Content :=
  fields.foldl (fun c v => c.setField v.1 v.2) c

@[simp] theorem length_setFields (fields : List (Field × UInt32)) :
    (c.setFields fields).length = c.length := by
  induction fields generalizing c with
  | nil => rfl
  | cons v rest ih => exact ih

theorem byte_setFields_of_outside {fields : List (Field × UInt32)} {i : Nat}
    (hout : ∀ v ∈ fields, i < v.1.offset ∨ v.1.offset + 4 ≤ i) :
    (c.setFields fields).byte i = c.byte i := by
  induction fields generalizing c with
  | nil => rfl
  | cons v rest ih =>
      have hrest := ih (c := c.setField v.1 v.2) fun w hw => hout w (List.mem_cons_of_mem _ hw)
      exact hrest.trans (byte_setField_of_outside (hout v List.mem_cons_self))

/-- A field is what has been stored there, or what it was. -/
theorem field_setFields {fields : List (Field × UInt32)}
    (hin : ∀ v ∈ fields, v.1.offset + 4 ≤ c.length) (hnodup : (fields.map Prod.fst).Nodup)
    (g : Field) : (c.setFields fields).field g = (fields.lookup g).getD (c.field g) := by
  induction fields generalizing c with
  | nil => rfl
  | cons v rest ih =>
      rw [List.map_cons, List.nodup_cons] at hnodup
      have hrest := ih (c := c.setField v.1 v.2)
        (fun w hw => hin w (List.mem_cons_of_mem _ hw)) hnodup.2
      refine Eq.trans hrest ?_
      by_cases hsame : g = v.1
      · have hnone : rest.lookup g = none := by
          rw [List.lookup_eq_none_iff]
          intro w hw
          have hne : v.1 ≠ w.1 := fun heq =>
            hnodup.1 (heq ▸ List.mem_map_of_mem hw)
          simpa [hsame] using hne
        rw [hnone, List.lookup_cons, hsame, beq_self_eq_true]
        exact field_setField_same (hin v List.mem_cons_self)
      · rw [List.lookup_cons, beq_false_of_ne hsame, field_setField_of_ne hsame]

/-- What a publisher stores in the header. -/
def newFields (kind : HeaderKind) (requestId : UInt32) (record : EventRecord) (length : Nat) :
    List (Field × UInt32) :=
  let common := [(.requestId, requestId), (.event, record.event.raw), (.sid, record.sid),
    (.ncSid, record.ncSid), (.payloadLength, UInt32.ofNat length)]
  match kind with
  | .single => common
  | .multi => common ++ [(.priority, record.priority)]

/-- The content after an event that fits was stored. -/
def stored (c : Content) (kind : HeaderKind) (record : EventRecord) (payload : List UInt8) :
    Content :=
  (c.write kind.size payload).setFields
    (newFields kind (c.field .requestId + 1) record payload.length)

/-- The content after its event was marked as consumed. -/
def consumed (c : Content) : Content :=
  c.setFields [(.event, Event.none.raw), (.payloadLength, 0)]

theorem newFields_inside (kind : HeaderKind) (requestId : UInt32) (record : EventRecord)
    (length : Nat) : ∀ v ∈ newFields kind requestId record length,
      96 ≤ v.1.offset ∧ v.1.offset + 4 ≤ kind.size := by
  cases kind <;> simp [newFields, Field.offset, HeaderKind.size]

@[simp] theorem length_stored (record : EventRecord) (payload : List UInt8) :
    (c.stored kind record payload).length = c.length := by
  rw [stored, length_setFields, length_write]

/-- Storing an event changes nothing in front of the fields and nothing behind
the payload. -/
theorem byte_stored {record : EventRecord} {payload : List UInt8} {i : Nat}
    (hout : i < 96 ∨ kind.size + payload.length ≤ i) :
    (c.stored kind record payload).byte i = c.byte i := by
  have hsize := kind.size_bounds
  rw [stored, byte_setFields_of_outside, byte_write_of_outside _ (by omega)]
  intro v hv
  have hinside := newFields_inside _ _ _ _ v hv
  omega

/-- The fields after an event was stored. -/
theorem field_stored {record : EventRecord} {payload : List UInt8}
    (hfits : kind.size + payload.length ≤ c.length) (g : Field) (hg : g.offset + 4 ≤ kind.size) :
    (c.stored kind record payload).field g =
      ((newFields kind (c.field .requestId + 1) record payload.length).lookup g).getD
        (c.field g) := by
  have hnodup : ((newFields kind (c.field .requestId + 1) record payload.length).map
      Prod.fst).Nodup := by
    cases kind <;> exact of_decide_eq_true rfl
  have hkept : (c.write kind.size payload).field g = c.field g :=
    field_congr fun i _ hi => c.byte_write_of_outside (by omega)
  rw [stored, field_setFields _ hnodup, hkept]
  intro v hv
  have hinside := newFields_inside _ _ _ _ v hv
  rw [length_write]
  omega

/-- **Storing an event makes a content hold it.** -/
theorem Holds.stored {s : Snapshot} (hholds : Holds kind c s) {record : EventRecord}
    {payload : List UInt8} (hfits : kind.size + payload.length ≤ c.length)
    (hshort : payload.length < UInt32.size) :
    Holds kind (c.stored kind record payload) (s.posted record payload) := by
  have hfield := fun g =>
    (field_stored hfits g : _ → (c.stored kind record payload).field g = _)
  have hread : (c.stored kind record payload).read kind.size payload.length = payload := by
    refine Eq.trans (read_congr fun k hk => ?_) (c.read_write_same hfits)
    refine byte_setFields_of_outside fun v hv => ?_
    have hinside := newFields_inside _ _ _ _ v hv
    omega
  have hsize := kind.size_bounds
  have hcommon : ∀ g : Field, g.offset + 4 ≤ 120 → _ :=
    fun g hg => hfield g (Nat.le_trans hg hsize.1)
  refine
    { covers := by rwa [length_stored]
      event := ?_
      requestId := ?_
      sid := ?_
      ncSid := ?_
      payloadLength := ?_
      payload := hread
      priority := ?_
      subscriberCount := ?_ }
  · rw [hcommon .event (by decide)]
    cases kind <;> rfl
  · rw [hcommon .requestId (by decide), hholds.requestId]
    cases kind <;> rfl
  · rw [hcommon .sid (by decide)]
    cases kind <;> rfl
  · rw [hcommon .ncSid (by decide)]
    cases kind <;> rfl
  · have hlength : (UInt32.ofNat payload.length).toNat = payload.length :=
      UInt32.toNat_ofNat_of_lt' hshort
    have hnew : ∀ id, (newFields kind id record payload.length).lookup .payloadLength =
        some (UInt32.ofNat payload.length) := by
      intro id
      cases kind <;> rfl
    rw [hcommon .payloadLength (by decide), hnew]
    exact hlength
  · cases kind with
    | single => simp [Snapshot.posted, hholds.priority]
    | multi =>
        rw [if_pos rfl, hfield .priority (by decide), Snapshot.posted, hholds.priority]
        rfl
  · cases kind with
    | single => simp [Snapshot.posted, hholds.subscriberCount]
    | multi =>
        rw [if_pos rfl, hfield .subscriberCount (by decide), Snapshot.posted,
          hholds.subscriberCount]
        rfl

/-! ## Clearing -/

@[simp] theorem length_consumed : c.consumed.length = c.length := length_setFields _

theorem byte_consumed {i : Nat} (hout : i < 96 ∨ 120 ≤ i) : c.consumed.byte i = c.byte i := by
  apply byte_setFields_of_outside
  intro v hv
  simp at hv
  rcases hv with rfl | rfl
  all_goals
    simp only [Field.offset]
    omega

/-- **Clearing keeps all but the event and the payload.** -/
theorem Holds.consumed {s : Snapshot} (hholds : Holds kind c s) :
    Holds kind c.consumed s.cleared := by
  have hsize := kind.size_bounds
  have hcovers := hholds.covers
  have hfield : ∀ g, c.consumed.field g =
      ([(Field.event, Event.none.raw), (.payloadLength, 0)].lookup g).getD (c.field g) := by
    apply field_setFields
    · intro v hv
      have hbounds := v.1.offset_bounds
      simp at hv
      rcases hv with rfl | rfl
      all_goals
        simp only [Field.offset]
        omega
    · decide
  exact
    { covers := by
        rw [length_consumed]
        exact Nat.le_trans (Nat.le_add_right _ _) hcovers
      event := hfield .event
      requestId := (hfield .requestId).trans hholds.requestId
      sid := (hfield .sid).trans hholds.sid
      ncSid := (hfield .ncSid).trans hholds.ncSid
      payloadLength := congrArg UInt32.toNat (hfield .payloadLength)
      payload := List.eq_nil_of_length_eq_zero (length_read _ _ _)
      priority := by
        rw [hfield .priority]
        exact hholds.priority
      subscriberCount := by
        rw [hfield .subscriberCount]
        exact hholds.subscriberCount }

/-! ## The lock in front of the fields -/

theorem signer?_setFields {fields : List (Field × UInt32)} {place : Nat} (hplace : place < 92) :
    (c.setFields fields).signer? place = c.signer? place := by
  have hlen := lengths_of_words.1
  induction fields generalizing c with
  | nil => rfl
  | cons v rest ih =>
      have hbounds := v.1.offset_bounds
      exact (ih (c := c.setField v.1 v.2)).trans
        (c.signer?_setNumber_of_outside (by rw [hlen]; omega))

/-- A lock depends on the bytes in front of the fields and on who has signed
there. -/
theorem lockAt_head_congr {c' : Content} (hbytes : ∀ i < 96, c'.byte i = c.byte i)
    (hsigners : ∀ place < 92, c'.signer? place = c.signer? place) :
    c'.lockAt lockOffset = c.lockAt lockOffset := by
  apply lockAt_congr
  · intro k hk
    have hlen := lengths_of_words.2
    exact hbytes _ (by rw [lockOffset]; omega)
  · exact hsigners _ (by decide)
  · exact hsigners _ (by decide)

/-- Storing an event leaves the lock alone. -/
theorem lockAt_stored (record : EventRecord) (payload : List UInt8) :
    (c.stored kind record payload).lockAt lockOffset = c.lockAt lockOffset := by
  have hsize := kind.size_bounds
  have hlen := lengths_of_words.1
  apply lockAt_head_congr
  · intro i hi
    exact byte_stored (by omega)
  · intro place hplace
    exact (signer?_setFields hplace).trans
      (c.signer?_write_of_outside (by rw [hlen]; omega))

/-- Clearing leaves the lock alone. -/
theorem lockAt_consumed : c.consumed.lockAt lockOffset = c.lockAt lockOffset := by
  apply lockAt_head_congr
  · intro i hi
    exact byte_consumed (by omega)
  · intro place hplace
    exact signer?_setFields hplace

/-! ## Growing -/

/-- The content with room for the given number of bytes. -/
def grown (c : Content) (length : Nat) : Content :=
  if c.length < length then c.resize length else c

theorem length_grown (length : Nat) : (c.grown length).length = max c.length length := by
  unfold grown
  split
  · rw [length_resize]
    omega
  · omega

theorem byte_grown {i : Nat} (length : Nat) (hi : i < c.length) :
    (c.grown length).byte i = c.byte i := by
  unfold grown
  split
  · exact c.byte_resize_of_lt hi (by omega)
  · rfl

/-- What is added are zeros. -/
theorem byte_grown_of_le {length i : Nat} (hlow : c.length ≤ i)
    (hhigh : i < (c.grown length).length) : (c.grown length).byte i = 0 := by
  rw [length_grown] at hhigh
  rw [grown, if_pos (by omega), byte_resize, if_neg (by omega)]

/-- Growing leaves the lock alone. -/
theorem lockAt_grown (length : Nat) (hin : 96 ≤ c.length) :
    (c.grown length).lockAt lockOffset = c.lockAt lockOffset := by
  have hlen := lengths_of_words.1
  apply lockAt_head_congr
  · intro i hi
    exact byte_grown length (by omega)
  · intro place hplace
    unfold grown
    split
    · exact c.signer?_resize (by rw [hlen]; omega) (by rw [hlen]; omega)
    · rfl

/-- Growing keeps what is held. -/
theorem Holds.grown {s : Snapshot} (hholds : Holds kind c s) (length : Nat) :
    Holds kind (c.grown length) s := by
  have hcovers := hholds.covers
  apply hholds.congr
  · rw [length_grown]
    omega
  · intro i _ hi
    exact byte_grown length (by omega)

end Content

end Subscription
