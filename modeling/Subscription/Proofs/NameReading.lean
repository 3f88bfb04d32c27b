import Subscription.Proofs.PlanEnds
import Subscription.Proofs.SegmentName
import Subscription.Proofs.SegmentStock

/-!
# Reading the names of segments

Who finds a segment in the directory has nothing but its name to tell which header it
starts with, and must come to the header that the segment was opened with.  The module in
a name is arbitrary: it may have dots in it and end in what looks like a suffix or a
hash.  `HeaderKind.ofName` reads from the end of the name, and the last two parts are
always those of the key (`SegmentKey.splitOn_body`):

* a last part of eight hexadecimal digits is a hash, as no suffix has eight letters, and
  the suffix stands before it;
* any other last part is the suffix.

So the name of every key reads as the header that goes with its suffix
(`HeaderKind.ofName_name`).  A pipe has no dot in its name, and its name begins like no
suffix, so that it is never taken for a segment (`HeaderKind.ofName_pipeName`).
-/

namespace Subscription

namespace HeaderKind

/-! ## Suffixes -/

/-- A suffix reads as the header of the segments that have it. -/
theorem ofSuffixName_name (s : Suffix) : ofSuffixName s.name.toList = some s.header := by
  cases s <;> decide

/-- Nothing but a suffix reads as a header. -/
theorem exists_suffix_of_ofSuffixName {text : List Char} {kind : HeaderKind}
    (hkind : ofSuffixName text = some kind) : ∃ s : Suffix, s.name.toList = text := by
  have hsuffix : ∃ s : Suffix, s.name = String.ofList text := by
    unfold ofSuffixName at hkind
    split at hkind
    · exact ⟨.running, Eq.symm ‹_›⟩
    · exact ⟨.startup, Eq.symm ‹_›⟩
    · exact ⟨.operational, Eq.symm ‹_›⟩
    · exact ⟨.state, Eq.symm ‹_›⟩
    · exact ⟨.rpc, Eq.symm ‹_›⟩
    · exact ⟨.notif, Eq.symm ‹_›⟩
    · cases hkind
  obtain ⟨s, hs⟩ := hsuffix
  exact ⟨s, by rw [hs, String.toList_ofList]⟩

/-! ## Segments -/

/-- A hash is written in eight hexadecimal digits. -/
theorem isHash_hexDigits (hash : UInt32) :
    (hexDigits 8 hash.toNat).toList.length = 8 ∧
      (hexDigits 8 hash.toNat).toList.all isHexDigit = true := by
  have hdigit : ∀ d < 16, isHexDigit (Nat.digitChar d) = true := by decide
  refine ⟨length_hexDigits (by decide) (SegmentKey.toNat_hash_lt hash), ?_⟩
  apply List.all_eq_true.2
  intro c hc
  obtain ⟨d, hd, rfl⟩ := mem_hexDigits hc
  exact hdigit d hd

/-- What stands at the end of a name is read off its key. -/
theorem partsFromEnd_body (key : SegmentKey) :
    partsFromEnd key.body = key.parts.reverse ++ partsFromEnd key.module.toList := by
  rw [partsFromEnd, SegmentKey.splitOn_body, List.reverse_append, partsFromEnd]

/-- **Every name** of a segment reads as the header that goes with its suffix. -/
theorem ofName_name (key : SegmentKey) : ofName key.name = some key.suffix.header := by
  have hbody : key.name.toList = 's' :: 'r' :: '_' :: key.body := key.toList_name
  simp only [ofName, hbody, partsFromEnd_body]
  cases hhash : key.hash with
  | none =>
      have hlength : ¬(key.suffix.name.toList.length = 8 ∧
          key.suffix.name.toList.all isHexDigit = true) :=
        fun h => key.suffix.length_name_ne h.1
      simp only [SegmentKey.parts, hhash, List.reverse_singleton, List.singleton_append]
      rw [if_neg hlength]
      exact ofSuffixName_name key.suffix
  | some hash =>
      simp only [SegmentKey.parts, hhash, List.reverse_cons, List.reverse_nil, List.nil_append,
        List.cons_append]
      rw [if_pos (isHash_hexDigits hash)]
      exact ofSuffixName_name key.suffix

/-- A module that is called like a segment is no more than a module. -/
example : ofName (SegmentKey.name ⟨"m.rpc.0badcafe", .running, none⟩) = some .multi := by
  decide

/-! ## Pipes -/

/-- The name of a pipe goes on behind `sr_` in letters and digits. -/
theorem toList_pipeName (number : UInt32) :
    (pipeName number).toList =
      's' :: 'r' :: '_' :: ("evpipe".toList ++ Nat.toDigits 10 number.toNat) := by
  simp [pipeName]

theorem dot_not_mem_pipe (number : UInt32) :
    '.' ∉ "evpipe".toList ++ Nat.toDigits 10 number.toNat := by
  intro hdot
  rcases List.mem_append.1 hdot with hword | hnumber
  · revert hword
    decide
  · have hdigit := Nat.isDigit_of_mem_toDigits (by decide) (by decide) hnumber
    revert hdigit
    decide

/-- **No pipe** is taken for a segment. -/
theorem ofName_pipeName (number : UInt32) : ofName (pipeName number) = none := by
  have hparts : partsFromEnd ("evpipe".toList ++ Nat.toDigits 10 number.toNat) =
      ["evpipe".toList ++ Nat.toDigits 10 number.toNat] := by
    rw [partsFromEnd, List.splitOn_eq_singleton (dot_not_mem_pipe number),
      List.reverse_singleton]
  -- the second letter is no hexadecimal digit, however long the number is
  have hletters : ¬(("evpipe".toList ++ Nat.toDigits 10 number.toNat).length = 8 ∧
      ("evpipe".toList ++ Nat.toDigits 10 number.toNat).all isHexDigit = true) := by
    intro h
    have hv := List.all_eq_true.1 h.2 'v' (by simp)
    revert hv
    decide
  simp only [ofName, toList_pipeName, hparts]
  rw [if_neg hletters]
  cases hkind : ofSuffixName ("evpipe".toList ++ Nat.toDigits 10 number.toNat) with
  | none => rfl
  | some kind =>
      obtain ⟨s, hs⟩ := exists_suffix_of_ofSuffixName hkind
      have hfirst := congrArg List.head? hs
      cases s <;> exact absurd hfirst (by simp [Suffix.name])

/-- No segment is called like a pipe. -/
theorem name_ne_pipeName (key : SegmentKey) (number : UInt32) : key.name ≠ pipeName number := by
  intro hsame
  have hread := ofName_name key
  rw [hsame, ofName_pipeName] at hread
  cases hread

end HeaderKind

/-! ## What orders open -/

/-- A segment is opened with the header that its name tells. -/
def Request.Named : Request → Prop
  | .openSegment key kind => HeaderKind.ofName key.name = some kind
  | _ => True

theorem Request.Fitting.named {r : Request} (hr : r.Fitting) : r.Named := by
  cases r with
  | openSegment key kind =>
      obtain rfl : kind = key.suffix.header := hr
      exact HeaderKind.ofName_name key
  | removeSegment => trivial
  | publish => trivial
  | retract => trivial
  | note => trivial
  | settle => trivial

/-- What a fitting plan asks for is fitting. -/
theorem Plan.Fitting.of_asks {α : Type} {p : Plan α} (hp : p.Fitting) {wanted : Request}
    (hasks : p.Asks wanted) : wanted.Fitting := by
  induction p with
  | done a => cases hasks
  | ask r next ih =>
      rcases hasks with rfl | ⟨a, hasks⟩
      · exact hp.1
      · exact ih a (hp.2 a) hasks

/-- What an order may ask for, on a store at a site. -/
def Order.Asks (order : Order) (site : Site) (s : Store) (wanted : Request) : Prop :=
  ∃ work, order.plan = .ok work ∧ (work site s).Asks wanted

theorem Order.named_of_asks {order : Order} {site : Site} {s : Store} {wanted : Request}
    (hasks : order.Asks site s wanted) : wanted.Named := by
  obtain ⟨work, hplan, hasks⟩ := hasks
  exact ((Order.fitting hplan site s).of_asks hasks).named

/-- **Names are a faithful code**: different keys have different names, whatever their
modules are called, the name of a segment tells the header that its store opens it with,
and no pipe has the name of a segment or is taken for one. -/
theorem SegmentKey.names_are_faithful :
    Function.Injective SegmentKey.name ∧
    (∀ d : Descriptor, HeaderKind.ofName d.key.name = some d.topic.header) ∧
    (∀ (order : Order) (site : Site) (s : Store) (key : SegmentKey) (kind : HeaderKind),
      order.Asks site s (.openSegment key kind) → HeaderKind.ofName key.name = some kind) ∧
    ∀ number : UInt32, HeaderKind.ofName (pipeName number) = none ∧
      ∀ key : SegmentKey, key.name ≠ pipeName number := by
  refine ⟨fun key key' hsame => name_injective hsame, ?_, ?_, ?_⟩
  · intro d
    rw [d.topic.header_eq]
    exact HeaderKind.ofName_name d.key
  · intro order site s key kind hasks
    exact Order.named_of_asks hasks
  · intro number
    exact ⟨HeaderKind.ofName_pipeName number, fun key => HeaderKind.name_ne_pipeName key number⟩

/-- The segment that an RPC is called through is opened with the header in its name. -/
theorem SegmentKey.names_are_faithful_reset :
    (Order.addRpc "/m:reset" "callback" none).Asks default .empty
      (.openSegment ⟨"m", .rpc, some (hashText "/m:reset")⟩ .single) ∧
    HeaderKind.ofName (SegmentKey.name ⟨"m", .rpc, some (hashText "/m:reset")⟩) =
      some .single := by
  have hmodule : rpcModule "/m:reset" = .ok "m" := by decide +kernel
  have hplan : (Order.addRpc "/m:reset" "callback" none).plan =
      .ok fun site s => s.addService site .rpc "m" "/m:reset" "callback" none := by
    simp only [Order.plan, Order.after, hmodule]
  have hasks : (Order.addRpc "/m:reset" "callback" none).Asks default .empty
      (.openSegment ⟨"m", .rpc, some (hashText "/m:reset")⟩ .single) :=
    ⟨_, hplan, Or.inl rfl⟩
  exact ⟨hasks, names_are_faithful.2.2.1 _ _ _ _ _ hasks⟩

end Subscription
