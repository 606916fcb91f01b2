import QuantyCoin.DecoderExactness
import QuantyCoin.WireProtocol

/-!
# Truncated inventories

`parse_inv_payload` cuts the hash of every item out of the payload with a slice,
which is shortened at the end of the payload, and unpacks the type of every item,
which is not.  So a cut is noticed by the type of the next item, and a payload
that ends inside the hash of its last item is accepted.
-/

namespace QuantyCoin

open ByteDecoder Decoder

/-- The number of items that a payload announces. -/
def invCount (payload : Bytes) : Nat := (payload.headD 0).toNat

/-! ## One item -/

section Item

variable {data : Bytes} {offset : Nat}

theorem readInvItem_of_le (typed : offset + 4 ≤ data.length) :
    ∃ item, readInvItem data offset = .ok (item, offset + 36) ∧
      packInvItem item = (data.drop offset).take 36 := by
  have whole : ((data.drop offset).take 4).length = 4 := by
    rw [List.length_take, List.length_drop]
    omega
  have read : readU32 data offset =
      .ok (UInt32.ofNat (leValue ((data.drop offset).take 4)), offset + 4) := by
    rw [readU32, Decoder.bind_apply, Decoder.fixed, if_pos whole]
    rfl
  refine ⟨(UInt32.ofNat (leValue ((data.drop offset).take 4)),
    (data.drop (offset + 4)).take 32), ?_, ?_⟩
  · rw [readInvItem, Decoder.bind_apply, read]
    rfl
  · have small : leValue ((data.drop offset).take 4) < 2 ^ 32 := by
      have bound := leValue_lt ((data.drop offset).take 4)
      rwa [whole] at bound
    have back := leBytes_leValue ((data.drop offset).take 4)
    rw [whole] at back
    rw [packInvItem, packU32, UInt32.toNat_ofNat_of_lt' small, back, ← List.drop_drop,
      ← List.take_add]

theorem readInvItem_of_lt (cut : data.length < offset + 4) :
    readInvItem data offset = .error (unpackError 4) := by
  have short : ((data.drop offset).take 4).length ≠ 4 := by
    rw [List.length_take, List.length_drop]
    omega
  rw [readInvItem, Decoder.bind_apply, readU32, Decoder.bind_apply, Decoder.fixed, if_neg short]

/-- What is read is packed again to the bytes it was read from. -/
theorem readInvItem_packed {item : InvItem} {next : Nat}
    (read : readInvItem data offset = .ok (item, next)) :
    offset + 4 ≤ data.length ∧ next = offset + 36 ∧
      packInvItem item = (data.drop offset).take 36 := by
  rcases Nat.lt_or_ge data.length (offset + 4) with cut | typed
  · rw [readInvItem_of_lt cut] at read
    cases read
  · obtain ⟨item', read', packed⟩ := readInvItem_of_le typed
    rw [read'] at read
    cases read
    exact ⟨typed, rfl, packed⟩

end Item

/-! ## The loop -/

section Loop

variable {data : Bytes} {offset count : Nat}

/-- The items that are read are packed again to what was there of them. -/
theorem readInvItems_packed {items : List InvItem} {next : Nat}
    (read : times readInvItem count data offset = .ok (items, next)) :
    items.length = count ∧ items.flatMap packInvItem = (data.drop offset).take (36 * count) := by
  induction count generalizing offset items next with
  | zero =>
      cases read
      simp
  | succ count ih =>
      simp only [times, bind_eq_ok, pure_apply, Except.ok.injEq, Prod.mk.injEq] at read
      obtain ⟨item, middle, head, rest, last, tail, rfl, -⟩ := read
      obtain ⟨-, rfl, packed⟩ := readInvItem_packed head
      obtain ⟨length, packedRest⟩ := ih tail
      refine ⟨by rw [List.length_cons, length], ?_⟩
      rw [List.flatMap_cons, packed, packedRest, ← List.drop_drop, ← List.take_add,
        Nat.mul_succ, Nat.add_comm]

/-- The loop succeeds exactly if the type of the last item is there. -/
theorem readInvItems_isOk_iff :
    (∃ result, times readInvItem (count + 1) data offset = .ok result) ↔
      offset + 36 * count + 4 ≤ data.length := by
  induction count generalizing offset with
  | zero =>
      constructor
      · rintro ⟨result, read⟩
        obtain ⟨item, middle, head, -⟩ := bind_eq_ok.mp read
        exact (readInvItem_packed head).1
      · intro typed
        obtain ⟨item, read, -⟩ := readInvItem_of_le typed
        exact ⟨([item], offset + 36), bind_eq_ok.mpr ⟨item, _, read, rfl⟩⟩
  | succ count ih =>
      constructor
      · rintro ⟨result, read⟩
        obtain ⟨item, middle, head, rest⟩ := bind_eq_ok.mp read
        obtain ⟨-, rfl, -⟩ := readInvItem_packed head
        obtain ⟨items, last, tail, -⟩ := bind_eq_ok.mp rest
        have inside := ih.mp ⟨_, tail⟩
        omega
      · intro typed
        obtain ⟨item, head, -⟩ := @readInvItem_of_le data offset (by omega)
        have typedRest : offset + 36 + 36 * count + 4 ≤ data.length := by omega
        obtain ⟨⟨items, last⟩, tail⟩ := ih.mpr typedRest
        exact ⟨(item :: items, last),
          bind_eq_ok.mpr ⟨item, _, head, bind_eq_ok.mpr ⟨items, last, tail, rfl⟩⟩⟩

/-- Where all bytes are there, every hash is complete. -/
theorem readInvItems_complete {items : List InvItem} {next : Nat}
    (read : times readInvItem count data offset = .ok (items, next))
    (whole : offset + 36 * count ≤ data.length) : ∀ item ∈ items, item.2.length = 32 := by
  induction count generalizing offset items next with
  | zero =>
      cases read
      simp
  | succ count ih =>
      simp only [times, bind_eq_ok, pure_apply, Except.ok.injEq, Prod.mk.injEq] at read
      obtain ⟨item, middle, head, rest, last, tail, rfl, -⟩ := read
      obtain ⟨-, rfl, packed⟩ := readInvItem_packed head
      intro other member
      rcases List.mem_cons.mp member with rfl | member
      · have length := congrArg List.length packed
        rw [packInvItem, List.length_append, packU32, leBytes_length, List.length_take,
          List.length_drop] at length
        omega
      · exact ih tail (by omega) other member

end Loop

/-! ## Payloads -/

theorem parseInvPayload_nil : parseInvPayload [] = .error (.indexError "index out of range") :=
  rfl

theorem parseInvPayload_cons_eq_ok {first : UInt8} {rest : Bytes} {items : List InvItem} :
    parseInvPayload (first :: rest) = .ok items ↔
      ∃ next, times readInvItem first.toNat (first :: rest) 1 = .ok (items, next) := by
  have loop : parseInvPayload (first :: rest) =
      (times readInvItem first.toNat (first :: rest) 1).map Prod.fst := rfl
  rw [loop]
  rcases times readInvItem first.toNat (first :: rest) 1 with error | ⟨read, next⟩
  · simp [Except.map]
  · simp [Except.map]

/-- Accepted payloads are strictly parsed: complete hashes and the same bytes
built again, and shorter payloads are rejected. -/
structure ParsedStrictly (payload : Bytes) : Prop where
  hashes : ∀ items, parseInvPayload payload = .ok items → ∀ item ∈ items, item.2.length = 32
  rebuilt : ∀ items, parseInvPayload payload = .ok items →
    buildInvPayload items = .ok (payload.take (1 + 36 * invCount payload))
  rejected : payload.length < 1 + 36 * invCount payload →
    ∃ error, parseInvPayload payload = .error error

/-- The payload ends behind the type and inside the hash of its last item. -/
def CutInLastHash (payload : Bytes) : Prop :=
  0 < invCount payload ∧ 36 * invCount payload ≤ payload.length + 31 ∧
    payload.length < 1 + 36 * invCount payload

/-- What is accepted is always built again to what was there of it. -/
theorem buildInvPayload_of_parsed {payload : Bytes} {items : List InvItem}
    (parsed : parseInvPayload payload = .ok items) :
    buildInvPayload items = .ok (payload.take (1 + 36 * invCount payload)) := by
  cases payload with
  | nil => cases parsed
  | cons first rest =>
      obtain ⟨next, read⟩ := parseInvPayload_cons_eq_ok.mp parsed
      obtain ⟨length, packed⟩ := readInvItems_packed read
      have small := first.toNat_lt
      rw [buildInvPayload, if_neg (by omega), packed, length, UInt8.ofNat_toNat, invCount,
        List.headD_cons, Nat.add_comm, List.take_succ_cons]
      rfl

/-- A payload is accepted exactly if it is not cut before the type of its last item. -/
theorem parseInvPayload_isOk_iff {payload : Bytes} :
    (∃ items, parseInvPayload payload = .ok items) ↔
      payload ≠ [] ∧ (invCount payload = 0 ∨ 36 * invCount payload ≤ payload.length + 31) := by
  cases payload with
  | nil => simp [parseInvPayload_nil]
  | cons first rest =>
      simp only [parseInvPayload_cons_eq_ok, invCount, List.headD_cons, ne_eq, reduceCtorEq,
        not_false_eq_true, true_and]
      cases first.toNat with
      | zero =>
          simp only [true_or, iff_true]
          exact ⟨[], 1, rfl⟩
      | succ count =>
          have typed := @readInvItems_isOk_iff (first :: rest) 1 count
          rw [Prod.exists] at typed
          rw [typed]
          omega

/-- All hashes of an accepted payload are complete exactly if it holds all items. -/
theorem hashes_complete_iff {payload : Bytes} {items : List InvItem}
    (parsed : parseInvPayload payload = .ok items) :
    (∀ item ∈ items, item.2.length = 32) ↔ 1 + 36 * invCount payload ≤ payload.length := by
  cases payload with
  | nil => cases parsed
  | cons first rest =>
      obtain ⟨next, read⟩ := parseInvPayload_cons_eq_ok.mp parsed
      constructor
      · intro hashes
        obtain ⟨length, packed⟩ := readInvItems_packed read
        have taken := congrArg List.length packed
        rw [packInvItems_length hashes, List.length_take, List.length_drop, length] at taken
        rw [List.length_cons] at taken ⊢
        rw [invCount, List.headD_cons]
        omega
      · exact fun whole => readInvItems_complete read whole

/-- Payloads are parsed strictly exactly if they are not cut inside the hash of
their last item. -/
theorem parsedStrictly_iff (payload : Bytes) :
    ParsedStrictly payload ↔ ¬ CutInLastHash payload := by
  have accepted := @parseInvPayload_isOk_iff payload
  constructor
  · rintro strict ⟨positive, typed, short⟩
    have nonempty : payload ≠ [] := by
      rintro rfl
      exact absurd positive (by decide)
    obtain ⟨items, parsed⟩ := accepted.mpr ⟨nonempty, Or.inr typed⟩
    obtain ⟨error, rejected⟩ := strict.rejected short
    rw [parsed] at rejected
    cases rejected
  · intro notCut
    refine ⟨?_, fun items => buildInvPayload_of_parsed, ?_⟩
    · intro items parsed
      obtain ⟨nonempty, typed⟩ := accepted.mp ⟨items, parsed⟩
      rw [hashes_complete_iff parsed]
      have positive := List.length_pos_iff.mpr nonempty
      rw [CutInLastHash] at notCut
      omega
    · intro short
      cases parsed : parseInvPayload payload with
      | error error => exact ⟨error, rfl⟩
      | ok items =>
          obtain ⟨nonempty, typed⟩ := accepted.mp ⟨items, parsed⟩
          have positive := List.length_pos_iff.mpr nonempty
          exact (notCut ⟨by omega, by omega, short⟩).elim

/-- One item whose hash is missing altogether. -/
def hashlessPayload : Bytes := [1, 2, 0, 0, 0]

/-- It is accepted, with an empty hash. -/
theorem hashlessPayload_accepted :
    parseInvPayload hashlessPayload = .ok [(2, [])] ∧ ¬ ∀ payload, ParsedStrictly payload := by
  have accepted : parseInvPayload hashlessPayload = .ok [(2, [])] := by decide
  refine ⟨accepted, fun strict => ?_⟩
  have complete := (strict hashlessPayload).hashes _ accepted (2, []) (by simp)
  exact absurd complete (by decide)

end QuantyCoin
