import Mathlib.Data.List.Basic
import Mathlib.Tactic.Common
import Mathlib.Tactic.Ring

/-!
# Reading byte strings through a cursor

A binary format is read by moving an offset through a byte string.  Slices
that run past the end are silently shortened, as in Python, while fixed-width
reads fail.  A decoder therefore receives the whole string and the current
offset and returns a value with the next offset, or an error.

`Reads decoder bytes value` says that the decoder recognizes `bytes` wherever
they stand.  It composes along `bind`, counted repetition and traversal, so
round trips of nested formats are assembled from their fields.
-/

/-- A byte string. -/
abbrev Bytes := List UInt8

namespace ByteDecoder

theorem map_eq_self {α : Type*} {f : α → α} {items : List α}
    (fixed : ∀ item ∈ items, f item = item) : items.map f = items :=
  (List.map_congr_left (g := id) fixed).trans (List.map_id items)

/-- Numbers that fit a byte survive as bytes. -/
theorem map_toNat_map_ofNat {values : List Nat} (small : ∀ value ∈ values, value < 256) :
    (values.map UInt8.ofNat).map UInt8.toNat = values := by
  rw [List.map_map]
  exact map_eq_self fun value member => UInt8.toNat_ofNat_of_lt' (small value member)

/-! ## Little-endian integers -/

/-- The low `width` bytes of a number, least significant first. -/
def leBytes : Nat → Nat → Bytes
  | 0, _ => []
  | width + 1, value => UInt8.ofNat value :: leBytes width (value / 256)

/-- The number whose little-endian bytes are given. -/
def leValue : Bytes → Nat
  | [] => 0
  | byte :: bytes => byte.toNat + 256 * leValue bytes

@[simp]
theorem leBytes_length (width value : Nat) :
    (leBytes width value).length = width := by
  induction width generalizing value with
  | zero => rfl
  | succ width ih => simp [leBytes, ih]

theorem leValue_lt (bytes : Bytes) : leValue bytes < 256 ^ bytes.length := by
  induction bytes with
  | nil => simp [leValue]
  | cons byte bytes ih =>
      have byteBound := byte.toNat_lt
      simp only [leValue, List.length_cons, pow_succ]
      omega

theorem leValue_leBytes {width value : Nat} (fits : value < 256 ^ width) :
    leValue (leBytes width value) = value := by
  induction width generalizing value with
  | zero =>
      simp only [pow_zero, Nat.lt_one_iff] at fits
      simp [leBytes, leValue, fits]
  | succ width ih =>
      have quotientFits : value / 256 < 256 ^ width := by
        rw [pow_succ] at fits
        omega
      simp only [leBytes, leValue, ih quotientFits, UInt8.toNat_ofNat']
      omega

/-! ## Decoders -/

/-- A cursor over a byte string: given the data and an offset, a value and
the next offset, or an error. -/
def Decoder (ε α : Type) := Bytes → Nat → Except ε (α × Nat)

namespace Decoder

variable {ε α β : Type}

instance : Monad (Decoder ε) where
  pure value := fun _ offset => .ok (value, offset)
  bind decoder next := fun data offset =>
    match decoder data offset with
    | .error error => .error error
    | .ok (value, offset') => next value data offset'

/-- `data[offset : offset + count]`, shortened at the end of the data; the
offset moves by `count` in any case. -/
def slice (count : Nat) : Decoder ε Bytes := fun data offset =>
  .ok ((data.drop offset).take count, offset + count)

/-- The same slice without moving the offset. -/
def peek (count : Nat) : Decoder ε Bytes := fun data offset =>
  .ok ((data.drop offset).take count, offset)

/-- A little-endian integer of exactly `width` bytes; a shorter slice is an
error. -/
def fixed (width : Nat) (short : ε) : Decoder ε Nat := fun data offset =>
  let bytes := (data.drop offset).take width
  if bytes.length = width then .ok (leValue bytes, offset + width)
  else .error short

/-- Run a decoder on everything from the offset on; it reports how many bytes
it used. -/
def onRest (decode : Bytes → Except ε (α × Nat)) : Decoder ε α :=
  fun data offset =>
    match decode (data.drop offset) with
    | .error error => .error error
    | .ok (value, used) => .ok (value, offset + used)

/-- A computation that reads nothing. -/
def lift (result : Except ε α) : Decoder ε α := fun _ offset =>
  result.map fun value => (value, offset)

/-- Repeat a decoder a given number of times. -/
def times (decoder : Decoder ε α) : Nat → Decoder ε (List α)
  | 0 => pure []
  | count + 1 => do
      let value ← decoder
      let values ← times decoder count
      pure (value :: values)

/-- Run one decoder for every element of a list, in order. -/
def each (decoder : α → Decoder ε β) : List α → Decoder ε (List β)
  | [] => pure []
  | item :: items => do
      let value ← decoder item
      let values ← each decoder items
      pure (value :: values)

@[simp]
theorem pure_apply (value : α) (data : Bytes) (offset : Nat) :
    (pure value : Decoder ε α) data offset = .ok (value, offset) :=
  rfl

theorem bind_apply (decoder : Decoder ε α) (next : α → Decoder ε β)
    (data : Bytes) (offset : Nat) :
    (decoder >>= next) data offset =
      match decoder data offset with
      | .error error => .error error
      | .ok (value, offset') => next value data offset' :=
  rfl

instance lawfulMonad : LawfulMonad (Decoder ε) := by
  refine LawfulMonad.mk' (Decoder ε) ?_ ?_ ?_
  · intro α decoder
    funext data offset
    change (decoder >>= pure) data offset = _
    rw [bind_apply]
    rcases decoder data offset with error | ⟨value, next⟩ <;> rfl
  · intro α β value next
    rfl
  · intro α β γ decoder next last
    funext data offset
    simp only [bind_apply]
    rcases decoder data offset with error | ⟨value, offset'⟩ <;> rfl

/-- A sequence of two decoders succeeds exactly when both do. -/
theorem bind_eq_ok {decoder : Decoder ε α} {next : α → Decoder ε β}
    {data : Bytes} {offset : Nat} {result : β × Nat} :
    (decoder >>= next) data offset = .ok result ↔
      ∃ value offset', decoder data offset = .ok (value, offset') ∧
        next value data offset' = .ok result := by
  rw [bind_apply]
  cases decoder data offset with
  | error error => simp
  | ok pair =>
      obtain ⟨value, offset'⟩ := pair
      simp

theorem lift_eq_ok {result : Except ε α} {data : Bytes} {offset next : Nat} {value : α} :
    lift result data offset = .ok (value, next) ↔ result = .ok value ∧ next = offset := by
  cases result <;> simp [lift, Except.map, eq_comm]

theorem fixed_eq_ok {width : Nat} {short : ε} {data : Bytes}
    {offset value next : Nat} :
    fixed width short data offset = .ok (value, next) ↔
      ((data.drop offset).take width).length = width ∧
        value = leValue ((data.drop offset).take width) ∧
        next = offset + width := by
  simp only [fixed]
  split
  · rename_i exact
    simp only [Except.ok.injEq, Prod.mk.injEq, exact, true_and]
    constructor
    · rintro ⟨rfl, rfl⟩
      exact ⟨rfl, rfl⟩
    · rintro ⟨rfl, rfl⟩
      exact ⟨rfl, rfl⟩
  · rename_i inexact
    constructor
    · intro impossible
      cases impossible
    · rintro ⟨exact, -⟩
      exact (inexact exact).elim

theorem onRest_eq_ok {decode : Bytes → Except ε (α × Nat)} {data : Bytes}
    {offset next : Nat} {value : α} :
    onRest decode data offset = .ok (value, next) ↔
      ∃ used, decode (data.drop offset) = .ok (value, used) ∧ next = offset + used := by
  rw [onRest]
  cases decode (data.drop offset) with
  | error error => simp
  | ok result =>
      obtain ⟨value', used⟩ := result
      simp only [Except.ok.injEq, Prod.mk.injEq]
      constructor
      · rintro ⟨rfl, rfl⟩
        exact ⟨used, ⟨rfl, rfl⟩, rfl⟩
      · rintro ⟨_, ⟨rfl, rfl⟩, rfl⟩
        exact ⟨rfl, rfl⟩

/-! ## Recognized encodings -/

/-- The decoder turns `bytes`, wherever they stand, into `value` and stops
right behind them. -/
def Reads (decoder : Decoder ε α) (bytes : Bytes) (value : α) : Prop :=
  ∀ before after : Bytes,
    decoder (before ++ (bytes ++ after)) before.length =
      .ok (value, before.length + bytes.length)

theorem Reads.pure (value : α) :
    Reads (Pure.pure value : Decoder ε α) [] value := by
  intro before after
  simp

theorem Reads.bind {decoder : Decoder ε α} {next : α → Decoder ε β}
    {first second : Bytes} {value : α} {result : β}
    (head : Reads decoder first value)
    (tail : Reads (next value) second result) :
    Reads (decoder >>= next) (first ++ second) result := by
  intro before after
  rw [bind_apply, List.append_assoc, head before (second ++ after)]
  have shifted := tail (before ++ first) after
  simp only [List.append_assoc, List.length_append] at shifted
  simp only [shifted, List.length_append, Nat.add_assoc]

/-- Recognition by a first decoder whose encoding is the whole string. -/
theorem Reads.bind_pure {decoder : Decoder ε α} {next : α → Decoder ε β}
    {bytes : Bytes} {value : α} {result : β}
    (head : Reads decoder bytes value)
    (tail : Reads (next value) [] result) :
    Reads (decoder >>= next) bytes result := by
  simpa using head.bind tail

theorem Reads.slice {bytes : Bytes} {count : Nat} (length : bytes.length = count) :
    Reads (slice count : Decoder ε Bytes) bytes bytes := by
  intro before after
  subst length
  simp [Decoder.slice]

/-- Looking ahead is harmless as long as the encoding is long enough. -/
theorem Reads.peek_bind {next : Bytes → Decoder ε β} {bytes : Bytes} {count : Nat}
    {result : β} (long : count ≤ bytes.length)
    (tail : Reads (next (bytes.take count)) bytes result) :
    Reads (peek count >>= next) bytes result := by
  intro before after
  have ahead : ((before ++ (bytes ++ after)).drop before.length).take count =
      bytes.take count := by
    rw [List.drop_left, List.take_append_of_le_length long]
  rw [bind_apply]
  simp only [peek, ahead]
  exact tail before after

theorem Reads.fixed {width value : Nat} {short : ε} (fits : value < 256 ^ width) :
    Reads (fixed width short) (leBytes width value) value := by
  intro before after
  simp [Decoder.fixed, leValue_leBytes fits]

theorem Reads.lift (value : α) : Reads (lift (.ok value) : Decoder ε α) [] value :=
  Reads.pure value

theorem Reads.onRest {decode : Bytes → Except ε (α × Nat)} {bytes : Bytes}
    {value : α}
    (decodes : ∀ after, decode (bytes ++ after) = .ok (value, bytes.length)) :
    Reads (onRest decode) bytes value := by
  intro before after
  simp [Decoder.onRest, decodes after]

theorem Reads.times {ι : Type} {decoder : Decoder ε α} {encode : ι → Bytes}
    {result : ι → α} {items : List ι}
    (item : ∀ one ∈ items, Reads decoder (encode one) (result one)) :
    Reads (times decoder items.length) (items.flatMap encode) (items.map result) := by
  induction items with
  | nil => exact Reads.pure []
  | cons one items ih =>
      have head := item one (by simp)
      have tail := ih fun other member => item other (by simp [member])
      rw [List.flatMap_cons, List.map_cons]
      exact head.bind (tail.bind_pure (Reads.pure _))

theorem Reads.each {ι : Type} {decoder : α → Decoder ε β} {input : ι → α}
    {encode : ι → Bytes} {result : ι → β} {items : List ι}
    (item : ∀ one ∈ items, Reads (decoder (input one)) (encode one) (result one)) :
    Reads (each decoder (items.map input)) (items.flatMap encode)
      (items.map result) := by
  induction items with
  | nil => exact Reads.pure []
  | cons one items ih =>
      have head := item one (by simp)
      have tail := ih fun other member => item other (by simp [member])
      rw [List.flatMap_cons, List.map_cons, List.map_cons]
      exact head.bind (tail.bind_pure (Reads.pure _))

/-- Encodings that are recognized stand for one value, and where two strings
begin with one each, the rests agree too. -/
theorem Reads.append_inj {decoder : Decoder ε α} {first second rest rest' : Bytes}
    {value value' : α} (reads : Reads decoder first value)
    (reads' : Reads decoder second value') (same : first ++ rest = second ++ rest') :
    value = value' ∧ rest = rest' := by
  have read := reads [] rest
  have read' := reads' [] rest'
  simp only [List.nil_append, List.length_nil, Nat.zero_add] at read read'
  rw [same, read'] at read
  simp only [Except.ok.injEq, Prod.mk.injEq] at read
  exact ⟨read.1.symm, (List.append_inj same read.2.symm).2⟩

theorem Reads.unique {decoder : Decoder ε α} {bytes : Bytes} {value value' : α}
    (reads : Reads decoder bytes value) (reads' : Reads decoder bytes value') :
    value = value' :=
  (@append_inj _ _ _ _ _ [] [] _ _ reads reads' rfl).1

/-- A string of recognized encodings determines the list of their values. -/
theorem Reads.flatMap_inj {ι : Type} {decoder : Decoder ε α} {encode : ι → Bytes}
    {result : ι → α} {first second : List ι}
    (item : ∀ one ∈ first, Reads decoder (encode one) (result one))
    (item' : ∀ one ∈ second, Reads decoder (encode one) (result one))
    (nonempty : ∀ one, encode one ≠ [])
    (same : first.flatMap encode = second.flatMap encode) :
    first.map result = second.map result := by
  induction first generalizing second with
  | nil =>
      cases second with
      | nil => rfl
      | cons other second => simp [nonempty other] at same
  | cons one first ih =>
      cases second with
      | nil => simp [nonempty one] at same
      | cons other second =>
          rw [List.flatMap_cons, List.flatMap_cons] at same
          obtain ⟨head, tail⟩ := (item one (by simp)).append_inj (item' other (by simp)) same
          have rest := ih (fun one member => item one (by simp [member]))
            (fun one member => item' one (by simp [member])) tail
          rw [List.map_cons, List.map_cons, head, rest]

/-- Every value of a repetition satisfies what one read guarantees, and there
are as many as asked for. -/
theorem times_eq_ok {decoder : Decoder ε α} {good : α → Prop} {data : Bytes}
    (item : ∀ offset value next,
      decoder data offset = .ok (value, next) → good value)
    {count offset next : Nat} {values : List α}
    (read : times decoder count data offset = .ok (values, next)) :
    values.length = count ∧ ∀ value ∈ values, good value := by
  induction count generalizing offset next values with
  | zero =>
      simp only [times, pure_apply, Except.ok.injEq, Prod.mk.injEq] at read
      simp [← read.1]
  | succ count ih =>
      simp only [times, bind_eq_ok, pure_apply, Except.ok.injEq,
        Prod.mk.injEq] at read
      obtain ⟨value, middle, headRead, others, last, tailRead, rfl, -⟩ := read
      obtain ⟨length, allGood⟩ := ih tailRead
      refine ⟨by simp [length], ?_⟩
      intro other member
      rcases List.mem_cons.mp member with rfl | member
      · exact item _ _ _ headRead
      · exact allGood other member

/-- What one step of a traversal guarantees holds along the whole list. -/
theorem each_eq_ok {decoder : α → Decoder ε β} {before : α → Prop}
    {good : β → Prop} {data : Bytes}
    (item : ∀ input offset value next, before input →
      decoder input data offset = .ok (value, next) → good value)
    {items : List α} {offset next : Nat} {values : List β}
    (inputs : ∀ input ∈ items, before input)
    (read : each decoder items data offset = .ok (values, next)) :
    values.length = items.length ∧ ∀ value ∈ values, good value := by
  induction items generalizing offset next values with
  | nil =>
      simp only [each, pure_apply, Except.ok.injEq, Prod.mk.injEq] at read
      simp [← read.1]
  | cons input items ih =>
      simp only [each, bind_eq_ok, pure_apply, Except.ok.injEq,
        Prod.mk.injEq] at read
      obtain ⟨value, middle, headRead, others, last, tailRead, rfl, -⟩ := read
      obtain ⟨length, allGood⟩ :=
        ih (fun other member => inputs other (by simp [member])) tailRead
      refine ⟨by simp [length], ?_⟩
      intro other member
      rcases List.mem_cons.mp member with rfl | member
      · exact item _ _ _ _ (inputs _ (by simp)) headRead
      · exact allGood other member

end Decoder

end ByteDecoder
