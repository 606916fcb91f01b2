import QuantyCoin.PositionalDigits
import QuantyCoin.Primitives

/-!
# Base58Check

Byte strings as numbers in base 58, with the leading zero bytes counted apart,
and the four checksum bytes behind them, from `crypto/bip32_44.py`.
-/

namespace QuantyCoin

open ByteDecoder PositionalDigits

/-- `B58_CHARS`. -/
def b58Chars : List Char :=
  "123456789ABCDEFGHJKLMNPQRSTUVWXYZabcdefghijkmnopqrstuvwxyz".toList

def b58Char (digit : Nat) : Char := b58Chars.getD digit '1'

/-- `B58_MAP[c]`, behind the check that the character is there. -/
def b58Digit (c : Char) : Except PyException Nat :=
  if c ∈ b58Chars then .ok (b58Chars.idxOf c)
  else .error (.valueError ("Invalid Base58 character: " ++ c.toString))

/-- `b58encode`: the digits of the number, behind a `'1'` for every leading zero
byte. -/
def b58encode (b : Bytes) : List Char := (recode 256 58 (b.map UInt8.toNat)).map b58Char

/-- `b58decode`: the loop raises at the first character that is not in the
alphabet. -/
def b58decode (s : List Char) : Except PyException Bytes := do
  let digits ← s.mapM b58Digit
  return (recode 58 256 digits).map UInt8.ofNat

/-- `base58check_encode` with a version byte. -/
def base58checkEncode (prim : Primitives) (payload : Bytes) (versionByte : UInt8) : List Char :=
  let data := versionByte :: payload
  b58encode (data ++ (prim.hash256 data).take 4)

/-- `base58check_decode`: behind the length check `data` has a first byte. -/
def base58checkDecode (prim : Primitives) (s : List Char) :
    Except PyException (UInt8 × Bytes) := do
  let raw ← b58decode s
  if raw.length < 5 then .error (.valueError "Base58Check data too short")
  else
    let data := raw.take (raw.length - 4)
    let checksum := raw.drop (raw.length - 4)
    if (prim.hash256 data).take 4 ≠ checksum then
      .error (.valueError "Invalid Base58Check checksum")
    else .ok (data.headD 0, data.tail)

/-! ## Round trip -/

theorem b58Digit_b58Char {digit : Nat} (small : digit < 58) :
    b58Digit (b58Char digit) = .ok digit := by
  have checked : ∀ digit < 58, b58Digit (b58Char digit) = .ok digit := by decide +kernel
  exact checked digit small

theorem mapM_b58Digit {digits : List Nat} (small : ∀ digit ∈ digits, digit < 58) :
    (digits.map b58Char).mapM b58Digit = .ok digits := by
  induction digits with
  | nil => rfl
  | cons digit digits ih =>
      rw [List.map_cons, List.mapM_cons, b58Digit_b58Char (small digit List.mem_cons_self)]
      rw [ih fun other member => small other (List.mem_cons_of_mem _ member)]
      rfl

theorem b58decode_b58encode (b : Bytes) : b58decode (b58encode b) = .ok b := by
  have bounded : ∀ digit ∈ b.map UInt8.toNat, digit < 256 := by
    intro digit member
    obtain ⟨byte, -, rfl⟩ := List.mem_map.mp member
    exact byte.toNat_lt
  have small : ∀ digit ∈ recode 256 58 (b.map UInt8.toNat), digit < 58 := by
    intro digit member
    exact recode_lt (by decide) member
  rw [b58decode, b58encode, mapM_b58Digit small]
  change Except.ok _ = _
  rw [recode_recode (by decide) (by decide) bounded, List.map_map]
  simp [Function.comp_def]

theorem b58encode_injective {b b' : Bytes} (equal : b58encode b = b58encode b') : b = b' := by
  have decoded := b58decode_b58encode b
  rw [equal, b58decode_b58encode] at decoded
  exact (Except.ok.inj decoded).symm

theorem base58checkDecode_encode (prim : Primitives) (payload : Bytes) (versionByte : UInt8) :
    base58checkDecode prim (base58checkEncode prim payload versionByte) =
      .ok (versionByte, payload) := by
  have checksum : ((prim.hash256 (versionByte :: payload)).take 4).length = 4 := by
    rw [List.length_take, prim.hash256_length]
    rfl
  have long : ¬(versionByte :: payload ++
      (prim.hash256 (versionByte :: payload)).take 4).length < 5 := by
    rw [List.length_append, checksum, List.length_cons]
    omega
  rw [base58checkDecode, base58checkEncode, b58decode_b58encode]
  change (if _ then _ else _) = _
  rw [if_neg long, List.length_append, checksum, Nat.add_sub_cancel, List.take_left,
    List.drop_left]
  simp

theorem base58checkEncode_injective {prim : Primitives} {payload payload' : Bytes}
    {versionByte : UInt8}
    (equal : base58checkEncode prim payload versionByte =
      base58checkEncode prim payload' versionByte) : payload = payload' := by
  have decoded := base58checkDecode_encode prim payload versionByte
  rw [equal, base58checkDecode_encode] at decoded
  exact (Prod.mk.inj (Except.ok.inj decoded)).2.symm

/-- Twenty-five bytes that begin with `0x3A` begin with `Q` in Base58. -/
theorem exists_b58encode_eq_cons_Q {rest : Bytes} (length : rest.length = 24) :
    ∃ tail, b58encode (0x3A :: rest) = 'Q' :: tail := by
  have trimmed : leadingZeros ((0x3A :: rest).map UInt8.toNat) = 0 := by
    simp [leadingZeros]
  have restBound : valueOf 256 (rest.map UInt8.toNat) < 256 ^ 24 := by
    rw [← length, ← List.length_map UInt8.toNat, valueOf_eq_ofDigits, ← List.length_reverse]
    apply Nat.ofDigits_lt_base_pow_length (by decide)
    intro digit member
    obtain ⟨byte, -, rfl⟩ := List.mem_map.mp (List.mem_reverse.mp member)
    exact byte.toNat_lt
  have value : valueOf 256 ((0x3A :: rest).map UInt8.toNat) =
      58 * 256 ^ 24 + valueOf 256 (rest.map UInt8.toNat) := by
    rw [List.map_cons, ← List.singleton_append, valueOf_append, List.length_map, length]
    rfl
  obtain ⟨tail, digits⟩ := @exists_digitsOf_eq_cons 58 23 33
    (valueOf 256 ((0x3A :: rest).map UInt8.toNat)) (by decide) (by decide) (by decide)
    (by rw [value]; omega) (by rw [value]; omega)
  refine ⟨tail.map b58Char, ?_⟩
  rw [b58encode, recode, trimmed, digits]
  rfl

/-! ## Bijection -/

theorem b58Char_idxOf {c : Char} (member : c ∈ b58Chars) : b58Char (b58Chars.idxOf c) = c := by
  have inside := List.idxOf_lt_length_of_mem member
  rw [b58Char, List.getD_eq_getElem?_getD, List.getElem?_eq_getElem inside, Option.getD_some,
    List.getElem_idxOf]

theorem mapM_b58Digit_of_mem {s : List Char} (alphabet : ∀ c ∈ s, c ∈ b58Chars) :
    s.mapM b58Digit = .ok (s.map b58Chars.idxOf) := by
  induction s with
  | nil => rfl
  | cons c s ih =>
      rw [List.mapM_cons, b58Digit, if_pos (alphabet c List.mem_cons_self)]
      rw [ih fun other member => alphabet other (List.mem_cons_of_mem _ member)]
      rfl

/-- A string over the alphabet is the encoding of what it is decoded to. -/
theorem b58encode_b58decode {s : List Char} (alphabet : ∀ c ∈ s, c ∈ b58Chars) :
    ∃ b, b58decode s = .ok b ∧ b58encode b = s := by
  have bounded : ∀ digit ∈ s.map b58Chars.idxOf, digit < 58 := by
    intro digit member
    obtain ⟨c, inside, rfl⟩ := List.mem_map.mp member
    exact List.idxOf_lt_length_of_mem (alphabet c inside)
  have bytes : ((recode 58 256 (s.map b58Chars.idxOf)).map UInt8.ofNat).map UInt8.toNat =
      recode 58 256 (s.map b58Chars.idxOf) :=
    map_toNat_map_ofNat fun digit member => recode_lt (by decide) member
  have characters : (s.map b58Chars.idxOf).map b58Char = s := by
    rw [List.map_map]
    exact map_eq_self fun c member => b58Char_idxOf (alphabet c member)
  refine ⟨(recode 58 256 (s.map b58Chars.idxOf)).map UInt8.ofNat, ?_, ?_⟩
  · rw [b58decode, mapM_b58Digit_of_mem alphabet]
    rfl
  · rw [b58encode, bytes, recode_recode (by decide) (by decide) bounded, characters]

/-- Byte strings and strings over the alphabet correspond, and a payload survives with its
version byte. -/
theorem base58_bijective (prim : Primitives) :
    (∀ b : Bytes, b58decode (b58encode b) = .ok b) ∧
    (∀ s : List Char, (∀ c ∈ s, c ∈ b58Chars) → ∃ b, b58decode s = .ok b ∧ b58encode b = s) ∧
    ∀ (payload : Bytes) (versionByte : UInt8),
      base58checkDecode prim (base58checkEncode prim payload versionByte) =
        .ok (versionByte, payload) := by
  refine ⟨b58decode_b58encode, ?_, base58checkDecode_encode prim⟩
  intro s alphabet
  exact b58encode_b58decode alphabet

/-- Two leading ones are two zero bytes. -/
theorem base58_bijective_zeros :
    (∃ b, b58decode ['1', '1', '2'] = .ok b ∧ b58encode b = ['1', '1', '2']) ∧
      b58decode ['1', '1', '2'] = .ok [0, 0, 1] := by
  refine ⟨(base58_bijective (Primitives.ofDigests [])).2.1 _ ?_, by decide +kernel⟩
  exact List.forall_mem_cons.mpr ⟨by decide, List.forall_mem_cons.mpr ⟨by decide,
    List.forall_mem_singleton.mpr (by decide)⟩⟩

end QuantyCoin
