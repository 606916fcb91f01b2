import QuantyCoin.ScriptSolver
import Mathlib.Data.Nat.Digits.Lemmas

/-!
# Script numbers

`CScriptNum` of `script/script.h`.  A number is stored with its magnitude in
little-endian order and its sign in the top bit of the last byte, and a magnitude that
needs this bit takes one more byte.  The encodings that the constructor accepts with
`fRequireMinimal` are exactly those that `serialize` writes.

The code holds numbers in an `int64_t`, which has room for what up to eight bytes encode;
no caller reads more than five.  The interpreter is modelled with integers, and the last
section shows that in up to eight bytes they are the numbers of 64 bits.
-/

namespace QuantyCoin

open ByteDecoder

namespace CScriptNum

/-- What `set_vch` computes, of at most eight bytes. -/
def setVch (vch : Bytes) : Int :=
  match vch.getLast? with
  | none => 0
  | some back =>
      if back &&& 0x80 = 0 then leValue vch
      else -(leValue vch - 0x80 * 256 ^ (vch.length - 1) : Nat)

/-- The loop of `serialize` over `absvalue`. -/
def absBytes (absvalue : Nat) : Bytes := (Nat.digits 256 absvalue).map UInt8.ofNat

/-- What `CScriptNum::serialize` writes for a number that an `int64_t` holds. -/
def serialize (value : Int) : Bytes :=
  if value = 0 then []
  else
    let result := absBytes value.natAbs
    let back := result.getLastD 0
    if back &&& 0x80 ≠ 0 then result ++ [if value < 0 then 0x80 else 0]
    else if value < 0 then result.dropLast ++ [back ||| 0x80]
    else result

/-- No byte is superfluous: the last byte is more than a sign, or else the byte before
it needs its top bit. -/
def isMinimal (vch : Bytes) : Bool :=
  match vch.getLast? with
  | none => true
  | some back =>
      back &&& 0x7f ≠ 0 || (1 < vch.length && vch.dropLast.getLast?.getD 0 &&& 0x80 ≠ 0)

/-- `CScriptNum(vch, fRequireMinimal, nMaxNumSize)`; nothing where it throws. -/
def ofBytes (vch : Bytes) (fRequireMinimal : Bool) (nMaxNumSize : Nat) : Option Int :=
  if nMaxNumSize < vch.length then none
  else if fRequireMinimal && !isMinimal vch then none
  else some (setVch vch)

/-- The numbers that `Solver` reads. -/
theorem scriptNum_eq (data : Bytes) : scriptNum data = ofBytes data true 4 := by
  rw [scriptNum, ofBytes]
  by_cases long : 4 < data.length
  · rw [if_pos long, if_pos long]
  · rw [if_neg long, if_neg long]
    cases last : data.getLast? with
    | none => simp [isMinimal, setVch, last]
    | some back =>
        simp only [isMinimal, setVch, last, Bool.true_and, Bool.not_eq_true', Bool.or_eq_false_iff,
          decide_eq_false_iff_not, not_not, Bool.and_eq_false_iff, not_lt]
        split_ifs <;> rfl

/-! ## Bytes with a sign -/

theorem and_128_eq_zero (byte : UInt8) : byte &&& 0x80 = 0 ↔ byte.toNat < 128 := by
  have all : ∀ n : Fin 256, UInt8.ofNat n.1 &&& 0x80 = 0 ↔ n.1 < 128 := by
    decide +kernel
  simpa using all ⟨byte.toNat, byte.toNat_lt⟩

theorem and_127_eq_zero (byte : UInt8) : byte &&& 0x7f = 0 ↔ byte.toNat % 128 = 0 := by
  have all : ∀ n : Fin 256, UInt8.ofNat n.1 &&& 0x7f = 0 ↔ n.1 % 128 = 0 := by
    decide +kernel
  simpa using all ⟨byte.toNat, byte.toNat_lt⟩

theorem or_128_toNat {byte : UInt8} (plain : byte.toNat < 128) :
    (byte ||| 0x80).toNat = byte.toNat + 128 := by
  have all : ∀ n : Fin 256, n.1 < 128 → (UInt8.ofNat n.1 ||| 0x80).toNat = n.1 + 128 := by
    decide +kernel
  simpa using all ⟨byte.toNat, byte.toNat_lt⟩ plain

theorem leValue_concat (bytes : Bytes) (back : UInt8) :
    leValue (bytes ++ [back]) = leValue bytes + 256 ^ bytes.length * back.toNat := by
  induction bytes with
  | nil => simp [leValue]
  | cons byte bytes ih =>
      rw [List.cons_append, leValue, leValue, ih, List.length_cons, pow_succ]
      ring

/-- A magnitude whose last byte is a sign and seven bits. -/
def signedMagnitude (bytes : Bytes) (back : UInt8) : Nat :=
  leValue bytes + 256 ^ bytes.length * (back.toNat % 128)

theorem setVch_concat (bytes : Bytes) (back : UInt8) :
    setVch (bytes ++ [back]) =
      if back.toNat < 128 then (signedMagnitude bytes back : Int)
      else -(signedMagnitude bytes back : Int) := by
  have bounded := back.toNat_lt
  rw [setVch, List.getLast?_append_of_ne_nil _ (List.cons_ne_nil back [])]
  simp only [List.getLast?_singleton, and_128_eq_zero, leValue_concat, List.length_append,
    List.length_singleton, Nat.add_sub_cancel, signedMagnitude]
  split_ifs with plain
  · rw [Nat.mod_eq_of_lt plain]
  · have magnitude : back.toNat % 128 = back.toNat - 128 := by omega
    rw [magnitude, Nat.mul_sub, Nat.mul_comm 0x80]
    have inside : 256 ^ bytes.length * 128 ≤ 256 ^ bytes.length * back.toNat :=
      Nat.mul_le_mul_left _ (by omega)
    congr 2
    omega

theorem leValue_eq_ofDigits (bytes : Bytes) :
    leValue bytes = Nat.ofDigits 256 (bytes.map UInt8.toNat) := by
  induction bytes with
  | nil => rfl
  | cons byte bytes ih => rw [leValue, ih, List.map_cons, Nat.ofDigits_cons]

theorem map_ofNat_toNat (bytes : Bytes) : (bytes.map UInt8.toNat).map UInt8.ofNat = bytes := by
  rw [List.map_map]
  exact (List.map_congr_left fun byte _ => UInt8.ofNat_toNat).trans (List.map_id _)

theorem map_toNat_absBytes (value : Nat) :
    (absBytes value).map UInt8.toNat = Nat.digits 256 value := by
  rw [absBytes, List.map_map]
  refine (List.map_congr_left fun digit member => ?_).trans (List.map_id _)
  exact UInt8.toNat_ofNat_of_lt' (Nat.digits_lt_base (by decide) member)

theorem leValue_absBytes (value : Nat) : leValue (absBytes value) = value := by
  rw [leValue_eq_ofDigits, map_toNat_absBytes, Nat.ofDigits_digits]

/-- The bytes of a positive magnitude end in a byte that is not zero. -/
theorem exists_absBytes {value : Nat} (positive : 0 < value) :
    ∃ bytes back, absBytes value = bytes ++ [back] ∧ back.toNat ≠ 0 := by
  have nonempty : Nat.digits 256 value ≠ [] := Nat.digits_ne_nil_iff_ne_zero.mpr positive.ne'
  have last : (Nat.digits 256 value).getLast nonempty ≠ 0 :=
    Nat.getLast_digit_ne_zero 256 positive.ne'
  have split := List.dropLast_append_getLast nonempty
  refine ⟨((Nat.digits 256 value).dropLast).map UInt8.ofNat,
    UInt8.ofNat ((Nat.digits 256 value).getLast nonempty), ?_, ?_⟩
  · rw [absBytes]
    conv_lhs => rw [← split]
    rw [List.map_append, List.map_singleton]
  · have small := Nat.digits_lt_base (b := 256) (by decide) (List.getLast_mem nonempty)
    rwa [UInt8.toNat_ofNat_of_lt' small]

/-- Bytes that end in a byte that is not zero are those of their magnitude. -/
theorem absBytes_leValue {bytes : Bytes} {back : UInt8} (last : back.toNat ≠ 0) :
    absBytes (leValue (bytes ++ [back])) = bytes ++ [back] := by
  have digits : Nat.digits 256 (leValue (bytes ++ [back])) =
      (bytes ++ [back]).map UInt8.toNat := by
    rw [leValue_eq_ofDigits]
    refine Nat.digits_ofDigits 256 (by decide) _ (fun digit member => ?_) fun nonempty => ?_
    · obtain ⟨byte, -, rfl⟩ := List.mem_map.mp member
      exact byte.toNat_lt
    · simpa using last
  rw [absBytes, digits, map_ofNat_toNat]

/-! ## Minimal encodings -/

theorem isMinimal_concat {bytes : Bytes} {back : UInt8} :
    isMinimal (bytes ++ [back]) = true ↔
      back.toNat % 128 ≠ 0 ∨ ∃ init prev, bytes = init ++ [prev] ∧ 128 ≤ prev.toNat := by
  rw [isMinimal, List.getLast?_append_of_ne_nil _ (List.cons_ne_nil back [])]
  simp only [List.getLast?_singleton, List.dropLast_concat, List.length_append,
    List.length_singleton, Bool.or_eq_true, decide_eq_true_eq, ne_eq, and_127_eq_zero,
    Bool.and_eq_true, and_128_eq_zero, not_lt]
  refine or_congr_right ⟨fun ⟨_, topBit⟩ => ?_, ?_⟩
  · cases last : bytes.getLast? with
    | none => simp [last] at topBit
    | some prev =>
        rw [last] at topBit
        exact ⟨bytes.dropLast, prev, (List.dropLast_append_getLast? prev last).symm, topBit⟩
  · rintro ⟨init, prev, rfl, topBit⟩
    simpa using topBit

theorem serialize_eq {value : Int} {bytes : Bytes} {back : UInt8}
    (encoded : absBytes value.natAbs = bytes ++ [back]) :
    serialize value =
      if 128 ≤ back.toNat then bytes ++ [back] ++ [if value < 0 then 0x80 else 0]
      else if value < 0 then bytes ++ [back ||| 0x80]
      else bytes ++ [back] := by
  have nonzero : value ≠ 0 := by
    rintro rfl
    simp [absBytes] at encoded
  simp only [serialize, if_neg nonzero, encoded, List.getLastD_concat, ne_eq, and_128_eq_zero,
    not_lt, List.dropLast_concat]

/-- The encoding of a number that is not zero. -/
theorem exists_serialize {value : Int} (nonzero : value ≠ 0) :
    ∃ bytes back, serialize value = bytes ++ [back] ∧ isMinimal (bytes ++ [back]) = true ∧
      signedMagnitude bytes back = value.natAbs ∧ (back.toNat < 128 ↔ 0 ≤ value) := by
  obtain ⟨bytes, back, encoded, last⟩ := exists_absBytes (Int.natAbs_pos.mpr nonzero)
  have bounded := back.toNat_lt
  have magnitude : leValue bytes + 256 ^ bytes.length * back.toNat = value.natAbs := by
    rw [← leValue_concat, ← encoded, leValue_absBytes]
  rw [serialize_eq encoded]
  by_cases topBit : 128 ≤ back.toNat
  · rw [if_pos topBit]
    refine ⟨_, _, rfl, isMinimal_concat.mpr (.inr ⟨bytes, back, rfl, topBit⟩), ?_, ?_⟩
    · rw [signedMagnitude, leValue_concat, magnitude]
      split_ifs <;> simp
    · split_ifs with negative
      · simp [negative]
      · simpa using negative
  · have plain : back.toNat < 128 := not_le.mp topBit
    rw [if_neg topBit]
    by_cases negative : value < 0
    · rw [if_pos negative]
      refine ⟨_, _, rfl, isMinimal_concat.mpr (.inl ?_), ?_, ?_⟩
      · rw [or_128_toNat plain]
        omega
      · rw [signedMagnitude, or_128_toNat plain, Nat.add_mod_right, Nat.mod_eq_of_lt plain,
          magnitude]
      · rw [or_128_toNat plain]
        omega
    · rw [if_neg negative]
      refine ⟨_, _, rfl, isMinimal_concat.mpr (.inl ?_), ?_, ?_⟩
      · rwa [Nat.mod_eq_of_lt plain]
      · rw [signedMagnitude, Nat.mod_eq_of_lt plain, magnitude]
      · exact ⟨fun _ => not_lt.mp negative, fun _ => plain⟩

/-- A number is read back from its encoding. -/
theorem setVch_serialize (value : Int) : setVch (serialize value) = value := by
  by_cases nonzero : value = 0
  · rw [nonzero]
    rfl
  · obtain ⟨bytes, back, encoded, -, magnitude, sign⟩ := exists_serialize nonzero
    rw [encoded, setVch_concat, magnitude]
    split_ifs with plain
    · exact Int.natAbs_of_nonneg (sign.mp plain)
    · have negative : value < 0 := by
        by_contra positive
        exact plain (sign.mpr (not_lt.mp positive))
      omega

theorem isMinimal_serialize (value : Int) : isMinimal (serialize value) = true := by
  by_cases nonzero : value = 0
  · rw [nonzero]
    rfl
  · obtain ⟨bytes, back, encoded, minimal, -⟩ := exists_serialize nonzero
    rwa [encoded]

/-- The bounds of a magnitude in a minimal encoding. -/
theorem signedMagnitude_lt (bytes : Bytes) (back : UInt8) :
    signedMagnitude bytes back < 128 * 256 ^ bytes.length := by
  have low := leValue_lt bytes
  have high : 256 ^ bytes.length * (back.toNat % 128) ≤ 256 ^ bytes.length * 127 :=
    Nat.mul_le_mul_left _ (by omega)
  rw [signedMagnitude]
  omega

theorem le_signedMagnitude {bytes : Bytes} {back : UInt8}
    (minimal : isMinimal (bytes ++ [back]) = true) {k : Nat} (long : k < bytes.length) :
    128 * 256 ^ k ≤ signedMagnitude bytes back := by
  rw [signedMagnitude]
  obtain full | ⟨init, prev, rfl, topBit⟩ := isMinimal_concat.mp minimal
  · calc
      128 * 256 ^ k ≤ 256 ^ (k + 1) := by rw [pow_succ]; omega
      _ ≤ 256 ^ bytes.length := Nat.pow_le_pow_right (by decide) long
      _ ≤ 256 ^ bytes.length * (back.toNat % 128) :=
          Nat.le_mul_of_pos_right _ (Nat.pos_of_ne_zero full)
      _ ≤ _ := Nat.le_add_left _ _
  · rw [List.length_append, List.length_singleton] at long
    calc
      128 * 256 ^ k ≤ 128 * 256 ^ init.length :=
          Nat.mul_le_mul_left _ (Nat.pow_le_pow_right (by decide) (by omega))
      _ ≤ 256 ^ init.length * prev.toNat := by
          rw [Nat.mul_comm]
          exact Nat.mul_le_mul_left _ topBit
      _ ≤ leValue (init ++ [prev]) := by
          rw [leValue_concat]
          exact Nat.le_add_left _ _
      _ ≤ _ := Nat.le_add_right _ _

theorem setVch_concat_natAbs (bytes : Bytes) (back : UInt8) :
    (setVch (bytes ++ [back])).natAbs = signedMagnitude bytes back := by
  rw [setVch_concat]
  split_ifs
  · exact Int.natAbs_natCast _
  · rw [Int.natAbs_neg, Int.natAbs_natCast]

theorem setVch_concat_neg {bytes : Bytes} {back : UInt8}
    (positive : 0 < signedMagnitude bytes back) :
    setVch (bytes ++ [back]) < 0 ↔ 128 ≤ back.toNat := by
  rw [setVch_concat]
  split_ifs <;> omega

/-- A number has only one minimal encoding. -/
theorem serialize_setVch {vch : Bytes} (minimal : isMinimal vch = true) :
    serialize (setVch vch) = vch := by
  rcases List.eq_nil_or_concat' vch with rfl | ⟨bytes, back, rfl⟩
  · rfl
  · have bounded := back.toNat_lt
    have natAbs := setVch_concat_natAbs bytes back
    by_cases full : back.toNat % 128 = 0
    · -- the last byte is only a sign, so the byte before it has its top bit
      obtain ⟨init, prev, rfl, topBit⟩ :=
        (isMinimal_concat.mp minimal).resolve_left (not_not.mpr full)
      rw [signedMagnitude, full, Nat.mul_zero, Nat.add_zero] at natAbs
      have last : prev.toNat ≠ 0 := by omega
      have positive : 0 < signedMagnitude (init ++ [prev]) back := by
        have bound := le_signedMagnitude (k := 0) minimal (by simp)
        omega
      rw [serialize_eq (natAbs ▸ absBytes_leValue last), if_pos topBit]
      congr 2
      apply UInt8.toNat_inj.mp
      split_ifs with negative
      · rw [setVch_concat_neg positive] at negative
        change 128 = back.toNat
        omega
      · rw [setVch_concat_neg positive] at negative
        change 0 = back.toNat
        omega
    · have low : (UInt8.ofNat (back.toNat % 128)).toNat = back.toNat % 128 :=
        UInt8.toNat_ofNat_of_lt' (by change _ < 256; omega)
      have magnitude : signedMagnitude bytes back =
          leValue (bytes ++ [UInt8.ofNat (back.toNat % 128)]) := by
        rw [leValue_concat, low, signedMagnitude]
      have positive : 0 < signedMagnitude bytes back :=
        Nat.lt_of_lt_of_le (Nat.pos_of_ne_zero full)
          (le_trans (Nat.le_mul_of_pos_left _ (Nat.pow_pos (by decide))) (Nat.le_add_left _ _))
      have last : (UInt8.ofNat (back.toNat % 128)).toNat ≠ 0 := by rwa [low]
      rw [serialize_eq (natAbs.trans magnitude ▸ absBytes_leValue last), low,
        if_neg (by omega)]
      split_ifs with negative
      · rw [setVch_concat_neg positive] at negative
        congr 2
        apply UInt8.toNat_inj.mp
        rw [or_128_toNat (by omega), low]
        omega
      · rw [setVch_concat_neg positive] at negative
        congr 2
        apply UInt8.toNat_inj.mp
        rw [low]
        omega

theorem serialize_length_le_iff {value : Int} {k : Nat} :
    (serialize value).length ≤ k + 1 ↔ value.natAbs < 128 * 256 ^ k := by
  by_cases nonzero : value = 0
  · have positive : 0 < 128 * 256 ^ k := by positivity
    rw [nonzero]
    exact ⟨fun _ => positive, fun _ => Nat.zero_le _⟩
  · obtain ⟨bytes, back, encoded, minimal, magnitude, -⟩ := exists_serialize nonzero
    rw [encoded, ← magnitude, List.length_append, List.length_singleton, Nat.add_le_add_iff_right]
    constructor
    · intro short
      exact lt_of_lt_of_le (signedMagnitude_lt bytes back)
        (Nat.mul_le_mul_left _ (Nat.pow_le_pow_right (by decide) short))
    · intro small
      by_contra long
      exact absurd (le_signedMagnitude minimal (not_le.mp long)) (not_le.mpr small)

theorem isMinimal_iff {vch : Bytes} : isMinimal vch = true ↔ vch = serialize (setVch vch) :=
  ⟨fun minimal => (serialize_setVch minimal).symm, fun encoded => encoded ▸ isMinimal_serialize _⟩

/-- The constructor accepts with `fRequireMinimal` exactly the encodings that
`serialize` writes for the numbers whose magnitude leaves a bit for the sign. -/
theorem ofBytes_eq_some_iff (vch : Bytes) (value : Int) (k : Nat) :
    ofBytes vch true (k + 1) = some value ↔
      vch = serialize value ∧ value.natAbs < 128 * 256 ^ k := by
  constructor
  · intro read
    rw [ofBytes] at read
    split_ifs at read with long superfluous
    simp only [Bool.true_and, Bool.not_eq_true', Bool.not_eq_false] at superfluous
    simp only [Option.some.injEq] at read
    have encoded : vch = serialize value := read ▸ isMinimal_iff.mp superfluous
    exact ⟨encoded, serialize_length_le_iff.mp (encoded ▸ not_lt.mp long)⟩
  · rintro ⟨rfl, small⟩
    rw [ofBytes, if_neg (not_lt.mpr (serialize_length_le_iff.mpr small)), isMinimal_serialize,
      setVch_serialize]
    rfl

/-! ## In 64 bits -/

/-- The loop of `set_vch`, from the byte `i` on. -/
def orBytes : (i : Nat) → (vch : Bytes) → (result : BitVec 64) → BitVec 64
  | _, [], result => result
  | i, byte :: vch, result =>
      orBytes (i + 1) vch (result ||| byte.toBitVec.setWidth 64 <<< (8 * i))

/-- `set_vch` as the code computes it, in an `int64_t`. -/
def setVch64 (vch : Bytes) : BitVec 64 :=
  match vch.getLast? with
  | none => 0
  | some back =>
      let result := orBytes 0 vch 0
      if back &&& 0x80 = 0 then result
      else -(result &&& ~~~(0x80#64 <<< (8 * (vch.length - 1))))

/-- `CScriptNum::serialize` of an `int64_t`. -/
def serialize64 (value : BitVec 64) : Bytes :=
  if value = 0 then []
  else
    let neg := value.slt 0
    let absvalue := if neg then ~~~value + 1 else value
    let result := absBytes absvalue.toNat
    let back := result.getLastD 0
    if back &&& 0x80 ≠ 0 then result ++ [if neg then 0x80 else 0]
    else if neg then result.dropLast ++ [back ||| 0x80]
    else result

/-- The `m_value` that the constructor stores. -/
def ofBytes64 (vch : Bytes) (fRequireMinimal : Bool) (nMaxNumSize : Nat) : Option (BitVec 64) :=
  if nMaxNumSize < vch.length then none
  else if fRequireMinimal && !isMinimal vch then none
  else some (setVch64 vch)

theorem serialize64_eq (value : BitVec 64) : serialize64 value = serialize value.toInt := by
  have zero : value = 0 ↔ value.toInt = 0 := by
    rw [← BitVec.toInt_inj]
    rfl
  have negative : value.slt 0 = decide (value.toInt < 0) := rfl
  have absolute :
      (if value.toInt < 0 then ~~~value + 1 else value).toNat = value.toInt.natAbs := by
    have bounded := value.isLt
    have inverted : (~~~value + 1).toNat = (2 ^ 64 - value.toNat) % 2 ^ 64 := by
      rw [← BitVec.toNat_neg, BitVec.neg_eq_not_add]
      rfl
    have signed := BitVec.toInt_eq_toNat_cond value
    split_ifs at signed ⊢ <;> omega
  simp only [serialize64, serialize, negative, decide_eq_true_eq, zero, absolute]

theorem orBytes_toNat {i : Nat} {vch : Bytes} {result : BitVec 64} (low : result.toNat < 256 ^ i)
    (short : i + vch.length ≤ 8) :
    (orBytes i vch result).toNat = result.toNat + 256 ^ i * leValue vch := by
  induction vch generalizing i result with
  | nil => rw [orBytes, leValue, Nat.mul_zero, Nat.add_zero]
  | cons byte vch ih =>
      rw [List.length_cons] at short
      have bounded := byte.toNat_lt
      have shifted : (byte.toBitVec.setWidth 64 <<< (8 * i)).toNat = 256 ^ i * byte.toNat := by
        have power : 256 ^ i = 2 ^ (8 * i) := pow_mul 2 8 i ▸ rfl
        have fits : byte.toNat * 256 ^ i < 2 ^ 64 := by
          calc byte.toNat * 256 ^ i < 256 * 256 ^ i :=
                Nat.mul_lt_mul_of_pos_right bounded (by positivity)
            _ = 256 ^ (i + 1) := by ring
            _ ≤ 256 ^ 8 := Nat.pow_le_pow_right (by decide) (by omega)
            _ = 2 ^ 64 := by decide
        rw [BitVec.toNat_shiftLeft, BitVec.toNat_setWidth, Nat.shiftLeft_eq, ← power]
        change (byte.toNat % 2 ^ 64 * 256 ^ i) % 2 ^ 64 = _
        rw [Nat.mod_eq_of_lt (lt_trans bounded (by decide)), Nat.mod_eq_of_lt fits, Nat.mul_comm]
      have both : (result ||| byte.toBitVec.setWidth 64 <<< (8 * i)).toNat =
          result.toNat + 256 ^ i * byte.toNat := by
        have power : 256 ^ i = 2 ^ (8 * i) := pow_mul 2 8 i ▸ rfl
        rw [BitVec.toNat_or, shifted, power, Nat.or_comm,
          ← Nat.two_pow_add_eq_or_of_lt (power ▸ low), Nat.add_comm]
      have below : result.toNat + 256 ^ i * byte.toNat < 256 ^ (i + 1) := by
        calc result.toNat + 256 ^ i * byte.toNat < 256 ^ i + 256 ^ i * byte.toNat := by omega
          _ = 256 ^ i * (byte.toNat + 1) := by ring
          _ ≤ 256 ^ i * 256 := Nat.mul_le_mul_left _ bounded
          _ = 256 ^ (i + 1) := by ring
      rw [orBytes, ih (both.symm ▸ below) (by omega), both, leValue]
      ring

/-- A number loses its top bit. -/
theorem and_not_twoPow_toNat {result : BitVec 64} {k rest : Nat} (below : rest < 2 ^ k)
    (top : result.toNat = 2 ^ k + rest) :
    (result &&& ~~~(BitVec.twoPow 64 k)).toNat = rest := by
  apply Nat.eq_of_testBit_eq
  intro j
  rw [BitVec.testBit_toNat, BitVec.getLsbD_and, BitVec.getLsbD_not, BitVec.getLsbD_twoPow,
    ← BitVec.testBit_toNat, top]
  have inside := result.isLt
  have size : k < 64 := by
    by_contra large
    have := Nat.pow_le_pow_right (by decide : 0 < 2) (not_lt.mp large)
    omega
  rcases lt_trichotomy j k with less | rfl | more
  · rw [Nat.testBit_two_pow_add_gt less]
    have := less.trans size
    simp [this, less.ne']
  · rw [Nat.testBit_two_pow_add_eq, Nat.testBit_lt_two_pow below]
    simp [size]
  · have high : rest < 2 ^ j := below.trans (Nat.pow_lt_pow_right (by decide) more)
    have both : 2 ^ k + rest < 2 ^ j := by
      have := Nat.pow_le_pow_right (by decide : 0 < 2) more
      rw [Nat.succ_eq_add_one, pow_succ] at this
      omega
    rw [Nat.testBit_lt_two_pow both, Nat.testBit_lt_two_pow high, Bool.false_and]

/-- In at most eight bytes no bit is lost. -/
theorem setVch64_toInt {vch : Bytes} (short : vch.length ≤ 8) :
    (setVch64 vch).toInt = setVch vch := by
  rcases List.eq_nil_or_concat vch with rfl | ⟨bytes, back, rfl⟩
  · rfl
  · rw [List.concat_eq_append] at short ⊢
    rw [List.length_append, List.length_singleton] at short
    have assembled : (orBytes 0 (bytes ++ [back]) 0).toNat =
        leValue bytes + 256 ^ bytes.length * back.toNat := by
      rw [orBytes_toNat (by decide) (by simpa using short), leValue_concat]
      simp
    have bounded := back.toNat_lt
    have small : signedMagnitude bytes back < 2 ^ 63 := by
      calc signedMagnitude bytes back < 128 * 256 ^ bytes.length := signedMagnitude_lt bytes back
        _ ≤ 128 * 256 ^ 7 := Nat.mul_le_mul_left _ (Nat.pow_le_pow_right (by decide) (by omega))
        _ = 2 ^ 63 := by decide
    rw [setVch64, setVch_concat, List.getLast?_append_of_ne_nil _ (List.cons_ne_nil back [])]
    simp only [List.getLast?_singleton, and_128_eq_zero, List.length_append, List.length_singleton,
      Nat.add_sub_cancel]
    split_ifs with plain
    · have value : (orBytes 0 (bytes ++ [back]) 0).toNat = signedMagnitude bytes back := by
        rw [assembled, signedMagnitude, Nat.mod_eq_of_lt plain]
      rw [BitVec.toInt_eq_toNat_of_lt (by omega), value]
    · have sign : 0x80#64 <<< (8 * bytes.length) = BitVec.twoPow 64 (8 * bytes.length + 7) := by
        rw [BitVec.twoPow, Nat.add_comm, BitVec.shiftLeft_add]
        rfl
      have power : 2 ^ (8 * bytes.length + 7) = 128 * 256 ^ bytes.length := by
        rw [pow_add, pow_mul, Nat.mul_comm]
        rfl
      have value : (orBytes 0 (bytes ++ [back]) 0).toNat =
          2 ^ (8 * bytes.length + 7) + signedMagnitude bytes back := by
        have magnitude : back.toNat = 128 + back.toNat % 128 := by omega
        rw [assembled, signedMagnitude, power]
        nth_rewrite 1 [magnitude]
        ring
      have cleared := and_not_twoPow_toNat (power ▸ signedMagnitude_lt bytes back) value
      rw [← sign] at cleared
      rw [BitVec.toInt_neg, BitVec.toInt_eq_toNat_of_lt (by omega), cleared,
        Int.bmod_eq_of_le (by omega) (by omega)]

/-- The 64-bit number is the number. -/
theorem ofBytes64_toInt {vch : Bytes} {fRequireMinimal : Bool} {nMaxNumSize : Nat}
    (fits : nMaxNumSize ≤ 8) : (ofBytes64 vch fRequireMinimal nMaxNumSize).map BitVec.toInt =
      ofBytes vch fRequireMinimal nMaxNumSize := by
  rw [ofBytes64, ofBytes]
  split_ifs with long
  · rfl
  · rfl
  · rw [Option.map_some, setVch64_toInt (by omega)]

theorem ofBytes64_eq_some_iff (vch : Bytes) (value : BitVec 64) {k : Nat} (fits : k < 8) :
    ofBytes64 vch true (k + 1) = some value ↔
      vch = serialize64 value ∧ value.toInt.natAbs < 128 * 256 ^ k := by
  rw [serialize64_eq, ← ofBytes_eq_some_iff, ← ofBytes64_toInt fits, Option.map_eq_some_iff]
  constructor
  · intro read
    exact ⟨value, read, rfl⟩
  · rintro ⟨other, read, same⟩
    rw [read, BitVec.toInt_inj.mp same]

/-- The number 128 takes a second byte for its sign. -/
theorem ofBytes64_eq_some_iff_128 :
    ofBytes64 [0x80, 0] true 4 = some 128 ↔ [0x80, 0] = serialize64 128 ∧ 128 < 128 * 256 ^ 3 :=
  ofBytes64_eq_some_iff [0x80, 0] 128 (by decide)

end CScriptNum

end QuantyCoin
