import Mathlib.Data.Nat.Bitwise
import QuantyCoin.ConsensusParameters

/-!
# Compact targets

The compact form of a target has an exponent, the number of its bytes, and a
coefficient, its three leading bytes.  The highest bit of the coefficient is a
sign, so `target_to_bits` moves a coefficient that would set it one byte down,
and `bits_to_target` reads the result back.
-/

namespace QuantyCoin

/-- The target that an exponent and a coefficient stand for. -/
def expandTarget (exponent coefficient : Nat) : Nat :=
  if exponent ≤ 3 then coefficient >>> (8 * (3 - exponent))
  else coefficient <<< (8 * (exponent - 3))

/-- `(target.bit_length() + 7) // 8`. -/
def byteLength (target : Nat) : Nat := (bitLength target + 7) / 8

/-- The three leading bytes, padded with zeros. -/
def leadingBytes (target : Nat) : Nat :=
  if byteLength target ≤ 3 then target <<< (8 * (3 - byteLength target))
  else target >>> (8 * (byteLength target - 3))

/-! ## Reading -/

theorem signBit_ne_zero_iff {coefficient : Nat} (small : coefficient < 2 ^ 24) :
    coefficient &&& 0x00800000 ≠ 0 ↔ 2 ^ 23 ≤ coefficient := by
  have bit : coefficient &&& 0x00800000 = (coefficient.testBit 23).toNat * 2 ^ 23 :=
    Nat.and_two_pow coefficient 23
  rw [bit]
  rcases Nat.lt_or_ge coefficient (2 ^ 23) with clear | set
  · rw [Nat.testBit_lt_two_pow clear]
    simpa using clear
  · rw [Nat.testBit_of_two_pow_le_and_two_pow_add_one_gt set small]
    simpa using set

theorem and_coefficient (bits : Nat) : bits &&& 0x00FFFFFF = bits % 2 ^ 24 :=
  Nat.and_two_pow_sub_one_eq_mod bits 24

/-- A packed exponent and coefficient are read back, unless the sign is set. -/
theorem bitsToTarget_pack {exponent coefficient : Nat} (byte : exponent < 2 ^ 8)
    (unsigned : coefficient < 2 ^ 23) :
    bitsToTarget ((exponent <<< 24 ||| coefficient : Nat) : Int) =
      .ok (expandTarget exponent coefficient) := by
  have small : coefficient < 2 ^ 24 := by omega
  rw [← Nat.shiftLeft_add_eq_or_of_lt small, Nat.shiftLeft_eq]
  generalize packed : exponent * 2 ^ 24 + coefficient = bits
  have inRange : ¬ ((bits : Int) < 0 ∨ (bits : Int) > 0xFFFFFFFF) := by omega
  have exponentEq : bits >>> 24 = exponent := by
    rw [Nat.shiftRight_eq_div_pow]
    omega
  have coefficientEq : bits &&& 0x00FFFFFF = coefficient := by
    rw [and_coefficient]
    omega
  have clear : ¬ coefficient &&& 0x00800000 ≠ 0 := by
    rw [signBit_ne_zero_iff small]
    omega
  rw [bitsToTarget, if_neg inRange]
  simp only [Int.toNat_natCast, exponentEq, coefficientEq, if_neg clear]
  rw [expandTarget]
  split_ifs <;> rfl

/-! ## Writing -/

/-- A positive target lies between the powers of 256 that its length names. -/
theorem byteLength_bounds {target : Nat} (positive : 0 < target) :
    1 ≤ byteLength target ∧ 2 ^ (8 * (byteLength target - 1)) ≤ target ∧
      target < 2 ^ (8 * byteLength target) := by
  have nonzero : target ≠ 0 := by omega
  have length : byteLength target = target.log2 / 8 + 1 := by
    rw [byteLength, bitLength, if_neg nonzero]
    omega
  refine ⟨by omega, ?_, ?_⟩
  · calc
      2 ^ (8 * (byteLength target - 1)) ≤ 2 ^ target.log2 :=
        Nat.pow_le_pow_right (by omega) (by omega)
      _ ≤ target := Nat.log2_self_le nonzero
  · calc
      target < 2 ^ (target.log2 + 1) := Nat.lt_log2_self
      _ ≤ 2 ^ (8 * byteLength target) := Nat.pow_le_pow_right (by omega) (by omega)

theorem leadingBytes_bounds {target : Nat} (positive : 0 < target) :
    2 ^ 16 ≤ leadingBytes target ∧ leadingBytes target < 2 ^ 24 := by
  obtain ⟨nonempty, lower, upper⟩ := byteLength_bounds positive
  rw [leadingBytes]
  generalize byteLength target = nbytes at nonempty lower upper
  split_ifs with short
  · have shiftedLower : 2 ^ (8 * (nbytes - 1)) * 2 ^ (8 * (3 - nbytes)) = 2 ^ 16 := by
      rw [← Nat.pow_add]
      congr 1
      omega
    have shiftedUpper : 2 ^ (8 * nbytes) * 2 ^ (8 * (3 - nbytes)) = 2 ^ 24 := by
      rw [← Nat.pow_add]
      congr 1
      omega
    rw [Nat.shiftLeft_eq, ← shiftedLower, ← shiftedUpper]
    exact ⟨Nat.mul_le_mul_right _ lower, Nat.mul_lt_mul_of_pos_right upper (Nat.two_pow_pos _)⟩
  · have splitLower : 2 ^ (8 * (nbytes - 1)) = 2 ^ 16 * 2 ^ (8 * (nbytes - 3)) := by
      rw [← Nat.pow_add]
      congr 1
      omega
    have splitUpper : 2 ^ (8 * nbytes) = 2 ^ 24 * 2 ^ (8 * (nbytes - 3)) := by
      rw [← Nat.pow_add]
      congr 1
      omega
    rw [splitLower] at lower
    rw [splitUpper] at upper
    rw [Nat.shiftRight_eq_div_pow]
    exact ⟨(Nat.le_div_iff_mul_le (Nat.two_pow_pos _)).mpr lower,
      (Nat.div_lt_iff_lt_mul (Nat.two_pow_pos _)).mpr upper⟩

/-- The compact form of a target. -/
def compactForm (target : Nat) : Nat :=
  if 2 ^ 23 ≤ leadingBytes target then
    (byteLength target + 1) <<< 24 ||| leadingBytes target >>> 8
  else byteLength target <<< 24 ||| leadingBytes target

/-- `target_to_bits` with any `POW_LIMIT_TARGET`. -/
def targetToBitsWithin (limit : Nat) (target : Int) : Nat :=
  if target ≤ 0 then 0
  else
    let target := if target > limit then limit else target.toNat
    let nbytes := (bitLength target + 7) / 8
    let compact :=
      if nbytes ≤ 3 then (target <<< (8 * (3 - nbytes))) &&& 0x00FFFFFF
      else (target >>> (8 * (nbytes - 3))) &&& 0x00FFFFFF
    if compact &&& 0x00800000 ≠ 0 then
      ((nbytes + 1) <<< 24) ||| (compact >>> 8)
    else (nbytes <<< 24) ||| compact

theorem targetToBits_eq_within (target : Int) :
    targetToBits target = targetToBitsWithin powLimitTarget target :=
  rfl

theorem targetToBitsWithin_eq {limit target : Nat} (positive : 0 < target)
    (within : target ≤ limit) : targetToBitsWithin limit target = compactForm target := by
  have bounds := (leadingBytes_bounds positive).2
  have compact : (if byteLength target ≤ 3 then
        (target <<< (8 * (3 - byteLength target))) &&& 0x00FFFFFF
      else (target >>> (8 * (byteLength target - 3))) &&& 0x00FFFFFF) =
        leadingBytes target := by
    have same : leadingBytes target &&& 0x00FFFFFF = leadingBytes target := by
      rw [and_coefficient]
      exact Nat.mod_eq_of_lt bounds
    rw [← apply_ite (· &&& 0x00FFFFFF)]
    exact same
  have notNegative : ¬ (target : Int) ≤ 0 := by omega
  have notAbove : ¬ (target : Int) > limit := by omega
  have nbytes : (bitLength target + 7) / 8 = byteLength target := rfl
  rw [targetToBitsWithin, if_neg notNegative, compactForm]
  simp only [if_neg notAbove, Int.toNat_natCast, nbytes, compact, signBit_ne_zero_iff bounds]

/-- Targets above the limit are written as the limit. -/
theorem targetToBits_min (target : Int) :
    targetToBits target = targetToBits (min target powLimitTarget) := by
  rcases le_or_gt target powLimitTarget with within | above
  · rw [min_eq_left within]
  · have positive : ¬ target ≤ 0 := by omega
    have limitPositive : ¬ (powLimitTarget : Int) ≤ 0 := by decide
    rw [min_eq_right above.le, targetToBits, targetToBits, if_neg positive,
      if_neg limitPositive]
    simp only [if_pos above, gt_iff_lt, lt_self_iff_false, if_false, Int.toNat_natCast]

theorem byteLength_le_of_within {target : Nat} (positive : 0 < target)
    (within : target ≤ powLimitTarget) : byteLength target ≤ 30 := by
  by_contra long
  have lower := (byteLength_bounds positive).2.1
  have limit : powLimitTarget < 2 ^ (8 * 30) := by decide
  have grows : 2 ^ (8 * 30) ≤ 2 ^ (8 * (byteLength target - 1)) :=
    Nat.pow_le_pow_right (by omega) (by omega)
  omega

/-! ## Truncation -/

/-- The exponent of the compact form, which leaves room for the sign. -/
def compactExponent (target : Nat) : Nat := bitLength target / 8 + 1

/-- The coefficient of the compact form. -/
def compactCoefficient (target : Nat) : Nat :=
  if compactExponent target ≤ 3 then target <<< (8 * (3 - compactExponent target))
  else target >>> (8 * (compactExponent target - 3))

/-- The weight of the last bit of the coefficient. -/
def grain (target : Nat) : Nat := 2 ^ (8 * (compactExponent target - 3))

/-- The part of a target that its compact form keeps. -/
def truncateTarget (target : Nat) : Nat := target / grain target * grain target

theorem bitLength_bounds {target : Nat} (positive : 0 < target) :
    2 ^ (bitLength target - 1) ≤ target ∧ target < 2 ^ bitLength target ∧
      1 ≤ bitLength target := by
  have nonzero : target ≠ 0 := by omega
  rw [bitLength, if_neg nonzero, Nat.add_sub_cancel]
  exact ⟨Nat.log2_self_le nonzero, Nat.lt_log2_self, by omega⟩

theorem bitLength_le_iff {target bits : Nat} : bitLength target ≤ bits ↔ target < 2 ^ bits := by
  rw [bitLength]
  split_ifs with zero
  · simp [zero]
  · rw [Nat.succ_le_iff, Nat.log2_lt zero]

theorem bitLength_mono {target target' : Nat} (le : target ≤ target') :
    bitLength target ≤ bitLength target' :=
  bitLength_le_iff.mpr (Nat.lt_of_le_of_lt le (bitLength_le_iff.mp le_rfl))

/-- The sign is set exactly when the bits fill the bytes. -/
theorem signed_iff {target : Nat} (positive : 0 < target) :
    2 ^ 23 ≤ leadingBytes target ↔ bitLength target = 8 * byteLength target := by
  obtain ⟨nonempty, -, -⟩ := byteLength_bounds positive
  have full : bitLength target = 8 * byteLength target ↔
      2 ^ (8 * byteLength target - 1) ≤ target := by
    have atMost : bitLength target ≤ 8 * byteLength target := by
      rw [byteLength]
      omega
    rw [← not_lt, ← bitLength_le_iff]
    omega
  rw [full, leadingBytes]
  generalize byteLength target = nbytes at nonempty
  split_ifs with short
  · have split : 2 ^ 23 = 2 ^ (8 * nbytes - 1) * 2 ^ (8 * (3 - nbytes)) := by
      rw [← Nat.pow_add]
      congr 1
      omega
    rw [Nat.shiftLeft_eq, split]
    exact Nat.mul_le_mul_right_iff (Nat.two_pow_pos _)
  · have split : 2 ^ (8 * nbytes - 1) = 2 ^ 23 * 2 ^ (8 * (nbytes - 3)) := by
      rw [← Nat.pow_add]
      congr 1
      omega
    rw [Nat.shiftRight_eq_div_pow, Nat.le_div_iff_mul_le (Nat.two_pow_pos _), split]

theorem compactForm_eq {target : Nat} (positive : 0 < target) :
    compactForm target = compactExponent target <<< 24 ||| compactCoefficient target := by
  have nonempty := (bitLength_bounds positive).2.2
  have bytes : byteLength target = (bitLength target + 7) / 8 := rfl
  rw [compactForm]
  simp only [signed_iff positive]
  split_ifs with signed
  · have exponent : compactExponent target = byteLength target + 1 := by
      rw [compactExponent]
      omega
    rw [compactCoefficient, exponent, leadingBytes]
    congr 1
    split_ifs with short short' short'
    · have shift : 8 * (3 - byteLength target) = 8 * (3 - (byteLength target + 1)) + 8 := by omega
      rw [shift, Nat.shiftLeft_add, Nat.shiftLeft_shiftRight]
    · have three : byteLength target = 3 := by omega
      rw [three]
      rfl
    · omega
    · rw [← Nat.shiftRight_add]
      congr 1
      omega
  · have exponent : compactExponent target = byteLength target := by
      rw [compactExponent]
      omega
    rw [compactCoefficient, exponent, leadingBytes]

theorem compactCoefficient_lt (target : Nat) : compactCoefficient target < 2 ^ 23 := by
  have upper : target < 2 ^ (8 * compactExponent target - 1) := by
    rw [← bitLength_le_iff, compactExponent]
    omega
  have nonempty : 1 ≤ compactExponent target := by
    rw [compactExponent]
    omega
  rw [compactCoefficient]
  generalize compactExponent target = exponent at upper nonempty
  split_ifs with short
  · have split : 2 ^ 23 = 2 ^ (8 * exponent - 1) * 2 ^ (8 * (3 - exponent)) := by
      rw [← Nat.pow_add]
      congr 1
      omega
    rw [Nat.shiftLeft_eq, split]
    exact Nat.mul_lt_mul_of_pos_right upper (Nat.two_pow_pos _)
  · have split : 2 ^ (8 * exponent - 1) = 2 ^ 23 * 2 ^ (8 * (exponent - 3)) := by
      rw [← Nat.pow_add]
      congr 1
      omega
    rw [Nat.shiftRight_eq_div_pow]
    exact (Nat.div_lt_iff_lt_mul (Nat.two_pow_pos _)).mpr (split ▸ upper)

theorem expandTarget_compact (target : Nat) :
    expandTarget (compactExponent target) (compactCoefficient target) =
      truncateTarget target := by
  rw [expandTarget, compactCoefficient, truncateTarget, grain]
  split_ifs with short
  · rw [Nat.shiftLeft_shiftRight, Nat.sub_eq_zero_of_le short]
    simp
  · rw [Nat.shiftRight_eq_div_pow, Nat.shiftLeft_eq]

theorem grain_pos (target : Nat) : 0 < grain target := Nat.two_pow_pos _

/-- A target of more than three bytes has at least 16 bits in its coefficient. -/
theorem grain_mul_le {target : Nat} (positive : 0 < target) :
    grain target = 1 ∨ 2 ^ 15 * grain target ≤ target := by
  rcases Nat.lt_or_ge 3 (compactExponent target) with long | short
  · right
    have lower := (bitLength_bounds positive).1
    have fits : 15 + 8 * (compactExponent target - 3) ≤ bitLength target - 1 := by
      rw [compactExponent] at long ⊢
      omega
    calc
      2 ^ 15 * grain target = 2 ^ (15 + 8 * (compactExponent target - 3)) := by
        rw [grain, ← Nat.pow_add]
      _ ≤ 2 ^ (bitLength target - 1) := Nat.pow_le_pow_right (by decide) fits
      _ ≤ target := lower
  · left
    rw [grain, Nat.sub_eq_zero_of_le short]
    rfl

theorem truncateTarget_le (target : Nat) : truncateTarget target ≤ target :=
  Nat.div_mul_le_self _ _

theorem lt_truncateTarget_add (target : Nat) : target < truncateTarget target + grain target :=
  Nat.lt_div_mul_add (grain_pos target)

theorem truncateTarget_of_grain {target : Nat} (fine : grain target = 1) :
    truncateTarget target = target := by
  rw [truncateTarget, fine, Nat.div_one, Nat.mul_one]

theorem le_truncateTarget {target : Nat} (large : 2 ^ 15 * grain target ≤ target) :
    2 ^ 15 * grain target ≤ truncateTarget target :=
  Nat.mul_le_mul_right _ ((Nat.le_div_iff_mul_le (grain_pos target)).mpr large)

theorem truncateTarget_pos {target : Nat} (positive : 0 < target) :
    0 < truncateTarget target := by
  rcases grain_mul_le positive with fine | large
  · rwa [truncateTarget_of_grain fine]
  · have bound := le_truncateTarget large
    have weight := grain_pos target
    omega

/-- Truncation loses less than a part in `2 ^ 15`. -/
theorem truncateTarget_close {target : Nat} (positive : 0 < target) :
    (target - truncateTarget target) * 2 ^ 15 < target := by
  rcases grain_mul_le positive with fine | large
  · rw [truncateTarget_of_grain fine]
    omega
  · have near := lt_truncateTarget_add target
    omega

theorem compactExponent_truncate {target : Nat} (positive : 0 < target) :
    compactExponent (truncateTarget target) = compactExponent target := by
  rcases grain_mul_le positive with fine | large
  · rw [truncateTarget_of_grain fine]
  · by_cases fine : grain target = 1
    · rw [truncateTarget_of_grain fine]
    have long : 3 < compactExponent target := by
      by_contra short
      exact fine (by rw [grain, Nat.sub_eq_zero_of_le (Nat.le_of_not_lt short)]; rfl)
    have below := bitLength_mono (truncateTarget_le target)
    have above : 15 + 8 * (compactExponent target - 3) < bitLength (truncateTarget target) := by
      rw [← not_le, bitLength_le_iff, not_lt, Nat.pow_add]
      exact le_truncateTarget large
    rw [compactExponent] at *
    rw [compactExponent]
    omega

theorem truncateTarget_idempotent {target : Nat} (positive : 0 < target) :
    compactForm (truncateTarget target) = compactForm target := by
  have exponent := compactExponent_truncate positive
  rw [compactForm_eq (truncateTarget_pos positive), compactForm_eq positive, compactCoefficient,
    compactCoefficient, exponent]
  congr 1
  split_ifs with short
  · rw [truncateTarget_of_grain]
    rw [grain, Nat.sub_eq_zero_of_le short]
    rfl
  · rw [Nat.shiftRight_eq_div_pow, Nat.shiftRight_eq_div_pow]
    exact Nat.mul_div_cancel _ (Nat.two_pow_pos _)

theorem truncateTarget_mono {target target' : Nat} (positive : 0 < target)
    (le : target ≤ target') : truncateTarget target ≤ truncateTarget target' := by
  have positive' : 0 < target' := by omega
  have exponents : compactExponent target ≤ compactExponent target' := by
    have bits := bitLength_mono le
    rw [compactExponent, compactExponent]
    omega
  rcases grain_mul_le positive' with fine | large
  · rw [truncateTarget_of_grain fine]
    exact (truncateTarget_le target).trans le
  rcases Nat.eq_or_lt_of_le exponents with same | smaller
  · rw [truncateTarget, truncateTarget, grain, grain, same]
    exact Nat.mul_le_mul_right _ (Nat.div_le_div_right le)
  · -- all targets of the smaller exponent are below the coarser grid
    calc
      truncateTarget target ≤ target := truncateTarget_le target
      _ ≤ 2 ^ 15 * grain target' := by
        rw [grain, ← Nat.pow_add]
        refine (bitLength_le_iff.mp ?_).le
        rw [compactExponent] at smaller ⊢
        rw [compactExponent] at smaller
        omega
      _ ≤ truncateTarget target' := le_truncateTarget large

/-- A positive target is clamped to the limit and truncated. -/
theorem bitsToTarget_targetToBits {target : Int} (positive : 0 < target) :
    ∃ clamped : Nat, 0 < clamped ∧ min target powLimitTarget = clamped ∧
      targetToBits target = compactForm clamped ∧
      bitsToTarget (targetToBits target) = .ok (truncateTarget clamped) := by
  have minPositive : 0 < min target powLimitTarget := lt_min positive (by decide)
  obtain ⟨clamped, clampedEq⟩ := Int.eq_ofNat_of_zero_le minPositive.le
  have within : clamped ≤ powLimitTarget := by
    have bounded := min_le_right target (powLimitTarget : Int)
    omega
  have clampedPositive : 0 < clamped := by omega
  have written : targetToBits target = compactForm clamped := by
    rw [targetToBits_min, clampedEq, targetToBits_eq_within]
    exact targetToBitsWithin_eq clampedPositive within
  have short : compactExponent clamped < 2 ^ 8 := by
    have bytes := byteLength_le_of_within clampedPositive within
    rw [byteLength] at bytes
    rw [compactExponent]
    omega
  refine ⟨clamped, clampedPositive, clampedEq, written, ?_⟩
  rw [written, compactForm_eq clampedPositive,
    bitsToTarget_pack short (compactCoefficient_lt clamped), expandTarget_compact]

/-- The written form of a positive target is read back as a positive target. -/
theorem bitsToTarget_targetToBits_pos {target : Int} (positive : 0 < target) :
    ∃ decoded, bitsToTarget (targetToBits target) = .ok decoded ∧ 0 < decoded := by
  obtain ⟨clamped, clampedPositive, -, -, read⟩ := bitsToTarget_targetToBits positive
  exact ⟨truncateTarget clamped, read, truncateTarget_pos clampedPositive⟩

/-- Higher targets have compact forms of higher targets. -/
theorem bitsToTarget_targetToBits_mono {target target' : Int} (positive : 0 < target)
    (le : target ≤ target') : ∃ decoded decoded' : Nat,
      bitsToTarget (targetToBits target) = .ok decoded ∧
        bitsToTarget (targetToBits target') = .ok decoded' ∧ decoded ≤ decoded' := by
  obtain ⟨clamped, clampedPositive, clampedEq, -, read⟩ := bitsToTarget_targetToBits positive
  obtain ⟨clamped', -, clampedEq', -, read'⟩ :=
    bitsToTarget_targetToBits (Int.lt_of_lt_of_le positive le)
  refine ⟨_, _, read, read', truncateTarget_mono clampedPositive ?_⟩
  have ordered := min_le_min_right (powLimitTarget : Int) le
  omega

/-- The compact form of a positive target is read back as a close lower bound with the
same compact form, and reading back keeps the order of targets. -/
theorem compactTargets_sound :
    (∀ target : Int, 0 < target → ∃ decoded : Nat,
      bitsToTarget (targetToBits target) = .ok decoded ∧ 0 < decoded ∧
      (decoded : Int) ≤ min target powLimitTarget ∧
      (min target powLimitTarget - decoded) * 2 ^ 15 < min target powLimitTarget ∧
      targetToBits decoded = targetToBits target) ∧
    ∀ target target' : Int, 0 < target → target ≤ target' → ∃ decoded decoded' : Nat,
      bitsToTarget (targetToBits target) = .ok decoded ∧
        bitsToTarget (targetToBits target') = .ok decoded' ∧ decoded ≤ decoded' := by
  constructor
  · intro target positive
    obtain ⟨clamped, clampedPositive, clampedEq, written, read⟩ :=
      bitsToTarget_targetToBits positive
    have below := truncateTarget_le clamped
    have close := truncateTarget_close clampedPositive
    have within : truncateTarget clamped ≤ powLimitTarget := by omega
    refine ⟨truncateTarget clamped, read, truncateTarget_pos clampedPositive, ?_, ?_, ?_⟩
    · omega
    · rw [clampedEq]
      omega
    · rw [targetToBits_eq_within, targetToBitsWithin_eq (truncateTarget_pos clampedPositive) within,
        truncateTarget_idempotent clampedPositive, written]
  · intro target target' positive le
    exact bitsToTarget_targetToBits_mono positive le

/-- A target whose leading byte would set the sign loses its last byte. -/
theorem compactTargets_sound_signed :
    (∃ decoded : Nat, bitsToTarget (targetToBits 0x800001) = .ok decoded ∧
      targetToBits decoded = targetToBits 0x800001) ∧
    bitsToTarget (targetToBits 0x800001) = .ok 0x800000 ∧
    ∃ decoded decoded' : Nat, bitsToTarget (targetToBits 0x800001) = .ok decoded ∧
      bitsToTarget (targetToBits 0x800002) = .ok decoded' ∧ decoded ≤ decoded' := by
  obtain ⟨sound, ordered⟩ := compactTargets_sound
  obtain ⟨decoded, read, -, -, -, fixed⟩ := sound 0x800001 (by decide)
  exact ⟨⟨decoded, read, fixed⟩, by decide, ordered 0x800001 0x800002 (by decide) (by decide)⟩

end QuantyCoin
