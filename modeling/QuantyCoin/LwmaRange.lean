import QuantyCoin.LwmaRetarget

/-!
# The range of the bits of the difficulty rule

`CheckProofOfWork` of `src/pow.cpp` accepts bits whose target is positive,
without a sign or an overflow and at most the limit.  The bits that
`LwmaGetNextWorkRequired` returns have no sign and no overflow and are within the
limit, but the next target itself can be zero: it is the average target times the
weighted solve times, divided by the expected time and rounded down.
-/

namespace QuantyCoin

open MachineArithmetic

/-! ## `CheckProofOfWork` -/

/-- `nWord` of `SetCompact` where the flags are set. -/
def compactWord (nCompact : Nat) : Nat :=
  let nSize := nCompact >>> 24
  let nWord := nCompact &&& 0x007fffff
  if nSize ≤ 3 then nWord >>> (8 * (3 - nSize)) else nWord

/-- `*pfNegative` behind `SetCompact`. -/
def isNegative (nCompact : Nat) : Bool :=
  compactWord nCompact ≠ 0 && nCompact &&& 0x00800000 ≠ 0

/-- `*pfOverflow` behind `SetCompact`. -/
def isOverflow (nCompact : Nat) : Bool :=
  let nSize := nCompact >>> 24
  let nWord := compactWord nCompact
  nWord ≠ 0 && (nSize > 34 || (nWord > 0xff && nSize > 33) || (nWord > 0xffff && nSize > 32))

/-- The target behind `SetCompact`, without the bits shifted out. -/
def compactTarget (nCompact : Nat) : Nat :=
  let nSize := nCompact >>> 24
  if nSize ≤ 3 then compactWord nCompact
  else compactWord nCompact <<< (8 * (nSize - 3)) % 2 ^ 256

/-- The range check of `CheckProofOfWork`. -/
def passesRange (powLimit nBits : Nat) : Bool :=
  !(isNegative nBits || compactTarget nBits = 0 || isOverflow nBits ||
    compactTarget nBits > powLimit)

/-- `CheckProofOfWork`. -/
def checkProofOfWork (powLimit hash nBits : Nat) : Bool :=
  passesRange powLimit nBits && !(hash > compactTarget nBits)

theorem passesRange_eq_true_iff {powLimit nBits : Nat} :
    passesRange powLimit nBits = true ↔ isNegative nBits = false ∧ compactTarget nBits ≠ 0 ∧
      isOverflow nBits = false ∧ compactTarget nBits ≤ powLimit := by
  simp [passesRange, and_assoc]

/-- Without an overflow nothing is shifted out. -/
theorem isOverflow_eq_false_iff (nCompact : Nat) (long : 3 < nCompact >>> 24) :
    isOverflow nCompact = false ↔
      compactWord nCompact <<< (8 * (nCompact >>> 24 - 3)) < 2 ^ 256 := by
  have word : compactWord nCompact < 2 ^ 23 := by
    have masked : nCompact &&& 0x007fffff = nCompact % 2 ^ 23 :=
      Nat.and_two_pow_sub_one_eq_mod nCompact 23
    simp only [compactWord, masked, if_neg (Nat.not_le.mpr long)]
    exact Nat.mod_lt _ (by decide)
  simp only [isOverflow, Nat.shiftLeft_eq]
  generalize compactWord nCompact = nWord at word
  generalize nCompact >>> 24 = nSize at long
  obtain small | rfl | rfl | large : nSize ≤ 32 ∨ nSize = 33 ∨ nSize = 34 ∨ 35 ≤ nSize := by omega
  · have fits : nWord * 2 ^ (8 * (nSize - 3)) < 2 ^ 256 := by
      calc
        nWord * 2 ^ (8 * (nSize - 3)) < 2 ^ 23 * 2 ^ (8 * (nSize - 3)) :=
          Nat.mul_lt_mul_of_pos_right word (Nat.two_pow_pos _)
        _ ≤ 2 ^ 23 * 2 ^ 232 := Nat.mul_le_mul_left _ (Nat.pow_le_pow_right (by decide) (by omega))
        _ ≤ 2 ^ 256 := by decide
    have none : ¬ nSize > 34 ∧ ¬ nSize > 33 ∧ ¬ nSize > 32 := by omega
    simpa [none] using fits
  · simp
    omega
  · simp
    omega
  · have shifted : 2 ^ 256 ≤ 2 ^ (8 * (nSize - 3)) := Nat.pow_le_pow_right (by decide) (by omega)
    rcases Nat.eq_zero_or_pos nWord with rfl | positive
    · simp
    · have above : 2 ^ 256 ≤ nWord * 2 ^ (8 * (nSize - 3)) :=
        le_trans shifted (Nat.le_mul_of_pos_left _ positive)
      have beyond : nSize > 34 := by omega
      have nonzero : nWord ≠ 0 := by omega
      simpa [beyond, nonzero] using above

theorem and_signBit (bits : Nat) : bits % 2 ^ 24 &&& 0x00800000 = bits &&& 0x00800000 := by
  have one : (bits % 2 ^ 24).testBit 23 = bits.testBit 23 := by
    rw [Nat.testBit_mod_two_pow]
    rfl
  have low := Nat.and_two_pow (bits % 2 ^ 24) 23
  have whole := Nat.and_two_pow bits 23
  rw [one, ← whole] at low
  exact low

/-- Bits pass the range check if they stand for a target within the limit. -/
theorem passesRange_iff {powLimit nBits : Nat} (limit : powLimit < 2 ^ 256)
    (typed : nBits < 2 ^ 32) :
    passesRange powLimit nBits = true ↔
      ∃ target, bitsToTarget nBits = .ok target ∧ 0 < target ∧ target ≤ powLimit := by
  have masked : nBits &&& 0x007fffff = nBits % 2 ^ 23 :=
    Nat.and_two_pow_sub_one_eq_mod nBits 23
  have inRange : ¬ ((nBits : Int) < 0 ∨ (nBits : Int) > 0xFFFFFFFF) := by omega
  rw [passesRange_eq_true_iff, bitsToTarget, if_neg inRange]
  simp only [Int.toNat_natCast, and_coefficient, and_signBit]
  by_cases signed : nBits &&& 0x00800000 ≠ 0
  · rw [if_pos signed]
    constructor
    · rintro ⟨positive, nonzero, -, -⟩
      have word : compactWord nBits = 0 := by
        by_contra present
        simp [isNegative, present, signed] at positive
      refine absurd ?_ nonzero
      rw [compactTarget, word]
      simp
    · rintro ⟨target, decoded, -, -⟩
      cases decoded
  · rw [if_neg signed]
    have clear : isNegative nBits = false := by simp [isNegative, not_not.mp signed]
    have same : nBits % 2 ^ 24 = nBits % 2 ^ 23 := by
      rw [← and_signBit, signBit_ne_zero_iff (Nat.mod_lt _ (by decide))] at signed
      omega
    rw [same]
    split_ifs with short
    · have target : compactTarget nBits = (nBits % 2 ^ 23) >>> (8 * (3 - nBits >>> 24)) := by
        simp only [compactTarget, compactWord, if_pos short, masked]
      have fits : isOverflow nBits = false := by
        have none : ¬ nBits >>> 24 > 34 ∧ ¬ nBits >>> 24 > 33 ∧ ¬ nBits >>> 24 > 32 := by omega
        simp [isOverflow, none]
      simp [clear, fits, target, Nat.pos_iff_ne_zero]
    · have word : compactWord nBits = nBits % 2 ^ 23 := by
        simp only [compactWord, if_neg short, masked]
      have overflow := isOverflow_eq_false_iff nBits (Nat.lt_of_not_le short)
      rw [word] at overflow
      simp only [clear, overflow, compactTarget, if_neg short, word, true_and]
      constructor
      · rintro ⟨nonzero, fits, within⟩
        rw [Nat.mod_eq_of_lt fits] at nonzero within
        exact ⟨_, rfl, Nat.pos_of_ne_zero nonzero, within⟩
      · rintro ⟨target, decoded, positive, within⟩
        cases decoded
        have fits := lt_of_le_of_lt within limit
        rw [Nat.mod_eq_of_lt fits]
        exact ⟨Nat.pos_iff_ne_zero.mp positive, fits, within⟩

/-- A positive target below the limit keeps the range in its compact form. -/
theorem passesRange_compactForm {powLimit target : Nat} (limit : powLimit < 2 ^ 256)
    (within : target ≤ powLimit) :
    passesRange powLimit (compactForm target) = true ↔ 0 < target := by
  rcases Nat.eq_zero_or_pos target with rfl | positive
  · have none : compactForm 0 = 0 := by decide
    simp [none, passesRange, compactTarget, compactWord]
  · have exponent : compactExponent target < 2 ^ 8 := by
      have bits : bitLength target ≤ 256 := bitLength_le_iff.mpr (lt_of_le_of_lt within limit)
      rw [compactExponent]
      omega
    have coefficient := compactCoefficient_lt target
    have typed : compactForm target < 2 ^ 32 := by
      rw [compactForm_eq positive, ← Nat.shiftLeft_add_eq_or_of_lt (by omega), Nat.shiftLeft_eq]
      omega
    rw [passesRange_iff limit typed]
    simp only [positive, iff_true]
    refine ⟨truncateTarget target, ?_, truncateTarget_pos positive,
      le_trans (truncateTarget_le target) within⟩
    rw [compactForm_eq positive, bitsToTarget_pack exponent coefficient, expandTarget_compact]

/-! ## The window -/

/-- The solve time of a block, within six times any spacing. -/
def boundedSolvetime (T : Int) (previous block : BlockHeader) : Int :=
  max (min ((block.timestamp.toNat : Int) - previous.timestamp.toNat) (6 * T)) (-6 * T)

/-- The weighted solve times of the blocks behind another. -/
def weightedTimes (T : Int) : Nat → BlockHeader → List BlockHeader → Int
  | _, _, [] => 0
  | i, previous, block :: blocks =>
      boundedSolvetime T previous block * i + weightedTimes T (i + 1) block blocks

/-- Adding one weighted solve time does not overflow. -/
structure StepFits (T : Int) (i : Nat) (times : Int) (previous block : BlockHeader) : Prop where
  upper : IntType.int64.Holds (6 * T)
  lower : IntType.int64.Holds (-6 * T)
  weighted : IntType.int64.Holds (boundedSolvetime T previous block * i)
  sum : IntType.int64.Holds (times + boundedSolvetime T previous block * i)

/-- No sum of weighted solve times overflows. -/
def TimesFit (T : Int) : Nat → Int → BlockHeader → List BlockHeader → Prop
  | _, _, _, [] => True
  | i, times, previous, block :: blocks =>
      StepFits T i times previous block ∧
        TimesFit T (i + 1) (times + boundedSolvetime T previous block * i) block blocks

/-- A machine reduces what it stores in an unsigned type, and stops at what a signed
type cannot hold. -/
structure ChecksSigned (machine : Machine) : Prop where
  exact : machine.Exact
  signed : ∀ width value, machine (.signed width) value =
    if (IntType.signed width).Holds value then some value else none
  unsigned : ∀ width value, machine (.unsigned width) value = some (value % 2 ^ width)

theorem checksSigned_unsignedWrapping : ChecksSigned unsignedWrapping :=
  ⟨unsignedWrapping_exact, unsignedWrapping_signed, unsignedWrapping_unsigned⟩

theorem ChecksSigned.int64 {machine : Machine} (checks : ChecksSigned machine) (value : Int) :
    machine .int64 value = if IntType.int64.Holds value then some value else none :=
  checks.signed 63 value

theorem ChecksSigned.int32 {machine : Machine} (checks : ChecksSigned machine) (value : Int) :
    machine .int32 value = if IntType.int32.Holds value then some value else none :=
  checks.signed 31 value

section Sums

variable {machine : Machine} {limit window i quotients remainders : Nat} {T times : Int}
  {previous block : BlockHeader} {blocks : List BlockHeader} {after : LwmaSums}

theorem lwmaSolvetime_eq_some_iff (checks : ChecksSigned machine) {solvetime : Int} :
    lwmaSolvetime machine T previous block = some solvetime ↔
      (IntType.int64.Holds (6 * T) ∧ IntType.int64.Holds (-6 * T)) ∧
        boundedSolvetime T previous block = solvetime := by
  have lastTime := block.timestamp.toNat_lt
  have firstTime := previous.timestamp.toNat_lt
  have time : IntType.int64.Holds ((block.timestamp.toNat : Int) - previous.timestamp.toNat) :=
    IntType.holds_signed.mpr (by omega)
  simp only [lwmaSolvetime, checks.int64, Option.bind_eq_bind, Option.bind_eq_some_iff,
    Option.ite_none_right_eq_some, Option.some.injEq]
  constructor
  · rintro ⟨diff, ⟨-, rfl⟩, upper, ⟨upperFits, rfl⟩, lower, ⟨lowerFits, rfl⟩, rfl⟩
    exact ⟨⟨upperFits, lowerFits⟩, rfl⟩
  · rintro ⟨⟨upperFits, lowerFits⟩, rfl⟩
    exact ⟨_, ⟨time, rfl⟩, _, ⟨upperFits, rfl⟩, _, ⟨lowerFits, rfl⟩, rfl⟩

theorem lwmaStep_eq_some_iff (checks : ChecksSigned machine)
    (small : limit < 2 ^ 256) (nonempty : 0 < window)
    (short : window < 2 ^ 32) (within : WithinLimit limit block)
    (quotientsFit : quotients + limit / window < 2 ^ 256)
    (remaindersFit : remainders + window < 2 ^ 256) :
    lwmaStep machine T window i previous block ⟨quotients, remainders, times⟩ = some after ↔
      StepFits T i times previous block ∧
        after = ⟨(quotients + targetOf block / window : Nat),
          (remainders + targetOf block % window : Nat),
          times + boundedSolvetime T previous block * i⟩ := by
  have quotientLe : targetOf block / window ≤ limit / window :=
    Nat.div_le_div_right within.targetOf_le
  have remainderLt := Nat.mod_lt (targetOf block) nonempty
  have quotientSum : machine .uint256 ((quotients : Int) + (targetOf block / window : Nat)) =
      some ((quotients + targetOf block / window : Nat) : Int) := by
    rw [← Int.natCast_add]
    exact checks.exact (IntType.holds_unsigned_natCast.mpr (by omega))
  have remainderSum : machine .uint256 ((remainders : Int) + (targetOf block % window : Nat)) =
      some ((remainders + targetOf block % window : Nat) : Int) := by
    rw [← Int.natCast_add]
    exact checks.exact (IntType.holds_unsigned_natCast.mpr (by omega))
  have target := lwmaTarget_eq checks.exact small nonempty short within
  simp only [lwmaStep, target, Option.bind_eq_bind, Option.bind_some, quotientSum, remainderSum,
    checks.int64, Option.bind_eq_some_iff, Option.ite_none_right_eq_some, Option.some.injEq,
    lwmaSolvetime_eq_some_iff checks]
  constructor
  · rintro ⟨solvetime, ⟨bounds, rfl⟩, product, ⟨weighted, rfl⟩, total, ⟨sum, rfl⟩, rfl⟩
    exact ⟨⟨bounds.1, bounds.2, weighted, sum⟩, rfl⟩
  · rintro ⟨fits, rfl⟩
    exact ⟨_, ⟨⟨fits.upper, fits.lower⟩, rfl⟩, _, ⟨fits.weighted, rfl⟩, _, ⟨fits.sum, rfl⟩, rfl⟩

/-- The loop runs through exactly if no signed sum overflows, and the unsigned sums
are exact. -/
theorem lwmaSums_eq_some_iff (checks : ChecksSigned machine)
    (small : limit < 2 ^ 256) (nonempty : 0 < window)
    (short : window < 2 ^ 32) (within : ∀ block ∈ blocks, WithinLimit limit block)
    (quotientsFit : quotients + blocks.length * (limit / window) < 2 ^ 256)
    (remaindersFit : remainders + blocks.length * window < 2 ^ 256) :
    lwmaSums machine T window i previous blocks ⟨quotients, remainders, times⟩ = some after ↔
      TimesFit T i times previous blocks ∧
        after = ⟨(quotients + (blocks.map fun block => targetOf block / window).sum : Nat),
          (remainders + (blocks.map fun block => targetOf block % window).sum : Nat),
          times + weightedTimes T i previous blocks⟩ := by
  induction blocks generalizing i previous quotients remainders times with
  | nil => simp [lwmaSums, TimesFit, weightedTimes, eq_comm]
  | cons block blocks ih =>
      rw [List.length_cons, Nat.add_mul, Nat.one_mul] at quotientsFit remaindersFit
      have blockWithin := within block (by simp)
      have later := fun other member => within other (List.mem_cons_of_mem block member)
      have quotientLe : targetOf block / window ≤ limit / window :=
        Nat.div_le_div_right blockWithin.targetOf_le
      have remainderLt := Nat.mod_lt (targetOf block) nonempty
      have step {after : LwmaSums} := @lwmaStep_eq_some_iff machine limit window i quotients
        remainders T times previous block after checks small nonempty short blockWithin
        (by omega) (by omega)
      rw [lwmaSums, Option.bind_eq_bind, Option.bind_eq_some_iff, TimesFit]
      simp only [step]
      constructor
      · rintro ⟨sums, ⟨fits, rfl⟩, summed⟩
        obtain ⟨laterFit, rfl⟩ := (ih later (by omega) (by omega)).mp summed
        refine ⟨⟨fits, laterFit⟩, ?_⟩
        simp only [List.map_cons, List.sum_cons, weightedTimes, add_assoc]
      · rintro ⟨⟨fits, laterFit⟩, rfl⟩
        refine ⟨_, ⟨fits, rfl⟩, (ih later (by omega) (by omega)).mpr ⟨laterFit, ?_⟩⟩
        simp only [List.map_cons, List.sum_cons, weightedTimes, add_assoc]

end Sums

/-! ## The next target -/

/-- The sum of the two products, before it is stored. -/
def scaledSum (average expected weighted : Nat) : Nat :=
  average / expected * weighted +
    (average - average / expected * (expected % 2 ^ 32)) * weighted % 2 ^ 256 / expected

/-- The next target. -/
def scaledTarget (limit average expected weighted : Nat) : Nat :=
  if limit / weighted < average / expected then limit
  else min limit (scaledSum average expected weighted % 2 ^ 256)

/-- The next target does not vanish. -/
structure ReachesOne (limit average expected weighted : Nat) : Prop where
  expected_pos : 0 < expected
  expected_le : expected ≤ average * weighted
  not_wrapped : average / expected ≤ limit / weighted →
    scaledSum average expected weighted ≠ 2 ^ 256

/-- With a limit of less than 255 bits nothing wraps around. -/
theorem ReachesOne.of_limit {limit average expected weighted : Nat} (small : limit < 2 ^ 255)
    (positive : 0 < expected) (weightedPos : 0 < weighted)
    (reaches : expected ≤ average * weighted) : ReachesOne limit average expected weighted := by
  refine ⟨positive, reaches, fun late => Nat.ne_of_lt ?_⟩
  have product : average / expected * weighted ≤ limit :=
    (Nat.le_div_iff_mul_le weightedPos).mp late
  have part : (average - average / expected * (expected % 2 ^ 32)) * weighted % 2 ^ 256 /
      expected < 2 ^ 255 := by
    rcases Nat.eq_or_lt_of_le (Nat.succ_le_of_lt positive) with one | more
    · simp [← one]
    · have stored : (average - average / expected * (expected % 2 ^ 32)) * weighted % 2 ^ 256 <
          2 ^ 256 := Nat.mod_lt _ (Nat.two_pow_pos 256)
      exact (Nat.div_lt_iff_lt_mul positive).mpr (by omega)
  rw [scaledSum]
  omega

theorem scaledTarget_le {limit average expected weighted : Nat} :
    scaledTarget limit average expected weighted ≤ limit := by
  rw [scaledTarget]
  split_ifs
  · exact le_rfl
  · exact min_le_left _ _

theorem scaledSum_eq_zero_iff {average expected weighted : Nat} (positive : 0 < expected)
    (wide : expected < 2 ^ 64) (weightedPos : 0 < weighted) (narrow : weighted < 2 ^ 32) :
    scaledSum average expected weighted = 0 ↔ average * weighted < expected := by
  rcases Nat.lt_or_ge average expected with below | above
  · have product : average * weighted < 2 ^ 256 := by
      calc
        average * weighted < 2 ^ 64 * 2 ^ 32 :=
          Nat.mul_lt_mul_of_lt_of_lt (lt_trans below wide) narrow
        _ ≤ 2 ^ 256 := by decide
    rw [scaledSum, Nat.div_eq_of_lt below, Nat.zero_mul, Nat.zero_mul, Nat.zero_add, Nat.sub_zero,
      Nat.mod_eq_of_lt product, Nat.div_eq_zero_iff_lt positive]
  · have whole : 0 < average / expected * weighted :=
      Nat.mul_pos (Nat.div_pos above positive) weightedPos
    have enough : expected ≤ average * weighted :=
      le_trans above (Nat.le_mul_of_pos_right _ weightedPos)
    constructor
    · intro zero
      exact absurd (Nat.add_eq_zero_iff.mp zero).1 (Nat.ne_of_gt whole)
    · intro short
      omega

theorem scaledTarget_pos_iff {limit average expected weighted : Nat} (limitPos : 0 < limit)
    (small : limit < 2 ^ 256) (positive : 0 < expected) (wide : expected < 2 ^ 64)
    (weightedPos : 0 < weighted) (narrow : weighted < 2 ^ 32) :
    0 < scaledTarget limit average expected weighted ↔
      ReachesOne limit average expected weighted := by
  have vanishes := @scaledSum_eq_zero_iff average expected weighted positive wide weightedPos narrow
  rw [scaledTarget]
  split_ifs with early
  · have whole : 0 < average / expected := Nat.zero_lt_of_lt early
    have enough : expected ≤ average := by
      by_contra above
      rw [Nat.div_eq_of_lt (Nat.lt_of_not_le above)] at whole
      exact absurd whole (lt_irrefl 0)
    have reaches := le_trans enough (Nat.le_mul_of_pos_right average weightedPos)
    simp only [limitPos, true_iff]
    exact ⟨positive, reaches, fun late => absurd early (Nat.not_lt.mpr late)⟩
  · have late := Nat.not_lt.mp early
    have product : average / expected * weighted ≤ limit :=
      (Nat.le_div_iff_mul_le weightedPos).mp late
    have part : (average - average / expected * (expected % 2 ^ 32)) * weighted % 2 ^ 256 /
        expected < 2 ^ 256 :=
      lt_of_le_of_lt (Nat.div_le_self _ _) (Nat.mod_lt _ (Nat.two_pow_pos 256))
    have below : scaledSum average expected weighted < 2 ^ 256 + 2 ^ 256 :=
      Nat.add_lt_add (lt_of_le_of_lt product small) part
    constructor
    · intro kept
      have nonzero := lt_of_lt_of_le kept (min_le_right _ _)
      refine ⟨positive, ?_, ?_⟩
      · by_contra short
        rw [vanishes.mpr (Nat.lt_of_not_le short)] at nonzero
        exact absurd nonzero (lt_irrefl 0)
      · intro _ wrapped
        rw [wrapped] at nonzero
        exact absurd nonzero (lt_irrefl 0)
    · intro reaches
      have nonzero : scaledSum average expected weighted ≠ 0 := fun zero =>
        absurd (vanishes.mp zero) (Nat.not_lt.mpr reaches.expected_le)
      have unwrapped := reaches.not_wrapped late
      refine lt_min limitPos ?_
      omega

/-- The stored next target. -/
theorem scaleTarget_eq_ite {machine : Machine} (checks : ChecksSigned machine)
    {limit average : Nat} (limitSmall : limit < 2 ^ 256) (averageSmall : average < 2 ^ 256)
    (k weightedSolvetimes : Int) :
    scaleTarget machine limit average k weightedSolvetimes =
      if (k % 2 ^ 64).toNat = 0 ∨ (weightedSolvetimes % 2 ^ 32).toNat = 0 then none
      else some ((scaledTarget limit average (k % 2 ^ 64).toNat
        (weightedSolvetimes % 2 ^ 32).toNat : Nat) : Int) := by
  have stored {width value : Nat} : machine (.unsigned width) (value : Int) =
      some ((value % 2 ^ width : Nat) : Int) := by
    rw [checks.unsigned, Int.natCast_emod, Int.natCast_pow]
    rfl
  have k64 : machine .uint64 k = some (((k % 2 ^ 64).toNat : Nat) : Int) := by
    rw [Int.toNat_of_nonneg (Int.emod_nonneg _ (by decide))]
    exact checks.unsigned 64 k
  have k32 : machine .uint32 k = some (((k % 2 ^ 64).toNat % 2 ^ 32 : Nat) : Int) := by
    have low : (((k % 2 ^ 64).toNat % 2 ^ 32 : Nat) : Int) = k % 2 ^ 32 := by omega
    rw [low]
    exact checks.unsigned 32 k
  have w32 : machine .uint32 weightedSolvetimes =
      some (((weightedSolvetimes % 2 ^ 32).toNat : Nat) : Int) := by
    rw [Int.toNat_of_nonneg (Int.emod_nonneg _ (by decide))]
    exact checks.unsigned 32 weightedSolvetimes
  generalize (k % 2 ^ 64).toNat = expected at k64 k32 ⊢
  generalize (weightedSolvetimes % 2 ^ 32).toNat = weighted at w32 ⊢
  simp only [scaleTarget, k64, k32, w32, Option.bind_eq_bind, Option.bind_some]
  by_cases noTime : expected = 0
  · rw [if_pos (Or.inl noTime), noTime, divide, if_pos (by simp)]
    rfl
  have positive := Nat.pos_of_ne_zero noTime
  have productLe : average / expected * (expected % 2 ^ 32) ≤ average :=
    le_trans (Nat.mul_le_mul_left _ (Nat.mod_le _ _)) (Nat.div_mul_le_self _ _)
  have product : machine .uint256
      (((average / expected : Nat) : Int) * ((expected % 2 ^ 32 : Nat) : Int)) =
        some ((average / expected * (expected % 2 ^ 32) : Nat) : Int) := by
    rw [← Int.natCast_mul, IntType.uint256, stored,
      Nat.mod_eq_of_lt (lt_of_le_of_lt productLe averageSmall)]
  have remainder : machine .uint256
      ((average : Int) - ((average / expected * (expected % 2 ^ 32) : Nat) : Int)) =
        some ((average - average / expected * (expected % 2 ^ 32) : Nat) : Int) := by
    rw [← Int.natCast_sub productLe, IntType.uint256, stored,
      Nat.mod_eq_of_lt (lt_of_le_of_lt (Nat.sub_le _ _) averageSmall)]
  rw [divide_natCast average positive]
  simp only [Option.bind_some, product, remainder]
  by_cases noWeight : weighted = 0
  · rw [if_pos (Or.inr noWeight), noWeight, divide, if_pos (by simp)]
    rfl
  have weightedPos := Nat.pos_of_ne_zero noWeight
  have neither : ¬ (expected = 0 ∨ weighted = 0) := not_or.mpr ⟨noTime, noWeight⟩
  rw [divide_natCast limit weightedPos, if_neg neither]
  simp only [Option.bind_some]
  rw [scaledTarget]
  by_cases early : limit / weighted < average / expected
  · rw [if_pos (by exact_mod_cast early), if_pos early]
    simp
  · have wholeLe : average / expected * weighted ≤ limit :=
      (Nat.le_div_iff_mul_le weightedPos).mp (Nat.not_lt.mp early)
    have whole : machine .uint256 (((average / expected : Nat) : Int) * (weighted : Int)) =
        some ((average / expected * weighted : Nat) : Int) := by
      rw [← Int.natCast_mul, IntType.uint256, stored,
        Nat.mod_eq_of_lt (lt_of_le_of_lt wholeLe limitSmall)]
    have part : machine .uint256
        (((average - average / expected * (expected % 2 ^ 32) : Nat) : Int) * (weighted : Int)) =
          some (((average - average / expected * (expected % 2 ^ 32)) * weighted % 2 ^ 256 : Nat) :
            Int) := by
      rw [← Int.natCast_mul, IntType.uint256, stored]
    have sum : machine .uint256 (((average / expected * weighted : Nat) : Int) +
        (((average - average / expected * (expected % 2 ^ 32)) * weighted % 2 ^ 256 / expected :
          Nat) : Int)) = some ((scaledSum average expected weighted % 2 ^ 256 : Nat) : Int) := by
      rw [← Int.natCast_add, IntType.uint256, stored, scaledSum]
    rw [if_neg (by exact_mod_cast early), if_neg early]
    simp only [whole, part, Option.bind_some, divide_natCast _ positive, sum]
    congr 1
    split_ifs <;> omega

/-! ## The rule -/

/-- The blocks that the loop reads: one and the window behind it. -/
def lwmaWindow (params : LwmaParams) (chain : List BlockHeader) : List BlockHeader :=
  chain.drop ((chain.length : Int) - 1 - params.nLWMAWindow).toNat

/-- The average target of the window. -/
def averageOf (params : LwmaParams) (blocks : List BlockHeader) : Nat :=
  (blocks.map targetOf).sum / params.nLWMAWindow.toNat

/-- `k_uint`: the time the window should have taken, as it is stored. -/
def expectedOf (params : LwmaParams) : Nat :=
  ((params.nLWMAWindow * (params.nLWMAWindow + 1) * params.nPowTargetSpacing).tdiv 2 %
    2 ^ 64).toNat

/-- `weighted_solvetimes_u32`: the weighted solve times of the window, as they are stored. -/
def weightedOf (params : LwmaParams) (first : BlockHeader) (blocks : List BlockHeader) : Nat :=
  (max 1 (weightedTimes params.nPowTargetSpacing 1 first blocks) % 2 ^ 32).toNat

/-- The signed numbers do not overflow, and the average target times the weighted solve
times reaches the expected time, unless the chain is still shorter than the window. -/
def KeepsRange (params : LwmaParams) (chain : List BlockHeader) : Prop :=
  IntType.int32.Holds (params.nLWMAWindow + 1) ∧
    IntType.int64.Holds
      (params.nLWMAWindow * (params.nLWMAWindow + 1) * params.nPowTargetSpacing) ∧
    ((chain.length : Int) - 1 < params.nLWMAWindow ∨
      ∃ first blocks, lwmaWindow params chain = first :: blocks ∧
        TimesFit params.nPowTargetSpacing 1 0 first blocks ∧
        ReachesOne params.powLimit (averageOf params blocks) (expectedOf params)
          (weightedOf params first blocks))

section Rule

variable {machine : Machine} {params : LwmaParams} {chain : List BlockHeader}

theorem holds_square (typed : IntType.int32.Holds params.nLWMAWindow)
    (next : IntType.int32.Holds (params.nLWMAWindow + 1)) :
    IntType.int64.Holds (params.nLWMAWindow * (params.nLWMAWindow + 1)) := by
  have window : |params.nLWMAWindow| ≤ 2 ^ 31 :=
    abs_le.mpr ⟨(IntType.holds_signed.mp typed).1, (IntType.holds_signed.mp typed).2.le⟩
  have after : |params.nLWMAWindow + 1| ≤ 2 ^ 31 :=
    abs_le.mpr ⟨(IntType.holds_signed.mp next).1, (IntType.holds_signed.mp next).2.le⟩
  have square : |params.nLWMAWindow * (params.nLWMAWindow + 1)| ≤ 2 ^ 31 * 2 ^ 31 := by
    rw [abs_mul]
    exact mul_le_mul window after (abs_nonneg _) (by positivity)
  have bounds := abs_le.mp square
  exact IntType.holds_signed.mpr (by omega)

/-- Without the first two bounds nothing is returned. -/
theorem holds_of_returned (checks : ChecksSigned machine) {bits : Nat}
    (returned : lwmaGetNextWorkRequired machine params chain = some bits) :
    IntType.int32.Holds (params.nLWMAWindow + 1) ∧
      IntType.int64.Holds
        (params.nLWMAWindow * (params.nLWMAWindow + 1) * params.nPowTargetSpacing) := by
  simp only [lwmaGetNextWorkRequired, Option.bind_eq_bind, Option.bind_eq_some_iff, checks.int32,
    checks.int64, Option.ite_none_right_eq_some, Option.some.injEq] at returned
  obtain ⟨after, ⟨next, rfl⟩, square, ⟨-, rfl⟩, product, ⟨fits, -⟩, -⟩ := returned
  exact ⟨next, fits⟩

section Fits

variable (checks : ChecksSigned machine) (typed : IntType.int32.Holds params.nLWMAWindow)
  (next : IntType.int32.Holds (params.nLWMAWindow + 1))
  (product : IntType.int64.Holds
    (params.nLWMAWindow * (params.nLWMAWindow + 1) * params.nPowTargetSpacing))

include checks typed next product

theorem lwmaGetNextWorkRequired_before
    (short : (chain.length : Int) - 1 < params.nLWMAWindow) :
    lwmaGetNextWorkRequired machine params chain = getCompact machine params.powLimit := by
  simp only [lwmaGetNextWorkRequired, checks.int32, checks.int64, if_pos next,
    if_pos (holds_square typed next), if_pos product, Option.bind_eq_bind, Option.bind_some,
    if_pos short]

theorem lwmaGetNextWorkRequired_nil (long : ¬ (chain.length : Int) - 1 < params.nLWMAWindow)
    (window : lwmaWindow params chain = []) :
    lwmaGetNextWorkRequired machine params chain = none := by
  rw [lwmaWindow] at window
  simp only [lwmaGetNextWorkRequired, checks.int32, checks.int64, if_pos next,
    if_pos (holds_square typed next), if_pos product, Option.bind_eq_bind, Option.bind_some,
    if_neg long, window]

theorem lwmaGetNextWorkRequired_cons (long : ¬ (chain.length : Int) - 1 < params.nLWMAWindow)
    {first : BlockHeader} {blocks : List BlockHeader}
    (window : lwmaWindow params chain = first :: blocks) :
    lwmaGetNextWorkRequired machine params chain = (do
      let sums ← lwmaSums machine params.nPowTargetSpacing params.nLWMAWindow 1 first blocks
        ⟨0, 0, 0⟩
      let averageTarget ← machine .uint256
        (sums.targetQuotientSum + (← divide sums.targetRemainderSum params.nLWMAWindow))
      let nextTarget ← scaleTarget machine params.powLimit averageTarget
        ((params.nLWMAWindow * (params.nLWMAWindow + 1) * params.nPowTargetSpacing).tdiv 2)
        (if sums.weightedSolvetimes < 1 then 1 else sums.weightedSolvetimes)
      getCompact machine nextTarget.toNat) := by
  rw [lwmaWindow] at window
  simp only [lwmaGetNextWorkRequired, checks.int32, checks.int64, if_pos next,
    if_pos (holds_square typed next), if_pos product, Option.bind_eq_bind, Option.bind_some,
    if_neg long, window]

end Fits

/-- A full window with the block before it. -/
theorem lwmaWindow_eq {T : Int} {window limit : Nat}
    (long : ¬ (chain.length : Int) - 1 < window) :
    ∃ first blocks, lwmaWindow ⟨T, window, limit⟩ chain = first :: blocks ∧
      blocks.length = window ∧ ∀ block ∈ blocks, block ∈ chain := by
  obtain ⟨first, blocks, recent, -, length, ofChain⟩ :=
    @exists_window window chain (by omega)
  refine ⟨first, blocks, ?_, length, ofChain⟩
  have start : ((chain.length : Int) - 1 - window).toNat = chain.length - (window + 1) := by omega
  rw [lwmaWindow, start, recent]

/-- A window that is not positive leaves nothing to divide by. -/
theorem lwmaGetNextWorkRequired_improper {T N : Int} {limit : Nat} (checks : ChecksSigned machine)
    (typed : IntType.int32.Holds N) (next : IntType.int32.Holds (N + 1))
    (product : IntType.int64.Holds (N * (N + 1) * T))
    (long : ¬ (chain.length : Int) - 1 < N) (improper : ¬ 0 < N) :
    lwmaGetNextWorkRequired machine ⟨T, N, limit⟩ chain = none := by
  cases isWindow : lwmaWindow ⟨T, N, limit⟩ chain with
  | nil => exact lwmaGetNextWorkRequired_nil checks typed next product long isWindow
  | cons first blocks =>
      have length := congrArg List.length isWindow
      rw [lwmaWindow, List.length_drop, List.length_cons] at length
      simp only at length
      have zero : N = 0 := by omega
      have none : blocks = [] := List.eq_nil_of_length_eq_zero (by omega)
      subst zero none
      rw [lwmaGetNextWorkRequired_cons checks typed next product long isWindow]
      simp [lwmaSums, divide]

/-- What is returned for a full window. -/
theorem lwmaGetNextWorkRequired_eq_some_iff {T : Int} {window limit : Nat}
    (checks : ChecksSigned machine) (limitSmall : limit < 2 ^ 256) (positive : 0 < window)
    (typed : IntType.int32.Holds (window : Int))
    (next : IntType.int32.Holds ((window : Int) + 1))
    (product : IntType.int64.Holds ((window : Int) * (window + 1) * T))
    (long : ¬ (chain.length : Int) - 1 < window)
    {first : BlockHeader} {blocks : List BlockHeader}
    (isWindow : lwmaWindow ⟨T, window, limit⟩ chain = first :: blocks)
    (length : blocks.length = window) (within : ∀ block ∈ blocks, WithinLimit limit block)
    {bits : Nat} :
    lwmaGetNextWorkRequired machine ⟨T, window, limit⟩ chain = some bits ↔
      TimesFit T 1 0 first blocks ∧
        ¬ (expectedOf ⟨T, window, limit⟩ = 0 ∨ weightedOf ⟨T, window, limit⟩ first blocks = 0) ∧
        compactForm (scaledTarget limit (averageOf ⟨T, window, limit⟩ blocks)
          (expectedOf ⟨T, window, limit⟩) (weightedOf ⟨T, window, limit⟩ first blocks)) = bits := by
  have windowSmall : window < 2 ^ 31 := by
    have upper := (IntType.holds_signed.mp typed).2
    exact_mod_cast upper
  have quotients : window * (limit / window) ≤ limit := Nat.mul_div_le limit window
  have remainders : window * window < 2 ^ 31 * 2 ^ 31 :=
    Nat.mul_lt_mul_of_lt_of_lt windowSmall windowSmall
  have sums {after : LwmaSums} := @lwmaSums_eq_some_iff machine limit window 1 0 0 T 0 first
    blocks after checks limitSmall positive (by omega) within (by rw [length]; omega)
    (by rw [length]; omega)
  have averageEq : (blocks.map fun block => targetOf block / window).sum +
      (blocks.map fun block => targetOf block % window).sum / window =
        averageOf ⟨T, window, limit⟩ blocks := by
    have split := sum_quotients_add_remainders (blocks.map targetOf) positive
    rw [List.map_map, List.map_map] at split
    exact split
  have averageLe : averageOf ⟨T, window, limit⟩ blocks ≤ limit := by
    have sum := sum_targetOf_le within
    rw [length] at sum
    exact Nat.div_le_of_le_mul sum
  have average : machine .uint256 (averageOf ⟨T, window, limit⟩ blocks : Int) =
      some (averageOf ⟨T, window, limit⟩ blocks : Int) :=
    checks.exact (IntType.holds_unsigned_natCast.mpr (by omega))
  have times : (if weightedTimes T 1 first blocks < 1 then 1 else weightedTimes T 1 first blocks) =
      max 1 (weightedTimes T 1 first blocks) := by
    split_ifs <;> omega
  have scaled := @scaleTarget_eq_ite machine checks limit (averageOf ⟨T, window, limit⟩ blocks)
    limitSmall (by omega) (((window : Int) * (window + 1) * T).tdiv 2)
    (max 1 (weightedTimes T 1 first blocks))
  have compact {value : Nat} (small : value ≤ limit) :
      getCompact machine value = some (compactForm value) :=
    getCompact_eq checks.exact (lt_of_le_of_lt small limitSmall)
  simp only [Nat.cast_zero, Nat.zero_add, Int.zero_add] at sums
  rw [lwmaGetNextWorkRequired_cons checks typed next product long isWindow,
    Option.bind_eq_bind, Option.bind_eq_some_iff]
  simp only [sums]
  constructor
  · rintro ⟨after, ⟨fits, rfl⟩, returned⟩
    simp only [divide_natCast _ positive, Option.bind_eq_bind, Option.bind_some,
      ← Int.natCast_add, averageEq, average, times, scaled, Option.bind_eq_some_iff,
      Option.ite_none_left_eq_some, Option.some.injEq] at returned
    obtain ⟨target, ⟨defined, rfl⟩, returned⟩ := returned
    rw [Int.toNat_natCast, compact scaledTarget_le] at returned
    exact ⟨fits, defined, Option.some.inj returned⟩
  · rintro ⟨fits, defined, rfl⟩
    refine ⟨_, ⟨fits, rfl⟩, ?_⟩
    simp only [divide_natCast _ positive, Option.bind_eq_bind, Option.bind_some,
      ← Int.natCast_add, averageEq, average, times, scaled, Option.bind_eq_some_iff,
      Option.ite_none_left_eq_some, Option.some.injEq]
    refine ⟨_, ⟨defined, rfl⟩, ?_⟩
    rw [Int.toNat_natCast]
    exact compact scaledTarget_le

end Rule

/-- The bits of the next block pass the range check exactly if `KeepsRange`. -/
theorem lwma_passesRange_iff {params : LwmaParams} {chain : List BlockHeader}
    (nonempty : chain ≠ []) (typed : IntType.int32.Holds params.nLWMAWindow)
    (limit : params.powLimit < 2 ^ 256)
    (valid : ∀ block ∈ chain, passesRange params.powLimit block.bits.toNat = true) :
    (∃ bits, lwmaGetNextWorkRequired unsignedWrapping params chain = some bits ∧
        passesRange params.powLimit bits = true ∧
        ∃ hash < 2 ^ 256, checkProofOfWork params.powLimit hash bits = true) ↔
      KeepsRange params chain := by
  have checks := checksSigned_unsignedWrapping
  generalize unsignedWrapping = machine at checks
  have within : ∀ block ∈ chain, WithinLimit params.powLimit block := fun block member =>
    (passesRange_iff limit block.bits.toNat_lt).mp (valid block member)
  have limitPos : 0 < params.powLimit := by
    obtain ⟨block, member⟩ := List.exists_mem_of_ne_nil chain nonempty
    obtain ⟨target, -, positive, bounded⟩ := within block member
    omega
  have hashed {bits : Nat} (passes : passesRange params.powLimit bits = true) :
      ∃ hash < 2 ^ 256, checkProofOfWork params.powLimit hash bits = true :=
    ⟨0, by positivity, by simp [checkProofOfWork, passes]⟩
  obtain ⟨T, N, powLimit⟩ := params
  simp only at *
  by_cases bounds : IntType.int32.Holds (N + 1) ∧ IntType.int64.Holds (N * (N + 1) * T)
  · obtain ⟨next, product⟩ := bounds
    by_cases short : (chain.length : Int) - 1 < N
    · have returned := @lwmaGetNextWorkRequired_before machine ⟨T, N, powLimit⟩ chain checks typed
        next product short
      have passes := (passesRange_compactForm limit le_rfl).mpr limitPos
      constructor
      · exact fun _ => ⟨next, product, .inl short⟩
      · intro _
        exact ⟨_, returned.trans (getCompact_eq checks.exact limit), passes, hashed passes⟩
    by_cases proper : 0 < N
    · obtain ⟨window, rfl⟩ := Int.eq_ofNat_of_zero_le proper.le
      have positive : 0 < window := by omega
      obtain ⟨first, blocks, isWindow, length, ofChain⟩ :=
        @lwmaWindow_eq chain T window powLimit short
      have blocksWithin := fun block member => within block (ofChain block member)
      have returned {bits : Nat} := @lwmaGetNextWorkRequired_eq_some_iff machine chain T window
        powLimit checks limit positive typed next product short first blocks isWindow length
        blocksWithin bits
      have scaled := @scaledTarget_pos_iff powLimit (averageOf ⟨T, window, powLimit⟩ blocks)
        (expectedOf ⟨T, window, powLimit⟩) (weightedOf ⟨T, window, powLimit⟩ first blocks)
        limitPos limit
      have wide : expectedOf ⟨T, window, powLimit⟩ < 2 ^ 64 := by
        rw [expectedOf]
        omega
      have narrow : weightedOf ⟨T, window, powLimit⟩ first blocks < 2 ^ 32 := by
        rw [weightedOf]
        omega
      constructor
      · rintro ⟨bits, isBits, passes, -⟩
        obtain ⟨fits, defined, rfl⟩ := returned.mp isBits
        rw [passesRange_compactForm limit scaledTarget_le] at passes
        obtain ⟨expectedPos, weightedPos⟩ := not_or.mp defined
        exact ⟨next, product, .inr ⟨first, blocks, isWindow, fits,
          (scaled (Nat.pos_of_ne_zero expectedPos) wide (Nat.pos_of_ne_zero weightedPos)
            narrow).mp passes⟩⟩
      · rintro ⟨-, -, before | ⟨first', blocks', isWindow', fits, reaches⟩⟩
        · exact absurd before short
        · cases isWindow.symm.trans isWindow'
          have weightedPos : 0 < weightedOf ⟨T, window, powLimit⟩ first blocks := by
            by_contra zero
            have le := reaches.expected_le
            rw [Nat.eq_zero_of_not_pos zero, Nat.mul_zero] at le
            exact absurd reaches.expected_pos (Nat.not_lt.mpr le)
          have passes := (passesRange_compactForm limit scaledTarget_le).mpr
            ((scaled reaches.expected_pos wide weightedPos narrow).mpr reaches)
          exact ⟨_, returned.mpr ⟨fits, not_or.mpr ⟨Nat.ne_of_gt reaches.expected_pos,
            Nat.ne_of_gt weightedPos⟩, rfl⟩, passes, hashed passes⟩
    · -- a window that is not positive leaves an average of nothing
      have empty : N.toNat = 0 := by omega
      constructor
      · rintro ⟨bits, isBits, -⟩
        rw [lwmaGetNextWorkRequired_improper checks typed next product short proper] at isBits
        cases isBits
      · rintro ⟨-, -, before | ⟨first, blocks, -, -, reaches⟩⟩
        · exact absurd before short
        · have le := reaches.expected_le
          rw [averageOf, empty, Nat.div_zero, Nat.zero_mul] at le
          exact absurd reaches.expected_pos (Nat.not_lt.mpr le)
  · constructor
    · rintro ⟨bits, returned, -, -⟩
      exact absurd (holds_of_returned checks returned) bounds
    · rintro ⟨next, product, -⟩
      exact absurd ⟨next, product⟩ bounds

/-- The next bits after two late blocks pass the range check. -/
theorem lateWindow_passesRange :
    ∃ bits, lwmaGetNextWorkRequired unsignedWrapping ⟨60, 2, powLimitTarget⟩ lateWindow =
        some bits ∧ passesRange powLimitTarget bits = true := by
  have valid : ∀ block ∈ lateWindow, passesRange powLimitTarget block.bits.toNat = true := by
    decide
  have keeps : KeepsRange ⟨60, 2, powLimitTarget⟩ lateWindow := by
    refine ⟨by decide, by decide, .inr ⟨_, _, rfl, ⟨⟨by decide, by decide, by decide, by decide⟩,
      ⟨by decide, by decide, by decide, by decide⟩, trivial⟩, ?_⟩⟩
    exact .of_limit (by decide) (by decide) (by decide) (by decide)
  obtain ⟨bits, returned, passes, -⟩ := (@lwma_passesRange_iff ⟨60, 2, powLimitTarget⟩ lateWindow
    (by decide) (by decide) (by decide) valid).mpr keeps
  exact ⟨bits, returned, passes⟩

/-- The parameters of the main network. -/
def mainParams : LwmaParams where
  nPowTargetSpacing := 60
  nLWMAWindow := 144
  powLimit := 0x00000377ae000000000000000000000000000000000000000000000000000000

/-- A window of blocks with a low target and one time stamp. -/
def stalledChain : List BlockHeader := List.replicate 145 (timedHeader 1700000000 0x0307ffff)

/-- The rule returns zero bits for it. -/
theorem stalledChain_stops :
    ¬ ∀ (params : LwmaParams) (chain : List BlockHeader), chain ≠ [] →
      IntType.int32.Holds params.nLWMAWindow → params.powLimit < 2 ^ 256 →
      (∀ block ∈ chain, passesRange params.powLimit block.bits.toNat = true) →
      ∃ bits, lwmaGetNextWorkRequired unsignedWrapping params chain = some bits ∧
        passesRange params.powLimit bits = true := by
  intro always
  have zero : lwmaGetNextWorkRequired unsignedWrapping mainParams stalledChain = some 0 := by
    decide +kernel
  obtain ⟨bits, returned, passes⟩ := always mainParams stalledChain (by decide) (by decide)
    (by decide) (by decide +kernel)
  cases zero.symm.trans returned
  exact absurd passes (by decide)

end QuantyCoin
