import Mathlib.Algebra.Order.BigOperators.Group.List
import Mathlib.Algebra.Order.Ring.Abs
import Mathlib.Tactic.Ring
import QuantyCoin.CompactTarget
import QuantyCoin.HeaderRules
import QuantyCoin.MachineArithmetic

/-!
# The two implementations of the difficulty rule

`LwmaGetNextWorkRequired` of `src/pow.cpp` computes on machine integers what
`calculate_next_work_required_lwma` computes on Python's: the average target of
a window of blocks, scaled by their weighted solve times.  It divides before it
adds and multiplies, and keeps the remainders, so that nothing overflows.

A chain is the list of its headers from genesis to the last, so that
`GetAncestor(h)` of the last is the element at `h`.
-/

namespace QuantyCoin

open MachineArithmetic

/-! ## `arith_uint256` -/

/-- `SetCompact`. -/
def setCompact (machine : Machine) (nCompact : Nat) : Option Int :=
  let nSize := nCompact >>> 24
  let nWord := nCompact &&& 0x007fffff
  if nSize ≤ 3 then some (nWord >>> (8 * (3 - nSize)) : Nat)
  else machine .uint256 (nWord <<< (8 * (nSize - 3)) : Nat)

/-- `GetLow64`. -/
def getLow64 (value : Nat) : Nat := value % 2 ^ 64

/-- The mantissa of `GetCompact`, before its sign bit is looked at. -/
def getMantissa (machine : Machine) (value nSize : Nat) : Option Int :=
  if nSize ≤ 3 then do
    machine .uint32 (← machine .uint64 (getLow64 value <<< (8 * (3 - nSize)) : Nat))
  else machine .uint32 (getLow64 (value >>> (8 * (nSize - 3))) : Nat)

/-- `GetCompact`. -/
def getCompact (machine : Machine) (value : Nat) : Option Nat := do
  let nSize := (bitLength value + 7) / 8
  let mantissa ← getMantissa machine value nSize
  let nCompact := mantissa.toNat
  let (nCompact, nSize) :=
    if nCompact &&& 0x00800000 ≠ 0 then (nCompact >>> 8, nSize + 1) else (nCompact, nSize)
  guard (nCompact &&& 0xff800000 = 0)
  guard (nSize < 256)
  some (nCompact ||| nSize <<< 24)

/-! ## `LwmaGetNextWorkRequired` -/

/-- The members of `Consensus::Params` the rule reads. -/
structure LwmaParams where
  nPowTargetSpacing : Int
  nLWMAWindow : Int
  powLimit : Nat

/-- The sums of the loop over the window. -/
structure LwmaSums where
  targetQuotientSum : Int
  targetRemainderSum : Int
  weightedSolvetimes : Int

/-- The solve time of a block, within six times the spacing. -/
def lwmaSolvetime (machine : Machine) (T : Int) (previous block : BlockHeader) :
    Option Int := do
  let solvetime ← machine .int64
    ((block.timestamp.toNat : Int) - previous.timestamp.toNat)
  let solvetime := min solvetime (← machine .int64 (6 * T))
  some (max solvetime (← machine .int64 (-6 * T)))

/-- The quotient and the remainder of the target of a block. -/
def lwmaTarget (machine : Machine) (N : Int) (block : BlockHeader) : Option (Int × Int) := do
  let target ← setCompact machine block.bits.toNat
  let targetQuotient ← divide target N
  let product ← machine .uint256 (targetQuotient * (← machine .uint32 N))
  some (targetQuotient, ← machine .uint256 (target - product))

/-- The body of the loop. -/
def lwmaStep (machine : Machine) (T N : Int) (i : Nat) (previous block : BlockHeader)
    (sums : LwmaSums) : Option LwmaSums := do
  let solvetime ← lwmaSolvetime machine T previous block
  let weightedSolvetimes ← machine .int64
    (sums.weightedSolvetimes + (← machine .int64 (solvetime * i)))
  let (targetQuotient, targetRemainder) ← lwmaTarget machine N block
  let targetQuotientSum ← machine .uint256 (sums.targetQuotientSum + targetQuotient)
  let targetRemainderSum ← machine .uint256 (sums.targetRemainderSum + targetRemainder)
  some ⟨targetQuotientSum, targetRemainderSum, weightedSolvetimes⟩

/-- The loop over the blocks behind the first of the window. -/
def lwmaSums (machine : Machine) (T N : Int) :
    Nat → BlockHeader → List BlockHeader → LwmaSums → Option LwmaSums
  | _, _, [], sums => some sums
  | i, previous, block :: blocks, sums => do
      let sums ← lwmaStep machine T N i previous block sums
      lwmaSums machine T N (i + 1) block blocks sums

/-- The next target from the average target and the weighted solve times. -/
def scaleTarget (machine : Machine) (powLimit averageTarget k weightedSolvetimes : Int) :
    Option Int := do
  let kUint ← machine .uint64 k
  let weightedSolvetimesU32 ← machine .uint32 weightedSolvetimes
  let quotient ← divide averageTarget kUint
  let product ← machine .uint256 (quotient * (← machine .uint32 k))
  let remainder ← machine .uint256 (averageTarget - product)
  let nextTarget ←
    if quotient > (← divide powLimit weightedSolvetimesU32) then some powLimit
    else do
      let whole ← machine .uint256 (quotient * weightedSolvetimesU32)
      let part ← machine .uint256 (remainder * weightedSolvetimesU32)
      machine .uint256 (whole + (← divide part kUint))
  some (if nextTarget > powLimit then powLimit else nextTarget)

/-- `LwmaGetNextWorkRequired` for the last block of a chain. -/
def lwmaGetNextWorkRequired (machine : Machine) (params : LwmaParams)
    (chain : List BlockHeader) : Option Nat := do
  let T := params.nPowTargetSpacing
  let N := params.nLWMAWindow
  let next ← machine .int32 (N + 1)
  let product ← machine .int64 ((← machine .int64 (N * next)) * T)
  let k := product.tdiv 2
  let height : Int := (chain.length : Int) - 1
  if height < N then getCompact machine params.powLimit
  else
    match chain.drop (height - N).toNat with
    | [] => none
    | first :: blocks => do
        let sums ← lwmaSums machine T N 1 first blocks ⟨0, 0, 0⟩
        let weightedSolvetimes :=
          if sums.weightedSolvetimes < 1 then 1 else sums.weightedSolvetimes
        let averageTarget ← machine .uint256
          (sums.targetQuotientSum + (← divide sums.targetRemainderSum N))
        let nextTarget ← scaleTarget machine params.powLimit averageTarget k weightedSolvetimes
        getCompact machine nextTarget.toNat

/-! ## The Python rule with any limit -/

/-- `calculate_next_work_required_lwma` with any `POW_LIMIT_TARGET` and
`POW_LIMIT_BITS`. -/
def calculateNextWorkRequiredLwmaWithin (limit limitBits : Nat) (headers : List BlockHeader)
    (targetSpacing : Int) (n : Nat) : Except PyException Nat :=
  if headers.length < n + 1 then .ok limitBits
  else
    match headers.drop (headers.length - (n + 1)) with
    | [] => .ok limitBits
    | first :: recent =>
        match lwmaLoop targetSpacing 1 first recent (0, 0, 0) with
        | .error error => .error error
        | .ok (sumTargets, t, weight) =>
            if n = 0 then .error divisionByZero
            else
              let avgTarget := sumTargets / n
              let expectedT := targetSpacing * weight
              let t := if t ≤ 0 then 1 else t
              if expectedT = 0 then .error divisionByZero
              else
                let nextTarget := Int.fdiv (avgTarget * t) expectedT
                let nextTarget :=
                  if nextTarget > limit ∨ nextTarget ≤ 0 then (limit : Int) else nextTarget
                .ok (targetToBitsWithin limit nextTarget)

theorem calculateNextWorkRequiredLwma_eq_within (headers : List BlockHeader)
    (targetSpacing : Int) (n : Nat) :
    calculateNextWorkRequiredLwma headers targetSpacing n =
      calculateNextWorkRequiredLwmaWithin powLimitTarget powLimitBits headers targetSpacing n :=
  rfl

/-! ## The rule itself -/

/-- The solve time of a block behind another, within six times the spacing. -/
def clampedSolvetime (spacing : Nat) (previous block : BlockHeader) : Int :=
  max (-6 * (spacing : Int)) (min ((block.timestamp.toNat : Int) -
    previous.timestamp.toNat) (6 * spacing))

/-- The clamped solve times of a window. -/
def clampedSolvetimes (spacing : Nat) : List BlockHeader → List Int
  | previous :: header :: headers =>
      clampedSolvetime spacing previous header :: clampedSolvetimes spacing (header :: headers)
  | _ => []

/-- The sum with weights that count up. -/
def weightedSum : Nat → List Int → Int
  | _, [] => 0
  | weight, time :: times => time * weight + weightedSum (weight + 1) times

/-- The weighted solve times of the last `window` headers. -/
def windowSolvetimes (spacing window : Nat) (headers : List BlockHeader) : Int :=
  weightedSum 1 (clampedSolvetimes spacing (headers.drop (headers.length - (window + 1))))

/-- The target of a header, zero if its bits are rejected. -/
def targetOf (header : BlockHeader) : Nat :=
  match bitsToTarget header.bits.toNat with
  | .ok target => target
  | .error _ => 0

/-- The average target of the last `window` headers, rounded down. -/
def averageTarget (window : Nat) (headers : List BlockHeader) : Nat :=
  ((headers.drop (headers.length - window)).map targetOf).sum / window

/-- The time the window should have taken, with the same weights. -/
def expectedTime (spacing window : Nat) : Nat := spacing * window * (window + 1) / 2

/-- The next target before it is put into compact form. -/
def nextTarget (limit spacing window : Nat) (headers : List BlockHeader) : Nat :=
  min limit (averageTarget window headers *
    (max 1 (windowSolvetimes spacing window headers)).toNat / expectedTime spacing window)

/-- `bits_to_target` accepts the bits of a header. -/
def HasTarget (header : BlockHeader) : Prop :=
  ∃ target, bitsToTarget header.bits.toNat = .ok target

/-- The bits of a header have no sign and stand for a target within a limit. -/
def WithinLimit (limit : Nat) (header : BlockHeader) : Prop :=
  ∃ target, bitsToTarget header.bits.toNat = .ok target ∧ 0 < target ∧ target ≤ limit

theorem WithinLimit.hasTarget {limit : Nat} {header : BlockHeader}
    (within : WithinLimit limit header) : HasTarget header :=
  ⟨within.choose, within.choose_spec.1⟩

theorem WithinLimit.targetOf_le {limit : Nat} {header : BlockHeader}
    (within : WithinLimit limit header) : targetOf header ≤ limit := by
  obtain ⟨target, decoded, -, bounded⟩ := within
  rwa [targetOf, decoded]

/-! ## Compact forms in C++ -/

/-- Bits without a sign are expanded in the same way. -/
theorem setCompact_eq {machine : Machine} (exact : machine.Exact) {limit : Nat}
    (small : limit < 2 ^ 256) {header : BlockHeader} (within : WithinLimit limit header) :
    setCompact machine header.bits.toNat = some (targetOf header : Int) := by
  obtain ⟨target, decoded, -, bounded⟩ := within
  have isTarget : targetOf header = target := by rw [targetOf, decoded]
  rw [isTarget]
  generalize header.bits.toNat = bits at decoded
  have word : bits &&& 0x007fffff = bits % 2 ^ 23 := Nat.and_two_pow_sub_one_eq_mod bits 23
  rw [bitsToTarget] at decoded
  split at decoded
  · cases decoded
  simp only [Int.toNat_natCast] at decoded
  split at decoded
  · cases decoded
  rename_i unsigned
  rw [and_coefficient, signBit_ne_zero_iff (Nat.mod_lt _ (by decide))] at unsigned
  have same : bits % 2 ^ 24 = bits % 2 ^ 23 := by omega
  rw [and_coefficient, same] at decoded
  simp only [setCompact, word]
  split at decoded
  · rename_i short
    cases decoded
    rw [if_pos short]
  · rename_i long
    cases decoded
    rw [if_neg long]
    exact exact (IntType.holds_unsigned_natCast.mpr (lt_of_le_of_lt bounded small))

/-- The mantissa is the leading bytes. -/
theorem getMantissa_eq {machine : Machine} (exact : machine.Exact) {value : Nat}
    (positive : 0 < value) :
    getMantissa machine value (byteLength value) = some (leadingBytes value : Int) := by
  obtain ⟨-, -, upper⟩ := byteLength_bounds positive
  have leading := (leadingBytes_bounds positive).2
  rw [getMantissa]
  split_ifs with short
  · have low : getLow64 value = value := by
      have growing : 2 ^ (8 * byteLength value) ≤ 2 ^ 64 :=
        Nat.pow_le_pow_right (by omega) (by omega)
      exact Nat.mod_eq_of_lt (by omega)
    have shifted : value <<< (8 * (3 - byteLength value)) = leadingBytes value := by
      rw [leadingBytes, if_pos short]
    rw [low, shifted]
    have fits : IntType.uint64.Holds (leadingBytes value : Int) :=
      IntType.holds_unsigned_natCast.mpr (by omega)
    rw [exact fits]
    exact exact (IntType.holds_unsigned_natCast.mpr (by omega))
  · have shifted : value >>> (8 * (byteLength value - 3)) = leadingBytes value := by
      rw [leadingBytes, if_neg short]
    have low : getLow64 (leadingBytes value) = leadingBytes value :=
      Nat.mod_eq_of_lt (by omega)
    rw [shifted, low]
    exact exact (IntType.holds_unsigned_natCast.mpr (by omega))

theorem byteLength_le {value : Nat} (small : value < 2 ^ 256) : byteLength value ≤ 32 := by
  rw [byteLength, bitLength]
  split_ifs with zero
  · decide
  · have log := (Nat.log2_lt zero).mpr small
    omega

theorem and_highBits {mantissa : Nat} (small : mantissa < 2 ^ 23) :
    mantissa &&& 0xff800000 = 0 := by
  have high : (0xff800000 : Nat) = 0x1ff <<< 23 := by decide
  apply Nat.eq_of_testBit_eq
  intro index
  rw [Nat.testBit_and, high, Nat.testBit_shiftLeft, Nat.zero_testBit]
  rcases Nat.lt_or_ge index 23 with below | above
  · simp [Nat.not_le.mpr below]
  · rw [Nat.testBit_lt_two_pow (lt_of_lt_of_le small (Nat.pow_le_pow_right (by omega) above))]
    rfl

/-- `GetCompact` writes the compact form and its assertions hold. -/
theorem getCompact_eq {machine : Machine} (exact : machine.Exact) {value : Nat}
    (small : value < 2 ^ 256) : getCompact machine value = some (compactForm value) := by
  have size : (bitLength value + 7) / 8 = byteLength value := rfl
  have short := byteLength_le small
  rcases Nat.eq_zero_or_pos value with rfl | positive
  · have fits64 : IntType.uint64.Holds 0 := by decide
    have fits32 : IntType.uint32.Holds 0 := by decide
    have mantissa : getMantissa machine 0 ((bitLength 0 + 7) / 8) = some 0 := by
      rw [getMantissa, if_pos (by decide)]
      have nothing : ((getLow64 0 <<< (8 * (3 - (bitLength 0 + 7) / 8)) : Nat) : Int) = 0 := by
        decide
      rw [nothing, exact fits64]
      exact exact fits32
    rw [getCompact, mantissa]
    decide
  · have leading := (leadingBytes_bounds positive).2
    rw [getCompact, size, getMantissa_eq exact positive, compactForm]
    simp only [Option.bind_eq_bind, Option.bind_some, Int.toNat_natCast,
      signBit_ne_zero_iff leading]
    split_ifs with signed
    · have shifted : leadingBytes value >>> 8 < 2 ^ 23 := by
        rw [Nat.shiftRight_eq_div_pow]
        omega
      simp only [and_highBits shifted]
      rw [guard, if_pos trivial, guard, if_pos (by omega)]
      simp [Nat.or_comm]
    · simp only [and_highBits (Nat.not_le.mp signed)]
      rw [guard, if_pos trivial, guard, if_pos (by omega)]
      simp [Nat.or_comm]

/-! ## The loop over the window -/

/-- The sum of the weights from one on. -/
def weightsFrom : Nat → Nat → Nat
  | _, 0 => 0
  | weight, count + 1 => weight + weightsFrom (weight + 1) count

theorem two_mul_weightsFrom (weight count : Nat) :
    2 * weightsFrom (weight + 1) count = count * (2 * weight + count + 1) := by
  induction count generalizing weight with
  | zero => simp [weightsFrom]
  | succ count ih =>
      rw [weightsFrom, Nat.mul_add, ih (weight + 1)]
      ring

/-- The weights of a window add up to the expected time. -/
theorem spacing_mul_weightsFrom (spacing window : Nat) :
    spacing * weightsFrom 1 window = expectedTime spacing window := by
  have twice : 2 * weightsFrom 1 window = window * (window + 1) := by
    simpa using two_mul_weightsFrom 0 window
  have product : spacing * window * (window + 1) = spacing * weightsFrom 1 window * 2 := by
    rw [Nat.mul_assoc, ← twice]
    ring
  rw [expectedTime, product, Nat.mul_div_cancel _ (by decide)]

theorem abs_clampedSolvetime_le (spacing : Nat) (previous block : BlockHeader) :
    |clampedSolvetime spacing previous block| ≤ 6 * spacing := by
  rw [clampedSolvetime, abs_le]
  omega

theorem lwmaSolvetime_eq {machine : Machine} (exact : machine.Exact) {spacing : Nat}
    (small : (6 * spacing : Int) < 2 ^ 63) (previous block : BlockHeader) :
    lwmaSolvetime machine spacing previous block =
      some (clampedSolvetime spacing previous block) := by
  have lastTime := block.timestamp.toNat_lt
  have firstTime := previous.timestamp.toNat_lt
  have time : machine .int64 ((block.timestamp.toNat : Int) - previous.timestamp.toNat) =
      some ((block.timestamp.toNat : Int) - previous.timestamp.toNat) :=
    exact (IntType.holds_signed.mpr (by omega))
  have upper : machine .int64 (6 * (spacing : Int)) = some (6 * (spacing : Int)) :=
    exact (IntType.holds_signed.mpr (by omega))
  have lower : machine .int64 (-6 * (spacing : Int)) = some (-6 * (spacing : Int)) :=
    exact (IntType.holds_signed.mpr (by omega))
  simp only [lwmaSolvetime, time, upper, lower, Option.bind_eq_bind, Option.bind_some]
  rw [max_comm, clampedSolvetime]

theorem lwmaTarget_eq {machine : Machine} (exact : machine.Exact) {limit window : Nat}
    (small : limit < 2 ^ 256) (nonempty : 0 < window) (short : window < 2 ^ 32)
    {block : BlockHeader} (within : WithinLimit limit block) :
    lwmaTarget machine window block =
      some (((targetOf block / window : Nat) : Int), ((targetOf block % window : Nat) : Int)) := by
  have expanded := setCompact_eq exact small within
  obtain ⟨target, decoded, -, bounded⟩ := within
  have isTarget : targetOf block = target := by rw [targetOf, decoded]
  rw [isTarget] at expanded ⊢
  have parts := Nat.div_add_mod target window
  have counted : machine .uint32 (window : Int) = some (window : Int) :=
    exact (IntType.holds_unsigned_natCast.mpr short)
  have productEq : ((target / window : Nat) : Int) * (window : Int) =
      ((window * (target / window) : Nat) : Int) := by
    rw [Int.natCast_mul, mul_comm]
  have product : machine .uint256 ((window * (target / window) : Nat) : Int) =
      some ((window * (target / window) : Nat) : Int) :=
    exact (IntType.holds_unsigned_natCast.mpr (by omega))
  have remainderEq : (target : Int) - ((window * (target / window) : Nat) : Int) =
      ((target % window : Nat) : Int) := by omega
  have remainder : machine .uint256 ((target % window : Nat) : Int) =
      some ((target % window : Nat) : Int) :=
    exact (IntType.holds_unsigned_natCast.mpr (by omega))
  simp only [lwmaTarget, expanded, Option.bind_eq_bind, Option.bind_some,
    divide_natCast target nonempty, counted, productEq, product, remainderEq, remainder]

theorem lwmaStep_eq {machine : Machine} (exact : machine.Exact) {limit window spacing i : Nat}
    (small : limit < 2 ^ 256) (nonempty : 0 < window) (short : window < 2 ^ 32)
    {previous block : BlockHeader} (within : WithinLimit limit block) (weight : 1 ≤ i)
    {quotients remainders : Nat} {times : Int}
    (quotientsFit : quotients + limit / window < 2 ^ 256)
    (remaindersFit : remainders + window < 2 ^ 256)
    (timesFit : |times| + 6 * spacing * i < 2 ^ 63) :
    lwmaStep machine spacing window i previous block ⟨quotients, remainders, times⟩ =
      some ⟨(quotients + targetOf block / window : Nat),
        (remainders + targetOf block % window : Nat),
        times + clampedSolvetime spacing previous block * i⟩ := by
  have bound : (6 * spacing : Int) ≤ 6 * spacing * i := by
    exact_mod_cast Nat.le_mul_of_pos_right _ weight
  have timesNonneg := abs_nonneg times
  have solvetime := @lwmaSolvetime_eq machine exact spacing (by omega) previous block
  have weightedLe : |clampedSolvetime spacing previous block * (i : Int)| ≤ 6 * spacing * i := by
    rw [abs_mul, Nat.abs_cast]
    exact mul_le_mul_of_nonneg_right (abs_clampedSolvetime_le spacing previous block)
      (Int.natCast_nonneg i)
  generalize clampedSolvetime spacing previous block = time at *
  have weighted : machine .int64 (time * i) = some (time * i) := by
    rw [abs_le] at weightedLe
    exact exact (IntType.holds_signed.mpr (by omega))
  have sum : machine .int64 (times + time * i) = some (times + time * i) := by
    have total := abs_add_le times (time * i)
    have inside := abs_le.mp (le_refl |times + time * i|)
    exact exact (IntType.holds_signed.mpr (by omega))
  have quotientLe : targetOf block / window ≤ limit / window :=
    Nat.div_le_div_right within.targetOf_le
  have remainderLt := Nat.mod_lt (targetOf block) nonempty
  have quotientSum : machine .uint256 ((quotients + targetOf block / window : Nat) : Int) =
      some ((quotients + targetOf block / window : Nat) : Int) :=
    exact (IntType.holds_unsigned_natCast.mpr (by omega))
  have remainderSum : machine .uint256 ((remainders + targetOf block % window : Nat) : Int) =
      some ((remainders + targetOf block % window : Nat) : Int) :=
    exact (IntType.holds_unsigned_natCast.mpr (by omega))
  rw [Int.natCast_add] at quotientSum remainderSum
  simp only [lwmaStep, solvetime, lwmaTarget_eq exact small nonempty short within,
    Option.bind_eq_bind, Option.bind_some, weighted, sum, quotientSum, remainderSum,
    Int.natCast_add]

/-- The loop computes the sums exactly. -/
theorem lwmaSums_eq {machine : Machine} (exact : machine.Exact) {limit window spacing i : Nat}
    (small : limit < 2 ^ 256) (nonempty : 0 < window) (short : window < 2 ^ 32)
    {previous : BlockHeader} {blocks : List BlockHeader}
    (within : ∀ block ∈ blocks, WithinLimit limit block) (weight : 1 ≤ i)
    {quotients remainders : Nat} {times : Int}
    (quotientsFit : quotients + blocks.length * (limit / window) < 2 ^ 256)
    (remaindersFit : remainders + blocks.length * window < 2 ^ 256)
    (timesFit : |times| + 6 * spacing * weightsFrom i blocks.length < 2 ^ 63) :
    lwmaSums machine spacing window i previous blocks ⟨quotients, remainders, times⟩ =
      some ⟨(quotients + (blocks.map fun block => targetOf block / window).sum : Nat),
        (remainders + (blocks.map fun block => targetOf block % window).sum : Nat),
        times + weightedSum i (clampedSolvetimes spacing (previous :: blocks))⟩ := by
  induction blocks generalizing i previous quotients remainders times with
  | nil => simp [lwmaSums, clampedSolvetimes, weightedSum]
  | cons block blocks ih =>
      rw [List.length_cons, Nat.add_mul, Nat.one_mul] at quotientsFit remaindersFit
      rw [List.length_cons, weightsFrom, Int.natCast_add, mul_add] at timesFit
      have later : (0 : Int) ≤ 6 * spacing * weightsFrom (i + 1) blocks.length := by positivity
      have blockWithin := within block (by simp)
      have step := @lwmaStep_eq machine exact limit window spacing i small nonempty short previous
        block blockWithin weight quotients remainders times (by omega) (by omega) (by omega)
      have quotientLe : targetOf block / window ≤ limit / window :=
        Nat.div_le_div_right blockWithin.targetOf_le
      have remainderLt := Nat.mod_lt (targetOf block) nonempty
      have weightedLe : |clampedSolvetime spacing previous block * (i : Int)| ≤
          6 * spacing * i := by
        rw [abs_mul, Nat.abs_cast]
        exact mul_le_mul_of_nonneg_right (abs_clampedSolvetime_le spacing previous block)
          (Int.natCast_nonneg i)
      have total := abs_add_le times (clampedSolvetime spacing previous block * i)
      rw [lwmaSums, step]
      simp only [Option.bind_eq_bind, Option.bind_some]
      rw [ih (fun other member => within other (by simp [member])) (by omega) (by omega)
        (by omega) (by omega)]
      simp only [List.map_cons, List.sum_cons, clampedSolvetimes, weightedSum, add_assoc]

/-- The loop of the Python function computes the same sums. -/
theorem lwmaLoop_eq {spacing i : Nat} {previous : BlockHeader} {blocks : List BlockHeader}
    (valid : ∀ block ∈ blocks, HasTarget block) (targets weight : Nat) (times : Int) :
    lwmaLoop spacing i previous blocks (targets, times, weight) =
      .ok (targets + (blocks.map targetOf).sum,
        times + weightedSum i (clampedSolvetimes spacing (previous :: blocks)),
        weight + weightsFrom i blocks.length) := by
  induction blocks generalizing i previous targets weight times with
  | nil => simp [lwmaLoop, clampedSolvetimes, weightedSum, weightsFrom]
  | cons block blocks ih =>
      obtain ⟨target, decoded⟩ := valid block (by simp)
      have isTarget : targetOf block = target := by rw [targetOf, decoded]
      simp only [lwmaLoop, decoded]
      rw [ih fun other member => valid other (by simp [member])]
      simp only [List.map_cons, List.sum_cons, clampedSolvetimes, weightedSum, weightsFrom,
        List.length_cons, isTarget, clampedSolvetime, add_assoc]

/-! ## The next target -/

/-- The next target, from quotients and remainders, is the exact one. -/
theorem scaleTarget_eq {machine : Machine} (exact : machine.Exact)
    {limit average k times : Nat} (small : limit < 2 ^ 255) (bounded : average ≤ limit)
    (positive : 0 < k) (expected : k < 2 ^ 32) (timesPositive : 0 < times)
    (timesFit : times < 2 ^ 32) :
    scaleTarget machine limit average k times = some (min limit (average * times / k) : Nat) := by
  have k64 : machine .uint64 (k : Int) = some (k : Int) :=
    exact (IntType.holds_unsigned_natCast.mpr (by omega))
  have k32 : machine .uint32 (k : Int) = some (k : Int) :=
    exact (IntType.holds_unsigned_natCast.mpr expected)
  have times32 : machine .uint32 (times : Int) = some (times : Int) :=
    exact (IntType.holds_unsigned_natCast.mpr timesFit)
  have parts := Nat.div_add_mod average k
  have remainderLt := Nat.mod_lt average positive
  have productEq : ((average / k : Nat) : Int) * (k : Int) = ((k * (average / k) : Nat) : Int) := by
    rw [Int.natCast_mul, mul_comm]
  have product : machine .uint256 ((k * (average / k) : Nat) : Int) =
      some ((k * (average / k) : Nat) : Int) :=
    exact (IntType.holds_unsigned_natCast.mpr (by omega))
  have remainderEq : (average : Int) - ((k * (average / k) : Nat) : Int) =
      ((average % k : Nat) : Int) := by omega
  have remainder : machine .uint256 ((average % k : Nat) : Int) =
      some ((average % k : Nat) : Int) :=
    exact (IntType.holds_unsigned_natCast.mpr (by omega))
  have whole := quotient_mul_add_remainder average times positive
  simp only [scaleTarget, k64, k32, times32, Option.bind_eq_bind, Option.bind_some,
    divide_natCast _ positive, divide_natCast _ timesPositive, productEq, product, remainderEq,
    remainder]
  by_cases early : limit / times < average / k
  · -- the whole part alone is above the limit
    have above : limit < average / k * times := (Nat.div_lt_iff_lt_mul timesPositive).mp early
    have isLimit : min limit (average * times / k) = limit := by
      rw [← whole]
      exact min_eq_left (le_trans above.le (Nat.le_add_right _ _))
    rw [if_pos (by exact_mod_cast early), isLimit]
    simp
  · have within : average / k * times ≤ limit :=
      (Nat.le_div_iff_mul_le timesPositive).mp (Nat.not_lt.mp early)
    have partLt : average % k * times < 2 ^ 64 := by
      calc
        average % k * times < k * times := Nat.mul_lt_mul_of_pos_right remainderLt timesPositive
        _ ≤ 2 ^ 32 * 2 ^ 32 := Nat.mul_le_mul expected.le timesFit.le
        _ = 2 ^ 64 := by decide
    have storedWhole : machine .uint256 (((average / k : Nat) : Int) * (times : Int)) =
        some (((average / k : Nat) : Int) * (times : Int)) := by
      rw [← Int.natCast_mul]
      exact exact (IntType.holds_unsigned_natCast.mpr (by omega))
    have storedPart : machine .uint256 (((average % k : Nat) : Int) * (times : Int)) =
        some ((average % k * times : Nat) : Int) := by
      rw [← Int.natCast_mul]
      exact exact (IntType.holds_unsigned_natCast.mpr (by omega))
    have quotientLe : average % k * times / k ≤ average % k * times := Nat.div_le_self _ _
    have storedSum : machine .uint256 (((average / k : Nat) : Int) * (times : Int) +
        ((average % k * times / k : Nat) : Int)) = some ((average * times / k : Nat) : Int) := by
      rw [← Int.natCast_mul, ← Int.natCast_add, whole]
      exact exact (IntType.holds_unsigned_natCast.mpr (by omega))
    rw [if_neg (by exact_mod_cast early)]
    simp only [storedWhole, storedPart, Option.bind_some, divide_natCast _ positive, storedSum]
    congr 1
    split_ifs <;> omega

/-! ## Both functions -/

/-- The last headers of a long enough chain, with the one before them. -/
theorem exists_window {window : Nat} {headers : List BlockHeader}
    (enough : window + 1 ≤ headers.length) :
    ∃ first blocks, headers.drop (headers.length - (window + 1)) = first :: blocks ∧
      headers.drop (headers.length - window) = blocks ∧ blocks.length = window ∧
      ∀ block ∈ blocks, block ∈ headers := by
  cases recent : headers.drop (headers.length - (window + 1)) with
  | nil =>
      have length := congrArg List.length recent
      rw [List.length_drop, List.length_nil] at length
      omega
  | cons first blocks =>
      have length := congrArg List.length recent
      rw [List.length_drop, List.length_cons] at length
      refine ⟨first, blocks, rfl, ?_, by omega, ?_⟩
      · have next : headers.length - window = headers.length - (window + 1) + 1 := by omega
        rw [next, ← List.drop_drop, recent, List.drop_one, List.tail_cons]
      · intro block member
        exact List.mem_of_mem_drop (recent ▸ List.mem_cons_of_mem first member)

theorem sum_targetOf_le {limit : Nat} {blocks : List BlockHeader}
    (within : ∀ block ∈ blocks, WithinLimit limit block) :
    (blocks.map targetOf).sum ≤ blocks.length * limit := by
  have all : ∀ target ∈ blocks.map targetOf, target ≤ limit := by
    intro target member
    obtain ⟨block, isBlock, rfl⟩ := List.mem_map.mp member
    exact (within block isBlock).targetOf_le
  simpa using List.sum_le_card_nsmul (blocks.map targetOf) limit all

theorem abs_weightedSum_le (spacing weight : Nat) (previous : BlockHeader)
    (blocks : List BlockHeader) :
    |weightedSum weight (clampedSolvetimes spacing (previous :: blocks))| ≤
      6 * spacing * weightsFrom weight blocks.length := by
  induction blocks generalizing weight previous with
  | nil => simp [clampedSolvetimes, weightedSum, weightsFrom]
  | cons block blocks ih =>
      have rest := ih (weight + 1) block
      have first : |clampedSolvetime spacing previous block * (weight : Int)| ≤
          6 * spacing * weight := by
        rw [abs_mul, Nat.abs_cast]
        exact mul_le_mul_of_nonneg_right (abs_clampedSolvetime_le spacing previous block)
          (Int.natCast_nonneg weight)
      rw [clampedSolvetimes, weightedSum, List.length_cons, weightsFrom, Int.natCast_add, mul_add]
      exact le_trans (abs_add_le _ _) (add_le_add first rest)

section Window

variable {limit window spacing : Nat} {headers : List BlockHeader}

/-- What the parameters of the rule have to satisfy. -/
structure LwmaBounds (limit window spacing : Nat) : Prop where
  window_pos : 1 ≤ window
  spacing_pos : 1 ≤ spacing
  expected_small : 6 * expectedTime spacing window < 2 ^ 32
  limit_small : limit < 2 ^ 255

theorem two_mul_expectedTime (spacing window : Nat) :
    2 * expectedTime spacing window = window * (window + 1) * spacing := by
  have twice : 2 * weightsFrom 1 window = window * (window + 1) := by
    simpa using two_mul_weightsFrom 0 window
  rw [← spacing_mul_weightsFrom, ← twice]
  ring

namespace LwmaBounds

theorem window_mul_le (bounds : LwmaBounds limit window spacing) :
    window * (window + 1) ≤ 2 * expectedTime spacing window := by
  rw [two_mul_expectedTime]
  exact Nat.le_mul_of_pos_right _ bounds.spacing_pos

theorem window_le (bounds : LwmaBounds limit window spacing) :
    window ≤ expectedTime spacing window := by
  have product := bounds.window_mul_le
  have positive := bounds.window_pos
  have twice : window * 2 ≤ window * (window + 1) := Nat.mul_le_mul_left _ (by omega)
  omega

/-- The weighted solve times are far below the range of the integers used. -/
theorem abs_windowSolvetimes_le (headers : List BlockHeader)
    (enough : window + 1 ≤ headers.length) :
    |windowSolvetimes spacing window headers| ≤ 6 * expectedTime spacing window := by
  obtain ⟨first, blocks, recent, -, length, -⟩ := exists_window enough
  have bound := abs_weightedSum_le spacing 1 first blocks
  rw [length] at bound
  rw [windowSolvetimes, recent, ← spacing_mul_weightsFrom, Int.natCast_mul, ← mul_assoc]
  exact bound

theorem averageTarget_le (within : ∀ header ∈ headers, WithinLimit limit header)
    (enough : window + 1 ≤ headers.length) : averageTarget window headers ≤ limit := by
  obtain ⟨first, blocks, -, recent, length, ofHeaders⟩ := exists_window enough
  have sum := sum_targetOf_le fun block member => within block (ofHeaders block member)
  rw [length] at sum
  rw [averageTarget, recent]
  exact Nat.div_le_of_le_mul sum

/-- The expected time of the C++ function. -/
theorem expectedTime_eq (bounds : LwmaBounds limit window spacing) {machine : Machine}
    (exact : machine.Exact) :
    machine .int32 ((window : Int) + 1) = some ((window + 1 : Nat) : Int) ∧
      machine .int64 ((window : Int) * ((window + 1 : Nat) : Int)) =
        some ((window * (window + 1) : Nat) : Int) ∧
      machine .int64 (((window * (window + 1) : Nat) : Int) * (spacing : Int)) =
        some ((2 * expectedTime spacing window : Nat) : Int) ∧
      ((2 * expectedTime spacing window : Nat) : Int).tdiv 2 = expectedTime spacing window := by
  have windowLe := bounds.window_le
  have windowMul := bounds.window_mul_le
  have small := bounds.expected_small
  refine ⟨exact (IntType.holds_signed.mpr (by omega)), ?_, ?_, ?_⟩
  · rw [← Int.natCast_mul]
    exact exact (IntType.holds_signed.mpr (by omega))
  · rw [← Int.natCast_mul, ← two_mul_expectedTime]
    exact exact (IntType.holds_signed.mpr (by omega))
  · rw [Int.tdiv_eq_ediv_of_nonneg (Int.natCast_nonneg _)]
    omega

/-- The sums of the C++ function over the window. -/
theorem lwmaSums_window (bounds : LwmaBounds limit window spacing) {machine : Machine}
    (exact : machine.Exact) {first : BlockHeader} {blocks : List BlockHeader}
    (length : blocks.length = window) (within : ∀ block ∈ blocks, WithinLimit limit block) :
    lwmaSums machine spacing window 1 first blocks ⟨0, 0, 0⟩ =
      some ⟨((blocks.map fun block => targetOf block / window).sum : Nat),
        ((blocks.map fun block => targetOf block % window).sum : Nat),
        weightedSum 1 (clampedSolvetimes spacing (first :: blocks))⟩ := by
  have windowLe := bounds.window_le
  have windowMul := bounds.window_mul_le
  have expected := bounds.expected_small
  have limitSmall := bounds.limit_small
  have quotients : window * (limit / window) ≤ limit := Nat.mul_div_le limit window
  have remainders : window * window ≤ window * (window + 1) :=
    Nat.mul_le_mul_left _ (Nat.le_succ window)
  have times : (6 * spacing * weightsFrom 1 window : Int) =
      ((6 * expectedTime spacing window : Nat) : Int) := by
    rw [← spacing_mul_weightsFrom]
    push_cast
    ring
  have sums := @lwmaSums_eq machine exact limit window spacing 1 (by omega) bounds.window_pos
    (by omega) first blocks within le_rfl 0 0 0 (by rw [length]; omega) (by rw [length]; omega)
    (by rw [length, times, abs_zero]; omega)
  simpa using sums

/-- The C++ function before the window is full. -/
theorem lwmaGetNextWorkRequired_short (bounds : LwmaBounds limit window spacing)
    {machine : Machine} (exact : machine.Exact) (short : headers.length < window + 1) :
    lwmaGetNextWorkRequired machine ⟨spacing, window, limit⟩ headers =
      some (compactForm limit) := by
  have limitSmall := bounds.limit_small
  obtain ⟨next, square, product, half⟩ := bounds.expectedTime_eq exact
  simp only [lwmaGetNextWorkRequired, next, square, product, half, Option.bind_eq_bind,
    Option.bind_some]
  rw [if_pos (by omega)]
  exact getCompact_eq exact (by omega)

/-- The C++ function, on any machine that stores what fits as it is. -/
theorem lwmaGetNextWorkRequired_eq (bounds : LwmaBounds limit window spacing)
    {machine : Machine} (exact : machine.Exact)
    (within : ∀ header ∈ headers, WithinLimit limit header)
    (enough : window + 1 ≤ headers.length) :
    lwmaGetNextWorkRequired machine ⟨spacing, window, limit⟩ headers =
      some (compactForm (nextTarget limit spacing window headers)) := by
  have averageLe := averageTarget_le within enough
  have timesLe := abs_le.mp (@abs_windowSolvetimes_le window spacing headers enough)
  have small := bounds.expected_small
  have limitSmall := bounds.limit_small
  have windowLe := bounds.window_le
  have windowPos := bounds.window_pos
  obtain ⟨first, blocks, recent, lastBlocks, length, ofHeaders⟩ := exists_window enough
  obtain ⟨next, square, product, half⟩ := bounds.expectedTime_eq exact
  have start : ((headers.length : Int) - 1 - window).toNat = headers.length - (window + 1) := by
    omega
  have sums := @lwmaSums_window limit window spacing bounds machine exact first blocks length
    fun block member => within block (ofHeaders block member)
  have averageEq : (blocks.map fun block => targetOf block / window).sum +
      (blocks.map fun block => targetOf block % window).sum / window =
        averageTarget window headers := by
    have split := sum_quotients_add_remainders (blocks.map targetOf) windowPos
    rw [List.map_map, List.map_map] at split
    rw [averageTarget, lastBlocks]
    exact split
  have average : machine .uint256 (averageTarget window headers : Int) =
      some (averageTarget window headers : Int) :=
    exact (IntType.holds_unsigned_natCast.mpr (by omega))
  have times : (if windowSolvetimes spacing window headers < 1 then 1
      else windowSolvetimes spacing window headers) =
        ((max 1 (windowSolvetimes spacing window headers)).toNat : Int) := by
    split_ifs <;> omega
  have scaled := @scaleTarget_eq machine exact limit (averageTarget window headers)
    (expectedTime spacing window) (max 1 (windowSolvetimes spacing window headers)).toNat
    limitSmall averageLe (by omega) (by omega) (by omega) (by omega)
  have solvetimes : weightedSum 1 (clampedSolvetimes spacing (first :: blocks)) =
      windowSolvetimes spacing window headers := by
    rw [windowSolvetimes, recent]
  simp only [lwmaGetNextWorkRequired, next, square, product, half, Option.bind_eq_bind,
    Option.bind_some]
  rw [if_neg (by omega), start, recent]
  simp only [sums, Option.bind_some, divide_natCast _ windowPos, ← Int.natCast_add, averageEq,
    average, solvetimes, times, scaled]
  exact getCompact_eq exact (lt_of_le_of_lt (min_le_left _ _) (by omega))

/-- The Python function, unless the exact next target is zero. -/
theorem calculateNextWorkRequiredLwmaWithin_eq (bounds : LwmaBounds limit window spacing)
    (limitBits : Nat) (within : ∀ header ∈ headers, WithinLimit limit header)
    (enough : window + 1 ≤ headers.length)
    (nonzero : expectedTime spacing window ≤ averageTarget window headers *
      (max 1 (windowSolvetimes spacing window headers)).toNat) :
    calculateNextWorkRequiredLwmaWithin limit limitBits headers spacing window =
      .ok (compactForm (nextTarget limit spacing window headers)) := by
  have windowLe := bounds.window_le
  have windowPos := bounds.window_pos
  obtain ⟨first, blocks, recent, lastBlocks, length, ofHeaders⟩ := exists_window enough
  have loop := @lwmaLoop_eq spacing 1 first blocks
    (fun block member => (within block (ofHeaders block member)).hasTarget) 0 0 0
  have solvetimes : weightedSum 1 (clampedSolvetimes spacing (first :: blocks)) =
      windowSolvetimes spacing window headers := by
    rw [windowSolvetimes, recent]
  have average : (blocks.map targetOf).sum / window = averageTarget window headers := by
    rw [averageTarget, lastBlocks]
  rw [Nat.zero_add, Int.zero_add, Nat.zero_add, solvetimes, length] at loop
  have times : (if windowSolvetimes spacing window headers ≤ 0 then 1
      else windowSolvetimes spacing window headers) =
        ((max 1 (windowSolvetimes spacing window headers)).toNat : Int) := by
    split_ifs <;> omega
  have expected : (spacing : Int) * (weightsFrom 1 window : Nat) =
      (expectedTime spacing window : Int) := by
    rw [← Int.natCast_mul, spacing_mul_weightsFrom]
  have expectedPos : 0 < expectedTime spacing window := by omega
  have quotient : 0 < averageTarget window headers *
      (max 1 (windowSolvetimes spacing window headers)).toNat / expectedTime spacing window :=
    Nat.div_pos nonzero expectedPos
  have exactTarget : Int.fdiv ((averageTarget window headers : Int) *
      ((max 1 (windowSolvetimes spacing window headers)).toNat : Int))
        (expectedTime spacing window : Int) =
      ((averageTarget window headers * (max 1 (windowSolvetimes spacing window headers)).toNat /
        expectedTime spacing window : Nat) : Int) := by
    rw [← Int.natCast_mul, Int.fdiv_eq_ediv_of_nonneg _ (Int.natCast_nonneg _),
      Int.natCast_ediv]
  have limitPos : 0 < limit := by
    have nonempty : blocks ≠ [] := by
      rintro rfl
      rw [List.length_nil] at length
      omega
    obtain ⟨block, member⟩ := List.exists_mem_of_ne_nil blocks nonempty
    obtain ⟨target, -, positive, bounded⟩ := within block (ofHeaders block member)
    omega
  rw [calculateNextWorkRequiredLwmaWithin, if_neg (by omega), recent]
  simp only [loop, if_neg (Nat.pos_iff_ne_zero.mp windowPos), average, expected, times,
    exactTarget]
  rw [if_neg (by omega), nextTarget]
  generalize averageTarget window headers *
    (max 1 (windowSolvetimes spacing window headers)).toNat /
      expectedTime spacing window = target at quotient
  have clamped : (if (target : Int) > limit ∨ (target : Int) ≤ 0 then (limit : Int)
      else target) = ((min limit target : Nat) : Int) := by
    split_ifs <;> omega
  rw [clamped, targetToBitsWithin_eq (lt_min limitPos quotient) (min_le_left _ _)]

end LwmaBounds

end Window

/-- The two implementations of the difficulty rule.  On the C++ side no
operation overflows: stopping at an overflow makes no difference, and the
result is the compact form of the exact next target, which is what the Python
function returns unless that target is zero.  Before the window is full both
return their form of the limit. -/
theorem lwma_implementations_agree {limit window spacing : Nat} (windowPos : 1 ≤ window)
    (spacingPos : 1 ≤ spacing) (expectedSmall : 6 * expectedTime spacing window < 2 ^ 32)
    (limitSmall : limit < 2 ^ 255) (limitBits : Nat) (headers : List BlockHeader)
    (within : ∀ header ∈ headers, WithinLimit limit header) :
    (window + 1 ≤ headers.length →
      lwmaGetNextWorkRequired checked ⟨spacing, window, limit⟩ headers =
        some (compactForm (nextTarget limit spacing window headers)) ∧
      lwmaGetNextWorkRequired wrapping ⟨spacing, window, limit⟩ headers =
        some (compactForm (nextTarget limit spacing window headers)) ∧
      (expectedTime spacing window ≤ averageTarget window headers *
          (max 1 (windowSolvetimes spacing window headers)).toNat →
        calculateNextWorkRequiredLwmaWithin limit limitBits headers spacing window =
          .ok (compactForm (nextTarget limit spacing window headers)))) ∧
    (headers.length < window + 1 →
      lwmaGetNextWorkRequired checked ⟨spacing, window, limit⟩ headers =
        some (compactForm limit) ∧
      lwmaGetNextWorkRequired wrapping ⟨spacing, window, limit⟩ headers =
        some (compactForm limit) ∧
      calculateNextWorkRequiredLwmaWithin limit limitBits headers spacing window =
        .ok limitBits) := by
  have bounds : LwmaBounds limit window spacing :=
    ⟨windowPos, spacingPos, expectedSmall, limitSmall⟩
  constructor
  · intro enough
    exact ⟨bounds.lwmaGetNextWorkRequired_eq checked_exact within enough,
      bounds.lwmaGetNextWorkRequired_eq wrapping_exact within enough,
      bounds.calculateNextWorkRequiredLwmaWithin_eq limitBits within enough⟩
  · intro short
    exact ⟨bounds.lwmaGetNextWorkRequired_short checked_exact short,
      bounds.lwmaGetNextWorkRequired_short wrapping_exact short, if_pos short⟩

/-- Two blocks at almost the same target, the second of them late. -/
def lateWindow : List BlockHeader :=
  [timedHeader 1000 0x1d00ffff, timedHeader 1050 0x1d00ffff, timedHeader 1130 0x1d00fffe]

/-- Both functions make the next block easier by a sixth. -/
theorem lateWindow_retarget :
    lwmaGetNextWorkRequired checked ⟨(60 : Nat), (2 : Nat), powLimitTarget⟩ lateWindow =
        some 0x1d012aa8 ∧
      calculateNextWorkRequiredLwma lateWindow (60 : Nat) 2 = .ok 0x1d012aa8 := by
  have within : ∀ header ∈ lateWindow, WithinLimit powLimitTarget header := by
    intro header member
    simp only [lateWindow, List.mem_cons, List.not_mem_nil, or_false] at member
    rcases member with rfl | rfl | rfl
    · exact ⟨0xffff * 2 ^ 208, by decide, by decide, by decide⟩
    · exact ⟨0xffff * 2 ^ 208, by decide, by decide, by decide⟩
    · exact ⟨0xfffe * 2 ^ 208, by decide, by decide, by decide⟩
  obtain ⟨cpp, -, python⟩ := (@lwma_implementations_agree powLimitTarget 2 60 (by decide)
    (by decide) (by decide) (by decide) powLimitBits lateWindow within).1 (by decide)
  have next : compactForm (nextTarget powLimitTarget 60 2 lateWindow) = 0x1d012aa8 := by
    decide
  rw [next] at cpp python
  exact ⟨cpp, (calculateNextWorkRequiredLwma_eq_within _ _ _).trans (python (by decide))⟩

end QuantyCoin
