import QuantyCoin.LwmaRetarget

/-!
# How the difficulty rule responds to its window

Up to the limit and the compact form, the next target is the average target
scaled by the weighted solve times over their expected sum.  Slower blocks and
higher targets raise it, and a window that keeps to the schedule at one target
leaves that target as it is.
-/

namespace QuantyCoin

/-! ## The exact next target -/

/-- `next_target` of `calculate_next_work_required_lwma` as it is computed from
the headers of `recent`, before it is compared with the limit. -/
def unclampedNextTarget (first : BlockHeader) (recent : List BlockHeader)
    (targetSpacing : Int) (n : Nat) : Except PyException Int :=
  match lwmaLoop targetSpacing 1 first recent (0, 0, 0) with
  | .error error => .error error
  | .ok (sumTargets, t, weight) =>
      if n = 0 then .error divisionByZero
      else
        let avgTarget := sumTargets / n
        let expectedT := targetSpacing * weight
        let t := if t ≤ 0 then 1 else t
        if expectedT = 0 then .error divisionByZero
        else .ok (Int.fdiv (avgTarget * t) expectedT)

/-- The end of the function: the limit and the compact form. -/
def clampAndEncode (nextTarget : Int) : Nat :=
  targetToBits
    (if nextTarget > powLimitTarget ∨ nextTarget ≤ 0 then (powLimitTarget : Int)
    else nextTarget)

theorem calculateNextWorkRequiredLwma_window {first : BlockHeader} {recent : List BlockHeader}
    {targetSpacing : Int} {n : Nat} (length : recent.length = n) :
    calculateNextWorkRequiredLwma (first :: recent) targetSpacing n =
      (unclampedNextTarget first recent targetSpacing n).map clampAndEncode := by
  have notShort : ¬ (first :: recent).length < n + 1 := by
    rw [List.length_cons]
    omega
  have whole : (first :: recent).length - (n + 1) = 0 := by
    rw [List.length_cons]
    omega
  rw [calculateNextWorkRequiredLwma, if_neg notShort, whole, List.drop_zero,
    unclampedNextTarget]
  dsimp only
  rcases lwmaLoop targetSpacing 1 first recent (0, 0, 0) with error | ⟨sumTargets, t, weight⟩
  · rfl
  · simp only [apply_ite (Except.map clampAndEncode)]
    rfl

/-- The next target as a number. -/
def exactNextTarget (spacing window : Nat) (headers : List BlockHeader) : Nat :=
  averageTarget window headers * (max 1 (windowSolvetimes spacing window headers)).toNat /
    expectedTime spacing window

/-- A window of the rule: one header and the blocks behind it, with valid bits. -/
structure LwmaWindow (window : Nat) (first : BlockHeader) (recent : List BlockHeader) :
    Prop where
  length : recent.length = window
  valid : ∀ header ∈ recent, HasTarget header

namespace LwmaWindow

variable {spacing window : Nat} {first : BlockHeader} {recent : List BlockHeader}

theorem averageTarget_eq (isWindow : LwmaWindow window first recent) :
    averageTarget window (first :: recent) = (recent.map targetOf).sum / window := by
  have rest : (first :: recent).length - window = 1 := by
    rw [List.length_cons, isWindow.length]
    omega
  rw [averageTarget, rest, List.drop_one, List.tail_cons]

theorem windowSolvetimes_eq (isWindow : LwmaWindow window first recent) :
    windowSolvetimes spacing window (first :: recent) =
      weightedSum 1 (clampedSolvetimes spacing (first :: recent)) := by
  have all : (first :: recent).length - (window + 1) = 0 := by
    rw [List.length_cons, isWindow.length]
    omega
  rw [windowSolvetimes, all, List.drop_zero]

/-- The division by the expected time is the only one that can fail. -/
theorem unclampedNextTarget_eq (isWindow : LwmaWindow window first recent) :
    unclampedNextTarget first recent spacing window =
      if expectedTime spacing window = 0 then .error divisionByZero
      else .ok (exactNextTarget spacing window (first :: recent) : Nat) := by
  have loop := @lwmaLoop_eq spacing 1 first recent isWindow.valid 0 0 0
  rw [Nat.zero_add, Int.zero_add, Nat.zero_add, isWindow.length,
    ← isWindow.windowSolvetimes_eq] at loop
  have noneExpected : window = 0 → expectedTime spacing window = 0 := by
    rintro rfl
    rw [expectedTime, Nat.mul_zero, Nat.zero_mul, Nat.zero_div]
  have expected : (spacing : Int) * (weightsFrom 1 window : Nat) =
      (expectedTime spacing window : Int) := by
    rw [← Int.natCast_mul, spacing_mul_weightsFrom]
  have times : (if windowSolvetimes spacing window (first :: recent) ≤ 0 then 1
      else windowSolvetimes spacing window (first :: recent)) =
        ((max 1 (windowSolvetimes spacing window (first :: recent))).toNat : Int) := by
    split_ifs <;> omega
  rw [unclampedNextTarget, loop]
  simp only [expected, times, ← isWindow.averageTarget_eq]
  split_ifs with empty none none
  · rfl
  · exact absurd (noneExpected empty) none
  · rfl
  · omega
  · omega
  · rw [exactNextTarget, ← Int.natCast_mul, Int.fdiv_eq_ediv_of_nonneg _ (Int.natCast_nonneg _),
      Int.natCast_ediv]

end LwmaWindow

/-! ## Monotonicity -/

/-- The solve times of a window, before any of them is clamped. -/
def solvetimes : List BlockHeader → List Int
  | previous :: header :: headers =>
      ((header.timestamp.toNat : Int) - previous.timestamp.toNat) :: solvetimes (header :: headers)
  | _ => []

theorem clampedSolvetimes_eq (spacing : Nat) (headers : List BlockHeader) :
    clampedSolvetimes spacing headers =
      (solvetimes headers).map fun time => max (-6 * (spacing : Int)) (min time (6 * spacing)) := by
  induction headers with
  | nil => rfl
  | cons previous headers ih =>
      cases headers with
      | nil => rfl
      | cons header headers => rw [clampedSolvetimes, solvetimes, List.map_cons, ih, clampedSolvetime]

/-- Weighted sums are monotone in every entry. -/
theorem weightedSum_mono {times times' : List Int} (weight : Nat)
    (ordered : List.Forall₂ (· ≤ ·) times times') :
    weightedSum weight times ≤ weightedSum weight times' := by
  induction ordered generalizing weight with
  | nil => exact le_rfl
  | cons le _ ih =>
      rw [weightedSum, weightedSum]
      exact add_le_add (mul_le_mul_of_nonneg_right le (Int.natCast_nonneg weight)) (ih (weight + 1))

/-- A sum of equal entries is the entry times the sum of the weights. -/
theorem weightedSum_of_const {times : List Int} {time : Int} (weight : Nat)
    (const : ∀ entry ∈ times, entry = time) :
    weightedSum weight times = time * weightsFrom weight times.length := by
  induction times generalizing weight with
  | nil => simp [weightedSum, weightsFrom]
  | cons entry times ih =>
      rw [weightedSum, List.length_cons, weightsFrom, const entry (by simp),
        ih (weight + 1) fun other member => const other (by simp [member]), Int.natCast_add,
        mul_add]

theorem length_solvetimes (first : BlockHeader) (recent : List BlockHeader) :
    (solvetimes (first :: recent)).length = recent.length := by
  induction recent generalizing first with
  | nil => rfl
  | cons header recent ih => rw [solvetimes, List.length_cons, ih, List.length_cons]

section Monotonicity

variable {spacing window : Nat} {first first' : BlockHeader} {recent recent' : List BlockHeader}

/-- Shorter solve times make a smaller weighted sum. -/
theorem windowSolvetimes_mono (isWindow : LwmaWindow window first recent)
    (isWindow' : LwmaWindow window first' recent')
    (faster : List.Forall₂ (· ≤ ·) (solvetimes (first' :: recent')) (solvetimes (first :: recent))) :
    windowSolvetimes spacing window (first' :: recent') ≤
      windowSolvetimes spacing window (first :: recent) := by
  rw [isWindow.windowSolvetimes_eq, isWindow'.windowSolvetimes_eq, clampedSolvetimes_eq,
    clampedSolvetimes_eq]
  apply weightedSum_mono
  rw [List.forall₂_map_left_iff, List.forall₂_map_right_iff]
  exact faster.imp fun _ _ le => max_le_max_left _ (min_le_min_right _ le)

theorem averageTarget_mono (isWindow : LwmaWindow window first recent)
    (isWindow' : LwmaWindow window first' recent')
    (harder : List.Forall₂ (· ≤ ·) (recent'.map targetOf) (recent.map targetOf)) :
    averageTarget window (first' :: recent') ≤ averageTarget window (first :: recent) := by
  rw [isWindow.averageTarget_eq, isWindow'.averageTarget_eq]
  exact Nat.div_le_div_right harder.sum_le_sum

theorem exactNextTarget_mono (isWindow : LwmaWindow window first recent)
    (isWindow' : LwmaWindow window first' recent')
    (faster : List.Forall₂ (· ≤ ·) (solvetimes (first' :: recent')) (solvetimes (first :: recent)))
    (harder : List.Forall₂ (· ≤ ·) (recent'.map targetOf) (recent.map targetOf)) :
    exactNextTarget spacing window (first' :: recent') ≤
      exactNextTarget spacing window (first :: recent) := by
  have times := @windowSolvetimes_mono spacing window first first' recent recent' isWindow
    isWindow' faster
  have targets := averageTarget_mono isWindow isWindow' harder
  rw [exactNextTarget, exactNextTarget]
  apply Nat.div_le_div_right
  exact Nat.mul_le_mul targets (Int.toNat_le_toNat (max_le_max_left 1 times))

end Monotonicity

/-! ## The result in compact form -/

/-- Above zero the limit is all that the end of the function adds. -/
theorem clampAndEncode_of_pos {nextTarget : Nat} (positive : 0 < nextTarget) :
    clampAndEncode nextTarget = targetToBits nextTarget := by
  rw [clampAndEncode, targetToBits_min nextTarget]
  congr 1
  split_ifs <;> omega

section Results

variable {spacing window : Nat} {first : BlockHeader} {recent : List BlockHeader}

theorem expectedTime_pos (spacingPos : 1 ≤ spacing) (windowPos : 1 ≤ window) :
    0 < expectedTime spacing window := by
  rw [← spacing_mul_weightsFrom]
  obtain ⟨count, rfl⟩ := Nat.exists_eq_add_one.mpr windowPos
  rw [weightsFrom]
  positivity

/-- With an average target of at least the expected time the exact next target
is positive, so the result is its compact form. -/
theorem calculateNextWorkRequiredLwma_of_enough (spacingPos : 1 ≤ spacing)
    (windowPos : 1 ≤ window) (isWindow : LwmaWindow window first recent)
    (enough : expectedTime spacing window ≤ averageTarget window (first :: recent)) :
    0 < exactNextTarget spacing window (first :: recent) ∧
      calculateNextWorkRequiredLwma (first :: recent) spacing window =
        .ok (targetToBits (exactNextTarget spacing window (first :: recent))) := by
  have expectedPos := expectedTime_pos spacingPos windowPos
  have positive : 0 < exactNextTarget spacing window (first :: recent) := by
    apply Nat.div_pos _ expectedPos
    calc
      expectedTime spacing window ≤ averageTarget window (first :: recent) := enough
      _ ≤ _ := Nat.le_mul_of_pos_right _ (by omega)
  refine ⟨positive, ?_⟩
  rw [calculateNextWorkRequiredLwma_window isWindow.length,
    isWindow.unclampedNextTarget_eq, if_neg expectedPos.ne', Except.map,
    clampAndEncode_of_pos positive]

/-- A window that keeps to the schedule at one target leaves the target as it is. -/
theorem exactNextTarget_of_steady (spacingPos : 1 ≤ spacing) (windowPos : 1 ≤ window)
    (isWindow : LwmaWindow window first recent)
    (onTime : ∀ time ∈ solvetimes (first :: recent), time = spacing) {target : Nat}
    (same : ∀ header ∈ recent, targetOf header = target) :
    exactNextTarget spacing window (first :: recent) = target := by
  have expectedPos := expectedTime_pos spacingPos windowPos
  have average : averageTarget window (first :: recent) = target := by
    have targets : ∀ entry ∈ recent.map targetOf, entry = target := by
      intro entry member
      obtain ⟨header, isHeader, rfl⟩ := List.mem_map.mp member
      exact same header isHeader
    have sum : (recent.map targetOf).sum = window * target := by
      simpa [isWindow.length] using List.sum_eq_card_nsmul _ _ targets
    rw [isWindow.averageTarget_eq, sum, Nat.mul_div_cancel_left _ windowPos]
  have clamped : ∀ time ∈ clampedSolvetimes spacing (first :: recent), time = spacing := by
    intro time member
    rw [clampedSolvetimes_eq] at member
    obtain ⟨raw, isRaw, rfl⟩ := List.mem_map.mp member
    rw [onTime raw isRaw]
    omega
  have times : windowSolvetimes spacing window (first :: recent) = expectedTime spacing window := by
    rw [isWindow.windowSolvetimes_eq, weightedSum_of_const 1 clamped, clampedSolvetimes_eq,
      List.length_map, length_solvetimes, isWindow.length, ← Int.natCast_mul,
      spacing_mul_weightsFrom]
  have kept : (max 1 (expectedTime spacing window : Int)).toNat = expectedTime spacing window := by
    omega
  rw [exactNextTarget, average, times, kept, Nat.mul_div_cancel _ expectedPos]

end Results

/-- Bits that `target_to_bits` writes for their own target. -/
structure CanonicalBits (bits : UInt32) (target : Nat) : Prop where
  decoded : bitsToTarget bits.toNat = .ok target
  encoded : targetToBits target = bits.toNat

theorem targetOf_of_decoded {header : BlockHeader} {target : Nat}
    (decoded : bitsToTarget header.bits.toNat = .ok target) : targetOf header = target := by
  rw [targetOf, decoded]

/-- The rule is monotone: shorter solve times and lower targets never make the
next target, read back from its bits, higher.  On schedule, canonical bits are
a fixed point. -/
theorem lwma_monotone_and_steady {spacing window : Nat} (spacingPos : 1 ≤ spacing)
    (windowPos : 1 ≤ window) {first : BlockHeader} {recent : List BlockHeader}
    (isWindow : LwmaWindow window first recent)
    (enough : expectedTime spacing window ≤ averageTarget window (first :: recent)) :
    (∀ (first' : BlockHeader) (recent' : List BlockHeader), LwmaWindow window first' recent' →
      expectedTime spacing window ≤ averageTarget window (first' :: recent') →
      List.Forall₂ (· ≤ ·) (solvetimes (first' :: recent')) (solvetimes (first :: recent)) →
      List.Forall₂ (· ≤ ·) (recent'.map targetOf) (recent.map targetOf) →
      ∃ bits bits' target target',
        calculateNextWorkRequiredLwma (first :: recent) spacing window = .ok bits ∧
        calculateNextWorkRequiredLwma (first' :: recent') spacing window = .ok bits' ∧
        bitsToTarget bits = .ok target ∧ bitsToTarget bits' = .ok target' ∧
        target' ≤ target) ∧
    ∀ (bits : UInt32) (target : Nat), CanonicalBits bits target →
      (∀ time ∈ solvetimes (first :: recent), time = spacing) →
      (∀ header ∈ recent, header.bits = bits) →
      calculateNextWorkRequiredLwma (first :: recent) spacing window = .ok bits.toNat := by
  obtain ⟨positive, required⟩ :=
    calculateNextWorkRequiredLwma_of_enough spacingPos windowPos isWindow enough
  constructor
  · intro first' recent' isWindow' enough' faster harder
    obtain ⟨positive', required'⟩ :=
      calculateNextWorkRequiredLwma_of_enough spacingPos windowPos isWindow' enough'
    have ordered := @exactNextTarget_mono spacing window first first' recent recent' isWindow
      isWindow' faster harder
    obtain ⟨target', target, read', read, le⟩ := bitsToTarget_targetToBits_mono
      (Int.natCast_pos.mpr positive') (Int.ofNat_le.mpr ordered)
    exact ⟨_, _, target, target', required, required', read, read', le⟩
  · intro bits target canonical onTime same
    have targets : ∀ header ∈ recent, targetOf header = target := by
      intro header member
      apply targetOf_of_decoded
      rw [same header member]
      exact canonical.decoded
    rw [required, exactNextTarget_of_steady spacingPos windowPos isWindow onTime targets,
      canonical.encoded]

/-- Two blocks on schedule, and the same two sooner and at lower targets. -/
theorem steadyWindow_retarget :
    calculateNextWorkRequiredLwma [timedHeader 1000 0x1d00ffff, timedHeader 1060 0x1d00ffff,
        timedHeader 1120 0x1d00ffff] (60 : Nat) 2 = .ok 0x1d00ffff ∧
      ∃ bits bits' target target',
        calculateNextWorkRequiredLwma [timedHeader 1000 0x1d00ffff, timedHeader 1060 0x1d00ffff,
            timedHeader 1120 0x1d00ffff] (60 : Nat) 2 = .ok bits ∧
          calculateNextWorkRequiredLwma [timedHeader 1000 0x1d00ffff, timedHeader 1050 0x1d00fffe,
            timedHeader 1090 0x1d00ffff] (60 : Nat) 2 = .ok bits' ∧
          bitsToTarget bits = .ok target ∧ bitsToTarget bits' = .ok target' ∧
          target' ≤ target := by
  have high : CanonicalBits 0x1d00ffff (0xffff * 2 ^ 208) :=
    ⟨by decide, by decide⟩
  have highTarget (time : UInt32) : HasTarget (timedHeader time 0x1d00ffff) :=
    ⟨_, high.decoded⟩
  have lowTarget : HasTarget (timedHeader 1050 0x1d00fffe) :=
    ⟨0xfffe * 2 ^ 208, by decide⟩
  have onTime : LwmaWindow 2 (timedHeader 1000 0x1d00ffff)
      [timedHeader 1060 0x1d00ffff, timedHeader 1120 0x1d00ffff] :=
    ⟨rfl, by simp [highTarget]⟩
  have sooner : LwmaWindow 2 (timedHeader 1000 0x1d00ffff)
      [timedHeader 1050 0x1d00fffe, timedHeader 1090 0x1d00ffff] :=
    ⟨rfl, by simp [highTarget, lowTarget]⟩
  obtain ⟨monotone, steady⟩ := lwma_monotone_and_steady (by decide : 1 ≤ 60) (by decide)
    onTime (by decide)
  exact ⟨steady _ _ high (by decide) (by simp [timedHeader]),
    monotone _ _ sooner (by decide) (by decide) (by decide)⟩

end QuantyCoin
