import Mathlib.Tactic.Linarith
import QuantyCoin.LwmaMonotonicity

/-!
# How far the difficulty moves between two blocks

The code clamps every solve time to six times the spacing, and the weighted sum
only from below by one.  So the next target is at most six times the average
target, and at least the average divided by the expected time.  It leaves the
range of a factor of four around the average exactly if the weighted sum leaves
the range from a quarter to four times the expected time by more than the two
divisions round away.
-/

namespace QuantyCoin

/-- The weighted solve times are between a quarter and four times the expected
time, up to what rounding hides at an average target. -/
def InClampRange (average times expected : Nat) : Prop :=
  (average : Int) * (expected - 4 * times) ≤ (average % 4 : Nat) * expected ∧
    (average : Int) * (times - 4 * expected) < expected

/-- A scaled average is within a factor of four exactly if the times are in the
range. -/
theorem inClampRange_iff {average times expected : Nat} (positive : 0 < expected) :
    InClampRange average times expected ↔
      average / 4 ≤ average * times / expected ∧ average * times / expected ≤ 4 * average := by
  have upperIff : average * times / expected ≤ 4 * average ↔
      average * times < (4 * average + 1) * expected := by
    rw [← Nat.div_lt_iff_lt_mul positive, Nat.lt_succ_iff]
  have parts := Nat.div_add_mod average 4
  rw [InClampRange, Nat.le_div_iff_mul_le positive, upperIff]
  generalize average / 4 = quarter at parts
  generalize average % 4 = rest at parts
  subst parts
  zify
  constructor
  · rintro ⟨lower, upper⟩
    constructor <;> linarith
  · rintro ⟨lower, upper⟩
    constructor <;> linarith

/-- A time of at least one leaves the range if nothing is expected. -/
theorem not_inClampRange_zero {average times : Nat} :
    ¬ InClampRange average times 0 := by
  rintro ⟨-, upper⟩
  have nonneg : (0 : Int) ≤ average * times := by positivity
  simp only [Nat.cast_zero, mul_zero, sub_zero] at upper
  omega

/-- For every window with valid bits the exact next target is within a factor of
four of the average target exactly if the weighted solve times, at least one,
are in the documented range. -/
theorem nextTarget_within_factor_four_iff {spacing window : Nat} {first : BlockHeader}
    {recent : List BlockHeader} (isWindow : LwmaWindow window first recent) :
    (∃ next : Int,
      unclampedNextTarget first recent spacing window = .ok next ∧
      calculateNextWorkRequiredLwma (first :: recent) spacing window =
        .ok (clampAndEncode next) ∧
      (averageTarget window (first :: recent) / 4 : Nat) ≤ next ∧
      next ≤ 4 * averageTarget window (first :: recent)) ↔
    InClampRange (averageTarget window (first :: recent))
      (max 1 (windowSolvetimes spacing window (first :: recent))).toNat
      (expectedTime spacing window) := by
  rw [calculateNextWorkRequiredLwma_window isWindow.length, isWindow.unclampedNextTarget_eq]
  rcases Nat.eq_zero_or_pos (expectedTime spacing window) with none | positive
  · rw [if_pos none, none]
    simp [not_inClampRange_zero]
  · rw [if_neg positive.ne', inClampRange_iff positive]
    constructor
    · rintro ⟨next, isNext, -, lower, upper⟩
      cases isNext
      rw [exactNextTarget] at lower upper
      exact ⟨by exact_mod_cast lower, by exact_mod_cast upper⟩
    · rintro ⟨lower, upper⟩
      exact ⟨_, rfl, rfl, Int.ofNat_le.mpr lower, by exact_mod_cast upper⟩

/-- Headers at one target, a fixed time apart. -/
def pacedHeaders (count gap : Nat) : List BlockHeader :=
  (List.range count).map fun index => timedHeader (UInt32.ofNat (gap * (index + 1))) 0x1d00ffff

theorem pacedHeaders_window (count gap : Nat) :
    LwmaWindow count (timedHeader 0 0x1d00ffff) (pacedHeaders count gap) := by
  refine ⟨by simp [pacedHeaders], ?_⟩
  intro header member
  obtain ⟨index, -, rfl⟩ := List.mem_map.mp member
  have decoded : bitsToTarget ((0x1d00ffff : UInt32).toNat : Nat) = .ok (0xffff * 2 ^ 208) := by
    decide
  exact ⟨_, decoded⟩

/-- The weighted solve times, at least one, are at most six times the expected time. -/
theorem LwmaWindow.times_le {spacing window : Nat} {first : BlockHeader}
    {recent : List BlockHeader} (isWindow : LwmaWindow window first recent)
    (positive : 0 < expectedTime spacing window) :
    (max 1 (windowSolvetimes spacing window (first :: recent))).toNat ≤
      6 * expectedTime spacing window := by
  have enough : window + 1 ≤ (first :: recent).length := by
    rw [List.length_cons, isWindow.length]
  have bound := (abs_le.mp (@LwmaBounds.abs_windowSolvetimes_le window spacing _ enough)).2
  omega

/-- The clamps on the single solve times bound the next target by six times the average
from above; from below only the sum's own lower bound of one does.  Within a factor of
four it is exactly if the weighted sum is in the range. -/
theorem nextTarget_bounds {spacing window : Nat} {first : BlockHeader}
    {recent : List BlockHeader} (spacingPos : 1 ≤ spacing) (windowPos : 1 ≤ window)
    (isWindow : LwmaWindow window first recent) :
    ∃ next : Int,
      unclampedNextTarget first recent spacing window = .ok next ∧
      calculateNextWorkRequiredLwma (first :: recent) spacing window =
        .ok (clampAndEncode next) ∧
      (averageTarget window (first :: recent) / expectedTime spacing window : Nat) ≤ next ∧
      next ≤ 6 * averageTarget window (first :: recent) ∧
      (((averageTarget window (first :: recent) / 4 : Nat) ≤ next ∧
          next ≤ 4 * averageTarget window (first :: recent)) ↔
        InClampRange (averageTarget window (first :: recent))
          (max 1 (windowSolvetimes spacing window (first :: recent))).toNat
          (expectedTime spacing window)) := by
  have positive := expectedTime_pos spacingPos windowPos
  have timesLe := isWindow.times_le positive
  have timesPos : 1 ≤ (max 1 (windowSolvetimes spacing window (first :: recent))).toNat := by
    omega
  have isNext := @LwmaWindow.unclampedNextTarget_eq spacing window first recent isWindow
  rw [if_neg positive.ne'] at isNext
  rw [calculateNextWorkRequiredLwma_window isWindow.length, isNext, inClampRange_iff positive]
  refine ⟨_, rfl, rfl, ?_, ?_, ?_⟩
  · refine Int.ofNat_le.mpr (Nat.div_le_div_right ?_)
    exact Nat.le_mul_of_pos_right _ timesPos
  · have upper : exactNextTarget spacing window (first :: recent) ≤
        6 * averageTarget window (first :: recent) := by
      rw [exactNextTarget]
      apply Nat.div_le_of_le_mul
      calc averageTarget window (first :: recent) *
            (max 1 (windowSolvetimes spacing window (first :: recent))).toNat
          ≤ averageTarget window (first :: recent) * (6 * expectedTime spacing window) :=
            Nat.mul_le_mul_left _ timesLe
        _ = expectedTime spacing window * (6 * averageTarget window (first :: recent)) := by
            ring
    exact_mod_cast upper
  · rw [exactNextTarget]
    norm_cast

/-- Blocks on schedule stay in the range. -/
theorem pacedHeaders_bounds :
    ∃ next : Int, unclampedNextTarget (timedHeader 0 0x1d00ffff) (pacedHeaders 2 60) (60 : Nat) 2 =
      .ok next ∧
      calculateNextWorkRequiredLwma (timedHeader 0 0x1d00ffff :: pacedHeaders 2 60) (60 : Nat) 2 =
        .ok (clampAndEncode next) ∧
      (averageTarget 2 (timedHeader 0 0x1d00ffff :: pacedHeaders 2 60) / expectedTime 60 2 : Nat) ≤
        next ∧
      next ≤ 6 * averageTarget 2 (timedHeader 0 0x1d00ffff :: pacedHeaders 2 60) ∧
      (averageTarget 2 (timedHeader 0 0x1d00ffff :: pacedHeaders 2 60) / 4 : Nat) ≤ next ∧
      next ≤ 4 * averageTarget 2 (timedHeader 0 0x1d00ffff :: pacedHeaders 2 60) := by
  obtain ⟨next, isNext, result, lower, upper, inRange⟩ :=
    @nextTarget_bounds 60 2 _ _ (by decide) (by decide) (pacedHeaders_window 2 60)
  have within := inRange.mpr ⟨by decide, by decide⟩
  exact ⟨next, isNext, result, lower, upper, within⟩

/-- With the node's own window, blocks that are six times too slow make the next
target six times as high. -/
theorem slowBlocks_exceed_factor_four :
    ¬ ∀ (spacing window : Nat) (first : BlockHeader) (recent : List BlockHeader),
      LwmaWindow window first recent → 4 ≤ averageTarget window (first :: recent) →
      averageTarget window (first :: recent) ≤ powLimitTarget →
      ∃ next : Int, unclampedNextTarget first recent spacing window = .ok next ∧
        (averageTarget window (first :: recent) / 4 : Nat) ≤ next ∧
        next ≤ 4 * averageTarget window (first :: recent) := by
  intro within
  obtain ⟨next, isNext, -, upper⟩ := within laneTargetSpacing difficultyRetargetInterval _ _
    (pacedHeaders_window difficultyRetargetInterval 720) (by decide) (by decide)
  have sixfold : unclampedNextTarget (timedHeader 0 0x1d00ffff)
      (pacedHeaders difficultyRetargetInterval 720) (laneTargetSpacing : Nat)
        difficultyRetargetInterval = .ok (6 * (0xffff * 2 ^ 208)) := by
    decide
  have average : averageTarget difficultyRetargetInterval (timedHeader 0 0x1d00ffff ::
      pacedHeaders difficultyRetargetInterval 720) = 0xffff * 2 ^ 208 := by
    decide
  rw [sixfold] at isNext
  cases isNext
  rw [average] at upper
  exact absurd upper (by decide)

end QuantyCoin
