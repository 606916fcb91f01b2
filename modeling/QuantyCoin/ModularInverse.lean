import Mathlib.Data.Int.ModEq
import QuantyCoin.Secp256k1
import QuantyCoin.WhileLoops

/-!
# Modular inverses

The loop of `_mod_inverse` as a while loop on its four variables.  The greatest common
divisor of both remainders stays, and each remainder is congruent to its cofactor times
the number.  The second cofactor, which Bezout's identity has too, is never computed.
-/

namespace QuantyCoin

namespace Secp256k1

open WhileLoops

/-! ## The loop -/

/-- The variables of the loop. -/
structure EuclidState where
  prevR : Int
  r : Int
  prevX : Int
  x : Int

namespace EuclidState

/-- `r != 0`. -/
def guard (state : EuclidState) : Prop := state.r ≠ 0

/-- The body of the loop, whose division rounds down. -/
def round (state : EuclidState) : EuclidState :=
  let q := state.prevR.fdiv state.r
  ⟨state.r, state.prevR - q * state.r, state.x, state.prevX - q * state.x⟩

/-- The variables before the loop. -/
def start (a : Int) (m : Nat) : EuclidState :=
  ⟨if a < 0 then (a % m + m) % m else a, m, 1, 0⟩

/-- What each round keeps. -/
structure Invariant (a : Int) (m : Nat) (state : EuclidState) : Prop where
  prevNonneg : 0 ≤ state.prevR
  nonneg : 0 ≤ state.r
  gcd_eq : Int.gcd state.prevR state.r = Int.gcd a m
  prevBezout : state.prevR ≡ state.prevX * a [ZMOD m]
  bezout : state.r ≡ state.x * a [ZMOD m]

variable {a : Int} {m : Nat} {state final : EuclidState}

/-- The next remainder. -/
theorem round_r (nonneg : 0 ≤ state.r) : state.round.r = state.prevR % state.r := by
  change state.prevR - state.prevR.fdiv state.r * state.r = _
  rw [Int.fdiv_eq_ediv_of_nonneg _ nonneg, Int.emod_def, Int.mul_comm]

theorem Invariant.start (positive : 0 < m) : (EuclidState.start a m).Invariant a m := by
  have positive' : (0 : Int) < m := Int.natCast_pos.mpr positive
  have reduced : (a % m + m) % m = a % m := by rw [Int.add_emod_right, Int.emod_emod]
  refine ⟨?_, Int.natCast_nonneg m, ?_, ?_, ?_⟩
  · change 0 ≤ if a < 0 then (a % m + m) % m else a
    split_ifs with negative
    · exact Int.emod_nonneg _ positive'.ne'
    · exact Int.not_lt.mp negative
  · change Int.gcd (if a < 0 then (a % m + m) % m else a) m = _
    split_ifs
    · rw [reduced, Int.gcd_emod]
    · rfl
  · change (if a < 0 then (a % m + m) % m else a) ≡ 1 * a [ZMOD m]
    rw [Int.one_mul]
    split_ifs
    · rw [reduced]
      exact Int.mod_modEq a m
    · exact Int.ModEq.refl a
  · change (m : Int) ≡ 0 * a [ZMOD m]
    rw [Int.zero_mul]
    exact Int.modEq_zero_iff_dvd.mpr (Int.dvd_refl _)

/-- Both congruences combine to that of the next remainder. -/
theorem Invariant.round (holds : state.Invariant a m) (more : state.guard) :
    state.round.Invariant a m := by
  have positive : 0 < state.r := lt_of_le_of_ne holds.nonneg (Ne.symm more)
  refine ⟨holds.nonneg, ?_, ?_, holds.bezout, ?_⟩
  · rw [round_r holds.nonneg]
    exact Int.emod_nonneg _ more
  · rw [round_r holds.nonneg]
    change Int.gcd state.r (state.prevR % state.r) = _
    rw [Int.gcd_comm, Int.gcd_emod, holds.gcd_eq]
  · change state.prevR - state.prevR.fdiv state.r * state.r ≡
      (state.prevX - state.prevR.fdiv state.r * state.x) * a [ZMOD m]
    have scaled := holds.bezout.mul_left (state.prevR.fdiv state.r)
    have combined := holds.prevBezout.sub scaled
    rwa [← Int.mul_assoc, ← Int.sub_mul] at combined

theorem round_decreases (nonneg : 0 ≤ state.r) (more : state.guard) :
    state.round.r.toNat < state.r.toNat := by
  have positive : 0 < state.r := lt_of_le_of_ne nonneg (Ne.symm more)
  have below := Int.emod_lt_of_pos state.prevR positive
  have remainder := Int.emod_nonneg state.prevR more
  rw [round_r nonneg]
  omega

/-- The loop ends for every number and every positive modulus. -/
theorem exists_ends_start (a : Int) {m : Nat} (positive : 0 < m) :
    ∃ final, Ends guard round (EuclidState.start a m) final :=
  exists_ends (fun state => state.r.toNat) (fun _ holds more => Invariant.round holds more)
    (fun _ holds more => round_decreases holds.nonneg more) (Invariant.start positive)

/-- With enough fuel the recursion computes the last cofactor of the loop. -/
theorem euclidLoop_of_ends (ends : Ends guard round state final) (nonneg : 0 ≤ state.r)
    {fuel : Nat} (enough : state.r < fuel) :
    euclidLoop fuel state.prevR state.r state.prevX state.x = final.prevX := by
  induction ends generalizing fuel with
  | @leave state done =>
      cases fuel with
      | zero => rfl
      | succ fuel => rw [euclidLoop, if_pos (not_not.mp done)]
  | @round state final more rest ih =>
      have decreases := round_decreases nonneg more
      have nonneg' : 0 ≤ state.round.r := by
        rw [round_r nonneg]
        exact Int.emod_nonneg _ more
      cases fuel with
      | zero => omega
      | succ fuel =>
          rw [euclidLoop, if_neg more, ← Int.fdiv_eq_ediv_of_nonneg _ nonneg]
          exact ih nonneg' (by omega)

end EuclidState

/-! ## The result -/

theorem modInverse_eq_of_ends {a : Int} {m : Nat} {final : EuclidState}
    (ends : Ends EuclidState.guard EuclidState.round (EuclidState.start a m) final) :
    modInverse a m = (final.prevX % m + m) % m := by
  have loop := EuclidState.euclidLoop_of_ends ends (Int.natCast_nonneg m)
    (show (m : Int) < (m + 1 : Nat) by omega)
  change (euclidLoop (m + 1) (EuclidState.start a m).prevR (EuclidState.start a m).r
    (EuclidState.start a m).prevX (EuclidState.start a m).x % m + m) % m = _
  rw [loop]

/-- The last cofactor is an inverse. -/
theorem cofactor_mul {a : Int} {m : Nat} {final : EuclidState} (holds : final.Invariant a m)
    (done : ¬ final.guard) (coprime : Int.gcd a m = 1) : a * final.prevX ≡ 1 [ZMOD m] := by
  have zero : final.r = 0 := not_not.mp done
  have unit : final.prevR = 1 := by
    have gcd_eq := holds.gcd_eq
    have nonneg := holds.prevNonneg
    rw [zero, Int.gcd_zero_right, coprime] at gcd_eq
    omega
  have bezout := holds.prevBezout
  rw [unit] at bezout
  rw [Int.mul_comm]
  exact bezout.symm

/-- Two inverses in the range of the residues are the same. -/
theorem inverse_unique {a x y : Int} {m : Nat} (xRange : 0 ≤ x ∧ x < m) (yRange : 0 ≤ y ∧ y < m)
    (xInverse : a * x ≡ 1 [ZMOD m]) (yInverse : a * y ≡ 1 [ZMOD m]) : x = y := by
  have same : x ≡ y [ZMOD m] :=
    calc
      x = x * 1 := (Int.mul_one x).symm
      _ ≡ x * (a * y) [ZMOD m] := yInverse.symm.mul_left x
      _ = a * x * y := by ring
      _ ≡ 1 * y [ZMOD m] := xInverse.mul_right y
      _ = y := Int.one_mul y
  have residues : x % m = y % m := same
  rwa [Int.emod_eq_of_lt xRange.1 xRange.2, Int.emod_eq_of_lt yRange.1 yRange.2] at residues

/-- The loop ends, and the result is the only inverse among the residues. -/
theorem modInverse_correct (a : Int) {m : Nat} (large : 1 < m) (coprime : Int.gcd a m = 1) :
    (∃ final, Ends EuclidState.guard EuclidState.round (EuclidState.start a m) final ∧
      modInverse a m = (final.prevX % m + m) % m) ∧
    (0 ≤ modInverse a m ∧ modInverse a m < m) ∧
    a * modInverse a m ≡ 1 [ZMOD m] ∧
    ∀ x : Int, 0 ≤ x → x < m → a * x ≡ 1 [ZMOD m] → x = modInverse a m := by
  have positive : (0 : Int) < m := by omega
  obtain ⟨final, ends⟩ := EuclidState.exists_ends_start a (by omega : 0 < m)
  have result := modInverse_eq_of_ends ends
  have holds := ends.of_invariant (fun _ holds more => EuclidState.Invariant.round holds more)
    (EuclidState.Invariant.start (by omega))
  have residue : modInverse a m = final.prevX % m := by
    rw [result, Int.add_emod_right, Int.emod_emod]
  have range : 0 ≤ modInverse a m ∧ modInverse a m < m := by
    rw [residue]
    exact ⟨Int.emod_nonneg _ positive.ne', Int.emod_lt_of_pos _ positive⟩
  have inverse : a * modInverse a m ≡ 1 [ZMOD m] := by
    rw [residue]
    exact ((Int.mod_modEq final.prevX m).mul_left a).trans
      (cofactor_mul holds ends.not_guard coprime)
  exact ⟨⟨final, ends, result⟩, range, inverse, fun x nonneg below isInverse =>
    inverse_unique ⟨nonneg, below⟩ range isInverse inverse⟩

/-- A negative number and one beyond the modulus. -/
theorem modInverse_correct_samples :
    -3 * modInverse (-3) 7 ≡ 1 [ZMOD 7] ∧ 24 * modInverse 24 7 ≡ 1 [ZMOD 7] ∧
      modInverse (-3) 7 = 2 ∧ modInverse 24 7 = 5 :=
  ⟨(modInverse_correct (-3) (by decide) (by decide)).2.2.1,
    (modInverse_correct 24 (by decide) (by decide)).2.2.1, by decide, by decide⟩

end Secp256k1

end QuantyCoin
