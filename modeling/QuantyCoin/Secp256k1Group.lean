import QuantyCoin.BitRegrouping
import QuantyCoin.PrimeCertificate
import QuantyCoin.Secp256k1
import QuantyCoin.ShortWeierstrass

/-!
# The group behind the point arithmetic

`_P` and `_N` are prime, the point arithmetic computes in the group of the curve
`y² = x³ + 7` over the field with `_P` elements, and the generator has the order
`_N`.
-/

namespace QuantyCoin

namespace Secp256k1

open PrimeCertificate ShortWeierstrass BitRegrouping

/-! ## Primality -/

def smallPrimes : List Nat := [7, 19, 29, 41, 53, 101, 113, 239, 419, 1409, 1871]

/-- Certificates of `_P` and `_N` and of the primes they rest on. -/
def certificate : List Entry :=
  [⟨107590001, 2, [53, 29, 7]⟩,
    ⟨20113, 2, [419]⟩,
    ⟨1206781, 2, [20113]⟩,
    ⟨7240687, 2, [1206781]⟩,
    ⟨96557, 2, [239, 101]⟩,
    ⟨255515944373312847190720520512484175977, 2, [107590001, 7240687, 96557]⟩,
    ⟨205115282021455665897114700593932402728804164701536103180137503955397371, 2,
      [255515944373312847190720520512484175977]⟩,
    ⟨P, 2, [205115282021455665897114700593932402728804164701536103180137503955397371]⟩,
    ⟨1627771, 2, [1871]⟩,
    ⟨297159362677, 2, [1627771]⟩,
    ⟨28181, 2, [1409]⟩,
    ⟨545358713, 2, [28181]⟩,
    ⟨29047611873442575647497758179, 2, [297159362677, 545358713]⟩,
    ⟨341948486974166000522343609283189, 2, [29047611873442575647497758179]⟩,
    ⟨9349, 2, [41, 19]⟩,
    ⟨44706919, 2, [9349]⟩,
    ⟨120233, 2, [113, 19]⟩,
    ⟨174723607534414371449, 2, [44706919, 120233]⟩,
    ⟨N, 2, [341948486974166000522343609283189, 174723607534414371449]⟩]

theorem certificate_prime : ∀ entry ∈ certificate, entry.number.Prime := by
  have small : ∀ number ∈ smallPrimes, number.Prime := by
    simp only [smallPrimes, List.forall_mem_cons]
    norm_num
  exact prime_of_check small (by decide +kernel)

theorem prime_P : P.Prime :=
  certificate_prime
    ⟨P, 2, [205115282021455665897114700593932402728804164701536103180137503955397371]⟩
    (by simp [certificate])

theorem prime_N : N.Prime :=
  certificate_prime
    ⟨N, 2, [341948486974166000522343609283189, 174723607534414371449]⟩ (by simp [certificate])

instance : Fact P.Prime := ⟨prime_P⟩

/-! ## Coordinates -/

abbrev Point := (curve ((B : Int) : ZMod P)).Point

/-- Coordinates are reduced, so that they can be compared as integers. -/
structure Reduced (x : Int) : Prop where
  nonneg : 0 ≤ x
  lt : x < P

/-- The point of the curve that a result stands for. -/
def Represents : Option (Int × Int) → Point → Prop
  | none, point => point = 0
  | some p, point => Reduced p.1 ∧ Reduced p.2 ∧ IsAt point (p.1 : ZMod P) (p.2 : ZMod P)

theorem reduced_emod (x : Int) : Reduced (x % P) := by
  have positive : (0 : Int) < P := by decide
  exact ⟨Int.emod_nonneg _ positive.ne', Int.emod_lt_of_pos _ positive⟩

theorem Reduced.cast_inj {x y : Int} (reduced : Reduced x) (reduced' : Reduced y) :
    (x : ZMod P) = y ↔ x = y := by
  rw [ZMod.intCast_eq_intCast_iff]
  constructor
  · intro congruent
    have same : x % P = y % P := congruent
    rwa [Int.emod_eq_of_lt reduced.nonneg reduced.lt,
      Int.emod_eq_of_lt reduced'.nonneg reduced'.lt] at same
  · rintro rfl
    rfl

theorem natCast_ne_zero {n : Nat} (small : ¬P ∣ n) : (n : ZMod P) ≠ 0 := by
  rwa [Ne, ZMod.natCast_eq_zero_iff]

theorem two_ne_zero : (2 : ZMod P) ≠ 0 := natCast_ne_zero (n := 2) (by decide)

/-- No point lies on the axis: `-7` is not a cube. -/
theorem ordinate_ne_zero {point : Point} {x y : ZMod P} (isAt : IsAt point x y) : y ≠ 0 := by
  rintro rfl
  have cube : x ^ 3 = ((P - 7 : Nat) : ZMod P) := by
    have equation := isAt.equation
    rw [Nat.cast_sub (by decide), ZMod.natCast_self]
    simp only [B, Int.cast_ofNat] at equation
    push_cast
    linear_combination -equation
  have nonzero : x ≠ 0 := by
    rintro rfl
    rw [zero_pow (by decide)] at cube
    exact natCast_ne_zero (by decide) cube.symm
  have fermat := ZMod.pow_card_sub_one_eq_one nonzero
  rw [show P - 1 = 3 * ((P - 1) / 3) by decide, pow_mul, cube,
    ← cast_powMod (show 0 < P by decide) dvd_rfl] at fermat
  have congruent := (ZMod.natCast_eq_natCast_iff' _ 1 P).mp (fermat.trans Nat.cast_one.symm)
  revert congruent
  decide +kernel

/-! ## Addition -/

theorem cast_emod (x : Int) : ((x % P : Int) : ZMod P) = x := ZMod.intCast_mod x P

theorem modInverse_mul_cast {a : Int} (nonzero : (a : ZMod P) ≠ 0) :
    (modInverse a P : ZMod P) * a = 1 := by
  apply modInverse_mul (by decide)
  have notDvd : ¬(P : Int) ∣ a := by
    rwa [← ZMod.intCast_zmod_eq_zero_iff_dvd]
  have coprime := (Nat.Prime.coprime_iff_not_dvd prime_P).mpr
    fun divides => notDvd (Int.natCast_dvd.mpr divides)
  rw [Int.gcd_comm]
  exact coprime

/-- The third point on a line, as the code computes it. -/
theorem represents_of_slope {point : Point} {x1 y1 x2 lam : Int}
    (isAt : IsAt point ((lam : ZMod P) ^ 2 - x1 - x2)
      ((lam : ZMod P) * (x1 - ((lam : ZMod P) ^ 2 - x1 - x2)) - y1)) :
    Represents (some ((lam * lam - x1 - x2) % P,
      (lam * (x1 - (lam * lam - x1 - x2) % P) - y1) % P)) point := by
  refine ⟨reduced_emod _, reduced_emod _, ?_⟩
  simp only [cast_emod, Int.cast_sub, Int.cast_mul]
  rwa [← pow_two]

theorem pointAdd_represents {p1 p2 : Option (Int × Int)} {point point' : Point}
    (represents : Represents p1 point) (represents' : Represents p2 point') :
    Represents (pointAdd p1 p2) (point + point') := by
  cases p1 with
  | none =>
      rw [show point = 0 from represents, zero_add]
      exact represents'
  | some first =>
      cases p2 with
      | none =>
          rw [show point' = 0 from represents', add_zero]
          exact represents
      | some second =>
          obtain ⟨x1, y1⟩ := first
          obtain ⟨x2, y2⟩ := second
          obtain ⟨xReduced, yReduced, isAt⟩ := represents
          obtain ⟨xReduced', yReduced', isAt'⟩ := represents'
          dsimp only at xReduced yReduced isAt xReduced' yReduced' isAt'
          rw [pointAdd]
          split_ifs with opposite sameX
          · obtain ⟨rfl, apart⟩ := opposite
            exact isAt.add_eq_zero isAt' fun same => apart ((yReduced.cast_inj yReduced').mp same)
          · subst sameX
            have sameY : y1 = y2 := by
              by_contra apart
              exact opposite ⟨rfl, apart⟩
            subst sameY
            obtain rfl := isAt.eq isAt'
            have upright : 2 * (y1 : ZMod P) ≠ 0 := mul_ne_zero two_ne_zero (ordinate_ne_zero isAt)
            apply represents_of_slope
            apply isAt.add_self upright
            have inverse := @modInverse_mul_cast (2 * y1) (by push_cast; exact upright)
            push_cast at inverse
            rw [cast_emod]
            push_cast [A]
            linear_combination 3 * (x1 : ZMod P) ^ 2 * inverse
          · have apart : (x1 : ZMod P) ≠ x2 := fun same =>
              sameX ((xReduced.cast_inj xReduced').mp same)
            apply represents_of_slope
            apply isAt.add_chord isAt' apart
            have inverse := @modInverse_mul_cast (x2 - x1)
              (by push_cast; exact sub_ne_zero.mpr apart.symm)
            push_cast at inverse
            rw [cast_emod]
            push_cast
            linear_combination ((y2 : ZMod P) - y1) * inverse

/-! ## Multiplication -/

theorem pointMulLoop_represents {fuel k : Nat} (enough : k < 2 ^ fuel)
    {res addend : Option (Int × Int)} {sum point : Point} (resRepresents : Represents res sum)
    (represents : Represents addend point) :
    Represents (pointMulLoop fuel k res addend) (sum + k • point) := by
  induction fuel generalizing k res addend sum point with
  | zero =>
      have zero : k = 0 := by simpa using enough
      rw [zero, zero_nsmul, add_zero]
      exact resRepresents
  | succ fuel ih =>
      have halves : k • point = (k % 2) • point + (k / 2) • (point + point) := by
        rw [← two_nsmul, ← mul_nsmul, ← add_nsmul]
        congr 1
        omega
      have doubled := pointAdd_represents represents represents
      rw [pointMulLoop]
      split_ifs with zero odd
      · rw [zero, zero_nsmul, add_zero]
        exact resRepresents
      · rw [halves, odd, one_nsmul, ← add_assoc]
        exact ih (by omega) (pointAdd_represents resRepresents represents) doubled
      · have even : k % 2 = 0 := by omega
        rw [halves, even, zero_nsmul, zero_add]
        exact ih (by omega) resRepresents doubled

theorem pointMul_represents {p : Int × Int} {point : Point} (represents : Represents (some p) point)
    (k : Nat) : Represents (pointMul k p) ((k % N) • point) := by
  rw [pointMul]
  split_ifs with zero
  · rw [zero, zero_nsmul]
    rfl
  · rw [← zero_add ((k % N) • point)]
    exact pointMulLoop_represents Nat.lt_log2_self rfl represents

/-! ## The order of the generator -/

/-- A point as `(X / Z², Y / Z³)`. -/
structure Jacobian where
  X : Int
  Y : Int
  Z : Int

namespace Jacobian

def double (t : Jacobian) : Jacobian :=
  let m := 3 * (t.X * t.X) % P
  let s := 4 * t.X * (t.Y * t.Y) % P
  let x := (m * m - 2 * s) % P
  ⟨x, (m * (s - x) - 8 * (t.Y * t.Y % P) * (t.Y * t.Y % P)) % P, 2 * t.Y * t.Z % P⟩

/-- Add the generator. -/
def addG (t : Jacobian) : Jacobian :=
  let zz := t.Z * t.Z % P
  let h := (Gx * zz - t.X) % P
  let r := (Gy * (zz * t.Z) - t.Y) % P
  let hh := h * h % P
  let x := (r * r - hh * h - 2 * t.X * hh) % P
  ⟨x, (r * (t.X * hh - x) - t.Y * (hh * h)) % P, h * t.Z % P⟩

def step (t : Jacobian) (bit : Bool) : Jacobian := if bit then t.double.addG else t.double

/-- The point that Jacobian coordinates stand for. -/
def Stands (t : Jacobian) (point : Point) : Prop :=
  IsJacobian point (t.X : ZMod P) (t.Y : ZMod P) (t.Z : ZMod P)

theorem cast_double_Z (t : Jacobian) :
    (t.double.Z : ZMod P) = 2 * (t.Y : ZMod P) * (t.Z : ZMod P) := by
  rw [double, cast_emod]
  push_cast
  rfl

theorem cast_addG_Z (t : Jacobian) :
    (t.addG.Z : ZMod P) =
      ((Gx : ZMod P) * (t.Z : ZMod P) ^ 2 - (t.X : ZMod P)) * (t.Z : ZMod P) := by
  rw [addG, cast_emod, Int.cast_mul, cast_emod, Int.cast_sub, Int.cast_mul, cast_emod]
  push_cast
  ring

theorem Stands.double {t : Jacobian} {point : Point} (stands : t.Stands point)
    (nonzero : (t.double.Z : ZMod P) ≠ 0) : t.double.Stands (point + point) := by
  rw [cast_double_Z] at nonzero
  have doubled := IsJacobian.double stands nonzero
  rw [Stands, cast_double_Z]
  convert doubled using 1
  · rw [Jacobian.double]
    simp only [cast_emod, Int.cast_sub, Int.cast_mul, Int.cast_ofNat]
    ring
  · rw [Jacobian.double]
    simp only [cast_emod, Int.cast_sub, Int.cast_mul, Int.cast_ofNat]
    ring

theorem Stands.addG {t : Jacobian} {point generator : Point} (stands : t.Stands point)
    (atG : IsAt generator (Gx : ZMod P) (Gy : ZMod P))
    (nonzero : (t.addG.Z : ZMod P) ≠ 0) : t.addG.Stands (point + generator) := by
  rw [cast_addG_Z] at nonzero
  have added := IsJacobian.add stands atG nonzero
  rw [Stands, cast_addG_Z]
  convert added using 1
  · rw [Jacobian.addG]
    simp only [cast_emod, Int.cast_sub, Int.cast_mul, Int.cast_ofNat]
    ring
  · rw [Jacobian.addG]
    simp only [cast_emod, Int.cast_sub, Int.cast_mul, Int.cast_ofNat]
    ring

theorem Stands.step {t : Jacobian} {generator : Point} {k : Nat}
    (stands : t.Stands (k • generator)) (atG : IsAt generator (Gx : ZMod P) (Gy : ZMod P))
    {bit : Bool} (nonzero : ((t.step bit).Z : ZMod P) ≠ 0) :
    (t.step bit).Stands ((2 * k + bit.toNat) • generator) := by
  have twice : (2 * k) • generator = k • generator + k • generator := by
    rw [two_mul, add_nsmul]
  cases bit with
  | false =>
      rw [Bool.toNat_false, add_zero, twice]
      exact stands.double nonzero
  | true =>
      have doubled : (t.double.Z : ZMod P) ≠ 0 := by
        intro zero
        apply nonzero
        change (t.double.addG.Z : ZMod P) = 0
        rw [cast_addG_Z, zero, mul_zero]
      rw [Bool.toNat_true, add_nsmul, one_nsmul, twice]
      exact (stands.double doubled).addG atG nonzero

/-- A zero in the last coordinate stays, so it need only be checked once. -/
theorem step_Z_eq_zero {t : Jacobian} (zero : (t.Z : ZMod P) = 0) (bit : Bool) :
    ((t.step bit).Z : ZMod P) = 0 := by
  cases bit with
  | false =>
      change (t.double.Z : ZMod P) = 0
      rw [cast_double_Z, zero, mul_zero]
  | true =>
      change (t.double.addG.Z : ZMod P) = 0
      rw [cast_addG_Z, cast_double_Z, zero, mul_zero, mul_zero]

theorem foldl_step_Z_eq_zero {bits : List Bool} {t : Jacobian} (zero : (t.Z : ZMod P) = 0) :
    ((bits.foldl step t).Z : ZMod P) = 0 := by
  induction bits generalizing t with
  | nil => exact zero
  | cons bit bits ih => exact ih (step_Z_eq_zero zero bit)

theorem Stands.foldl {bits : List Bool} {t : Jacobian} {generator : Point} {k : Nat}
    (stands : t.Stands (k • generator)) (atG : IsAt generator (Gx : ZMod P) (Gy : ZMod P))
    (nonzero : ((bits.foldl Jacobian.step t).Z : ZMod P) ≠ 0) :
    (bits.foldl Jacobian.step t).Stands
      (bits.foldl (fun k bit => 2 * k + bit.toNat) k • generator) := by
  induction bits generalizing t k with
  | nil => exact stands
  | cons bit bits ih =>
      rw [List.foldl_cons] at nonzero
      have next : ((t.step bit).Z : ZMod P) ≠ 0 := by
        intro zero
        exact nonzero (foldl_step_Z_eq_zero zero)
      exact ih (stands.step atG next) nonzero

end Jacobian

theorem exists_generator : ∃ generator : Point, IsAt generator (Gx : ZMod P) (Gy : ZMod P) := by
  apply exists_isAt two_ne_zero (natCast_ne_zero (n := 3) (by decide))
  · exact natCast_ne_zero (n := 7) (by decide)
  · have congruent : (Gy ^ 2) % P = (Gx ^ 3 + B) % P := by decide
    have cast := (ZMod.intCast_eq_intCast_iff _ _ P).mpr congruent
    push_cast at cast
    exact cast

/-- `_N - 1` times the generator, by doubling and adding. -/
def lastMultiple : Jacobian := (bitsOf 255 (N - 1)).foldl Jacobian.step ⟨Gx, Gy, 1⟩

theorem lastMultiple_checked :
    lastMultiple.Z % P ≠ 0 ∧ lastMultiple.X % P = Gx * lastMultiple.Z ^ 2 % P ∧
      lastMultiple.Y % P = -Gy * lastMultiple.Z ^ 3 % P ∧
      (bitsOf 255 (N - 1)).foldl (fun k bit => 2 * k + bit.toNat) 1 = N - 1 := by
  decide +kernel

theorem nsmul_N_generator {generator : Point}
    (atG : IsAt generator (Gx : ZMod P) (Gy : ZMod P)) : N • generator = 0 := by
  obtain ⟨zNonzero, xEq, yEq, scalar⟩ := lastMultiple_checked
  have nonzero : (lastMultiple.Z : ZMod P) ≠ 0 := by
    intro zero
    apply zNonzero
    exact Int.emod_eq_zero_of_dvd ((ZMod.intCast_zmod_eq_zero_iff_dvd _ P).mp zero)
  have start : (Jacobian.mk Gx Gy 1).Stands (1 • generator) := by
    rw [one_nsmul]
    refine ⟨_, _, atG, ?_, ?_⟩
    · rw [Int.cast_one, one_pow, mul_one]
    · rw [Int.cast_one, one_pow, mul_one]
  have stands := start.foldl atG nonzero
  rw [scalar] at stands
  obtain ⟨x, y, isAt, sameX, sameY⟩ := stands
  have castX := (ZMod.intCast_eq_intCast_iff _ _ P).mpr xEq
  have castY := (ZMod.intCast_eq_intCast_iff _ _ P).mpr yEq
  push_cast at castX castY
  change (lastMultiple.X : ZMod P) = _ at sameX
  change (lastMultiple.Y : ZMod P) = _ at sameY
  have atX : x = Gx := mul_right_cancel₀ (pow_ne_zero 2 nonzero) (sameX.symm.trans castX)
  have atY : y = -Gy := mul_right_cancel₀ (pow_ne_zero 3 nonzero) (sameY.symm.trans castY)
  rw [atX, atY] at isAt
  have opposite : (N - 1) • generator = -generator := isAt.eq atG.neg
  rw [show N = (N - 1) + 1 by decide, add_nsmul, one_nsmul, opposite, neg_add_cancel]

/-- The generator has the order `_N`. -/
theorem addOrderOf_generator {generator : Point}
    (atG : IsAt generator (Gx : ZMod P) (Gy : ZMod P)) : addOrderOf generator = N := by
  have : Fact N.Prime := ⟨prime_N⟩
  exact addOrderOf_eq_prime (nsmul_N_generator atG) atG.ne_zero

theorem Represents.unique {p p' : Option (Int × Int)} {point : Point}
    (represents : Represents p point) (represents' : Represents p' point) : p = p' := by
  cases p with
  | none =>
      cases p' with
      | none => rfl
      | some second => exact absurd represents represents'.2.2.ne_zero
  | some first =>
      cases p' with
      | none => exact absurd represents' represents.2.2.ne_zero
      | some second =>
          obtain ⟨xReduced, yReduced, isAt⟩ := represents
          obtain ⟨xReduced', yReduced', isAt'⟩ := represents'
          obtain ⟨sameX, sameY⟩ := isAt.unique isAt'
          congr 1
          apply Prod.ext
          · exact (xReduced.cast_inj xReduced').mp sameX
          · exact (yReduced.cast_inj yReduced').mp sameY

/-- The generator as a point of the curve. -/
theorem exists_represents_G : ∃ generator : Point,
    IsAt generator (Gx : ZMod P) (Gy : ZMod P) ∧ Represents (some G) generator := by
  obtain ⟨generator, atG⟩ := exists_generator
  exact ⟨generator, atG, ⟨by decide, by decide⟩, ⟨by decide, by decide⟩, atG⟩

end Secp256k1

end QuantyCoin
