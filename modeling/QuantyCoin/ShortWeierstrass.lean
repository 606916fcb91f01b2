import Mathlib.AlgebraicGeometry.EllipticCurve.Affine.Point

/-!
# Curves `y² = x³ + b`

The group law of Mathlib on the points of such a curve, in the coordinates that
programs compute with: the chord and tangent formulas, and the Jacobian formulas
that put off all divisions to the end.
-/

namespace ShortWeierstrass

variable {F : Type*} [Field F]

/-- The curve `y² = x³ + b`. -/
def curve (b : F) : WeierstrassCurve.Affine F :=
  { a₁ := 0, a₂ := 0, a₃ := 0, a₄ := 0, a₆ := b }

/-- The point with the given coordinates. -/
def IsAt {b : F} (point : (curve b).Point) (x y : F) : Prop :=
  ∃ nonsingular, point = .some x y nonsingular

variable {b : F} {point point' : (curve b).Point} {x y x' y' : F}

theorem negY_eq (x y : F) : (curve b).negY x y = -y := by
  simp [WeierstrassCurve.Affine.negY, curve]

theorem equation_iff (x y : F) : (curve b).Equation x y ↔ y ^ 2 = x ^ 3 + b := by
  simp [WeierstrassCurve.Affine.equation_iff, curve]

theorem IsAt.equation (isAt : IsAt point x y) : y ^ 2 = x ^ 3 + b := by
  obtain ⟨nonsingular, -⟩ := isAt
  exact (equation_iff x y).mp nonsingular.1

theorem IsAt.ne_zero (isAt : IsAt point x y) : point ≠ 0 := by
  obtain ⟨nonsingular, rfl⟩ := isAt
  exact WeierstrassCurve.Affine.Point.some_ne_zero nonsingular

theorem IsAt.unique (isAt : IsAt point x y) (isAt' : IsAt point x' y') : x = x' ∧ y = y' := by
  obtain ⟨nonsingular, rfl⟩ := isAt
  obtain ⟨nonsingular', same⟩ := isAt'
  cases same
  exact ⟨rfl, rfl⟩

theorem IsAt.eq (isAt : IsAt point x y) (isAt' : IsAt point' x y) : point = point' := by
  obtain ⟨nonsingular, rfl⟩ := isAt
  obtain ⟨nonsingular', rfl⟩ := isAt'
  rfl

theorem exists_isAt (two : (2 : F) ≠ 0) (three : (3 : F) ≠ 0) (nonzero : b ≠ 0)
    (equation : y ^ 2 = x ^ 3 + b) : ∃ point : (curve b).Point, IsAt point x y := by
  have nonsingular : (curve b).Nonsingular x y := by
    rw [WeierstrassCurve.Affine.nonsingular_iff, equation_iff]
    refine ⟨equation, ?_⟩
    by_contra singular
    rw [not_or, not_not, not_not] at singular
    simp only [curve, zero_mul, mul_zero, add_zero, sub_zero] at singular
    have xZero : x = 0 := by
      have square : 3 * x ^ 2 = 0 := singular.1.symm
      simpa [three] using square
    have yZero : y = 0 := by
      have double : 2 * y = 0 := by linear_combination singular.2
      simpa [two] using double
    rw [xZero, yZero] at equation
    apply nonzero
    simpa using equation.symm
  exact ⟨.some x y nonsingular, nonsingular, rfl⟩

theorem IsAt.neg (isAt : IsAt point x y) : IsAt (-point) x (-y) := by
  obtain ⟨nonsingular, rfl⟩ := isAt
  rw [IsAt, WeierstrassCurve.Affine.Point.neg_some nonsingular, ← @negY_eq F _ b x y]
  exact ⟨_, rfl⟩

theorem isAt_some {nonsingular : (curve b).Nonsingular x y} (sameX : x = x') (sameY : y = y') :
    IsAt (.some x y nonsingular) x' y' := by
  subst sameX sameY
  exact ⟨nonsingular, rfl⟩

/-! ## Chords and tangents -/

theorem addX_eq (slope : F) : (curve b).addX x x' slope = slope ^ 2 - x - x' := by
  simp [WeierstrassCurve.Affine.addX, curve]

theorem addY_eq (slope : F) :
    (curve b).addY x x' y slope = slope * (x - (slope ^ 2 - x - x')) - y := by
  rw [WeierstrassCurve.Affine.addY, negY_eq, WeierstrassCurve.Affine.negAddY, addX_eq]
  ring

section Addition

variable [DecidableEq F]

/-- Different abscissas: the line through both points. -/
theorem IsAt.add_chord (isAt : IsAt point x y) (isAt' : IsAt point' x' y') (apart : x ≠ x')
    {slope : F} (slopeEq : slope * (x' - x) = y' - y) :
    IsAt (point + point') (slope ^ 2 - x - x')
      (slope * (x - (slope ^ 2 - x - x')) - y) := by
  obtain ⟨nonsingular, rfl⟩ := isAt
  obtain ⟨nonsingular', rfl⟩ := isAt'
  have difference : x - x' ≠ 0 := sub_ne_zero.mpr apart
  have same : (curve b).slope x x' y y' = slope := by
    rw [WeierstrassCurve.Affine.slope_of_X_ne apart, div_eq_iff difference]
    linear_combination slopeEq
  rw [WeierstrassCurve.Affine.Point.add_of_X_ne apart]
  apply isAt_some
  · rw [same, addX_eq]
  · rw [same, addY_eq]

/-- A point and itself: the tangent, unless it is vertical. -/
theorem IsAt.add_self (isAt : IsAt point x y) (upright : 2 * y ≠ 0) {slope : F}
    (slopeEq : slope * (2 * y) = 3 * x ^ 2) :
    IsAt (point + point) (slope ^ 2 - x - x)
      (slope * (x - (slope ^ 2 - x - x)) - y) := by
  obtain ⟨nonsingular, rfl⟩ := isAt
  have notOpposite : y ≠ (curve b).negY x y := by
    rw [negY_eq]
    intro opposite
    apply upright
    linear_combination opposite
  have denominator : y - (curve b).negY x y = 2 * y := by
    rw [negY_eq]
    ring
  have same : (curve b).slope x x y y = slope := by
    rw [WeierstrassCurve.Affine.slope_of_Y_ne rfl notOpposite, denominator, div_eq_iff upright,
      slopeEq]
    simp [curve]
  rw [WeierstrassCurve.Affine.Point.add_self_of_Y_ne notOpposite]
  apply isAt_some
  · rw [same, addX_eq]
  · rw [same, addY_eq]

/-- The same abscissa and different ordinates: opposite points. -/
theorem IsAt.add_eq_zero (isAt : IsAt point x y) (isAt' : IsAt point' x y') (apart : y ≠ y') :
    point + point' = 0 := by
  have opposite : y = (curve b).negY x y' := by
    have product : (y - y') * (y + y') = 0 := by
      linear_combination isAt.equation - isAt'.equation
    rcases mul_eq_zero.mp product with same | opposite
    · exact absurd (sub_eq_zero.mp same) apart
    · rw [negY_eq]
      exact eq_neg_of_add_eq_zero_left opposite
  obtain ⟨nonsingular, rfl⟩ := isAt
  obtain ⟨nonsingular', rfl⟩ := isAt'
  exact WeierstrassCurve.Affine.Point.add_of_Y_eq rfl opposite

/-! ## Jacobian coordinates -/

/-- The point `(X / Z², Y / Z³)`. -/
def IsJacobian (point : (curve b).Point) (X Y Z : F) : Prop :=
  ∃ x y, IsAt point x y ∧ X = x * Z ^ 2 ∧ Y = y * Z ^ 3

variable {X Y Z : F}

theorem IsJacobian.double (isJacobian : IsJacobian point X Y Z) (nonzero : 2 * Y * Z ≠ 0) :
    IsJacobian (point + point) ((3 * X ^ 2) ^ 2 - 2 * (4 * X * Y ^ 2))
      (3 * X ^ 2 * (4 * X * Y ^ 2 - ((3 * X ^ 2) ^ 2 - 2 * (4 * X * Y ^ 2))) - 8 * Y ^ 4)
      (2 * Y * Z) := by
  obtain ⟨x, y, isAt, rfl, rfl⟩ := isJacobian
  have upright : 2 * y ≠ 0 := by
    intro flat
    apply nonzero
    linear_combination Z ^ 4 * flat
  obtain ⟨slope, slopeEq⟩ : ∃ slope, slope * (2 * y) = 3 * x ^ 2 :=
    ⟨3 * x ^ 2 / (2 * y), div_mul_cancel₀ _ upright⟩
  refine ⟨_, _, isAt.add_self upright slopeEq, ?_, ?_⟩
  · linear_combination -Z ^ 8 * (3 * x ^ 2 + slope * (2 * y)) * slopeEq
  · linear_combination Z ^ 12 * (-12 * x * y ^ 2 + (slope * (2 * y)) ^ 2 +
      3 * x ^ 2 * (slope * (2 * y)) + 9 * x ^ 4) * slopeEq

/-- Adding a point in affine coordinates. -/
theorem IsJacobian.add (isJacobian : IsJacobian point X Y Z) (isAt' : IsAt point' x' y')
    (nonzero : (x' * Z ^ 2 - X) * Z ≠ 0) :
    IsJacobian (point + point')
      ((y' * Z ^ 3 - Y) ^ 2 - (x' * Z ^ 2 - X) ^ 3 - 2 * X * (x' * Z ^ 2 - X) ^ 2)
      ((y' * Z ^ 3 - Y) * (X * (x' * Z ^ 2 - X) ^ 2 -
        ((y' * Z ^ 3 - Y) ^ 2 - (x' * Z ^ 2 - X) ^ 3 - 2 * X * (x' * Z ^ 2 - X) ^ 2)) -
        Y * (x' * Z ^ 2 - X) ^ 3)
      ((x' * Z ^ 2 - X) * Z) := by
  obtain ⟨x, y, isAt, rfl, rfl⟩ := isJacobian
  have apart : x' - x ≠ 0 := by
    intro same
    apply nonzero
    linear_combination Z ^ 3 * same
  obtain ⟨slope, slopeEq⟩ : ∃ slope, slope * (x' - x) = y' - y :=
    ⟨(y' - y) / (x' - x), div_mul_cancel₀ _ apart⟩
  refine ⟨_, _, isAt.add_chord isAt' (fun same => apart (sub_eq_zero.mpr same.symm)) slopeEq,
    ?_, ?_⟩
  · linear_combination -Z ^ 6 * (slope * (x' - x) + (y' - y)) * slopeEq
  · linear_combination Z ^ 9 * (-(x' - x) ^ 2 * (2 * x + x') + (slope * (x' - x)) ^ 2 +
      slope * (x' - x) * (y' - y) + (y' - y) ^ 2) * slopeEq

end Addition

end ShortWeierstrass
