import Mathlib

/-!
# Chords and tangents

Mathlib's group of points on a curve `y² = x³ + ax + b`, in the formulas that programs use:
affine ones with a slope, and projective ones that put off the division.
-/

namespace Foundation.ShortWeierstrass

open WeierstrassCurve

universe u

variable {F : Type u} [Field F]

def curve (a b : F) : WeierstrassCurve.Affine F := ⟨0, 0, 0, a, b⟩

@[simp]
theorem curve_negY (a b x y : F) : (curve a b).negY x y = -y := by
  simp [curve, Affine.negY]

theorem curve_equation_iff {a b x y : F} :
    (curve a b).Equation x y ↔ y ^ 2 = x ^ 3 + a * x + b := by
  simp [curve, Affine.equation_iff]

/-- What makes a curve smooth. -/
def Smooth (a b : F) : Prop := 16 * (4 * a ^ 3 + 27 * b ^ 2) ≠ 0

theorem nonsingular_of_equation {a b x y : F} (smooth : Smooth a b)
    (equation : y ^ 2 = x ^ 3 + a * x + b) : (curve a b).Nonsingular x y := by
  rw [← Affine.equation_iff_nonsingular_of_Δ_ne_zero]
  · exact curve_equation_iff.mpr equation
  · intro zero
    apply smooth
    have discriminant : (curve a b).Δ = -(16 * (4 * a ^ 3 + 27 * b ^ 2)) := by
      simp only [WeierstrassCurve.Δ, b₂, b₄, b₆, b₈, curve]
      ring
    rw [discriminant, neg_eq_zero] at zero
    exact zero

variable {a b : F}

/-- The point has these coordinates. -/
def At (point : (curve a b).Point) (x y : F) : Prop :=
  ∃ nonsingular, point = .some x y nonsingular

theorem At.ne_zero {point : (curve a b).Point} {x y : F} (located : At point x y) :
    point ≠ 0 := by
  obtain ⟨nonsingular, rfl⟩ := located
  exact Affine.Point.some_ne_zero nonsingular

theorem At.equation {point : (curve a b).Point} {x y : F} (located : At point x y) :
    y ^ 2 = x ^ 3 + a * x + b := by
  obtain ⟨nonsingular, -⟩ := located
  exact curve_equation_iff.mp nonsingular.1

theorem At.unique {point : (curve a b).Point} {x y x' y' : F} (located : At point x y)
    (again : At point x' y') : x = x' ∧ y = y' := by
  obtain ⟨nonsingular, rfl⟩ := located
  obtain ⟨other, same⟩ := again
  exact (Affine.Point.some.injEq ..).mp same

theorem At.congr {point : (curve a b).Point} {x y x' y' : F} (located : At point x y)
    (sameX : x = x') (sameY : y = y') : At point x' y' := by
  rwa [← sameX, ← sameY]

theorem at_eq {first second : (curve a b).Point} {x y : F} (one : At first x y)
    (other : At second x y) : first = second := by
  obtain ⟨nonsingular, rfl⟩ := one
  obtain ⟨again, rfl⟩ := other
  rfl

theorem At.neg {point : (curve a b).Point} {x y : F} (located : At point x y) :
    At (-point) x (-y) := by
  obtain ⟨nonsingular, rfl⟩ := located
  rw [Affine.Point.neg_some]
  refine At.congr ⟨_, rfl⟩ rfl ?_
  exact curve_negY a b x y

/-- Two points above each other are equal or opposite. -/
theorem At.eq_of_add_ne_zero {first second : (curve a b).Point} {x y y' : F} (one : At first x y)
    (other : At second x y') (apart : y + y' ≠ 0) : y = y' := by
  have squares : (y - y') * (y + y') = 0 := by
    linear_combination one.equation - other.equation
  exact sub_eq_zero.mp ((mul_eq_zero.mp squares).resolve_right apart)

/-- Projective coordinates of a point: `x = X / Z ^ 2` and `y = Y / Z ^ 3`. -/
def Weighted (point : (curve a b).Point) (x y z : F) : Prop :=
  z ≠ 0 ∧ At point (x / z ^ 2) (y / z ^ 3)

theorem At.weighted {point : (curve a b).Point} {x y : F} (located : At point x y) :
    Weighted point x y 1 := by
  refine ⟨one_ne_zero, ?_⟩
  simpa using located

/-- The coordinates of an affine point, without a division. -/
theorem Weighted.at_of_eq {point : (curve a b).Point} {X Y Z x y : F}
    (weighted : Weighted point X Y Z) (sameX : X = x * Z ^ 2) (sameY : Y = y * Z ^ 3) :
    At point x y := by
  obtain ⟨proper, located⟩ := weighted
  refine located.congr ?_ ?_
  · rw [sameX, mul_div_cancel_right₀ _ (pow_ne_zero 2 proper)]
  · rw [sameY, mul_div_cancel_right₀ _ (pow_ne_zero 3 proper)]

variable [DecidableEq F]

/-- Two points on one vertical line. -/
theorem At.add_eq_zero {first second : (curve a b).Point} {x y y' : F} (one : At first x y)
    (other : At second x y') (opposite : y + y' = 0) : first + second = 0 := by
  obtain ⟨nonsingular, rfl⟩ := one
  obtain ⟨again, rfl⟩ := other
  apply Affine.Point.add_of_Y_eq rfl
  rw [curve_negY]
  exact eq_neg_of_add_eq_zero_left opposite

/-- The chord through two points. -/
theorem At.add {first second : (curve a b).Point} {x₁ y₁ x₂ y₂ : F} (one : At first x₁ y₁)
    (other : At second x₂ y₂) (apart : x₁ ≠ x₂) {slope : F}
    (chord : slope * (x₂ - x₁) = y₂ - y₁) :
    At (first + second) (slope ^ 2 - x₁ - x₂) (slope * (x₁ - (slope ^ 2 - x₁ - x₂)) - y₁) := by
  obtain ⟨nonsingular, rfl⟩ := one
  obtain ⟨again, rfl⟩ := other
  have slope_eq : (curve a b).slope x₁ x₂ y₁ y₂ = slope := by
    rw [Affine.slope_of_X_ne apart, div_eq_iff (sub_ne_zero.mpr apart)]
    linear_combination chord
  refine At.congr ⟨_, Affine.Point.add_of_X_ne apart⟩ ?_ ?_
  · rw [slope_eq]
    simp [curve]
  · rw [Affine.addY, curve_negY, slope_eq]
    simp [curve]
    ring

/-- The tangent at a point. -/
theorem At.double {point : (curve a b).Point} {x y : F} (located : At point x y)
    (upright : 2 * y ≠ 0) {slope : F} (tangent : slope * (2 * y) = 3 * x ^ 2 + a) :
    At (2 • point) (slope ^ 2 - 2 * x) (slope * (x - (slope ^ 2 - 2 * x)) - y) := by
  obtain ⟨nonsingular, rfl⟩ := located
  have different : y ≠ (curve a b).negY x y := by
    rw [curve_negY]
    intro same
    apply upright
    linear_combination same
  have slope_eq : (curve a b).slope x x y y = slope := by
    rw [Affine.slope_of_Y_ne rfl different, curve_negY]
    have denominator : y - -y ≠ 0 := by
      rw [sub_neg_eq_add, ← two_mul]
      exact upright
    rw [div_eq_iff denominator]
    simp only [curve]
    linear_combination -tangent
  rw [two_nsmul]
  refine At.congr ⟨_, Affine.Point.add_self_of_Y_ne different⟩ ?_ ?_
  · rw [slope_eq]
    simp [curve]
    ring
  · rw [Affine.addY, curve_negY, slope_eq]
    simp [curve]
    ring

theorem Weighted.double {point : (curve a b).Point} {X Y Z S M X' Y' Z' : F}
    (weighted : Weighted point X Y Z) (odd : (2 : F) ≠ 0) (upright : Y ≠ 0)
    (hS : S = 4 * X * Y ^ 2) (hM : M = 3 * X ^ 2 + a * Z ^ 4) (hX : X' = M ^ 2 - 2 * S)
    (hY : Y' = M * (S - X') - 8 * Y ^ 4) (hZ : Z' = 2 * Y * Z) :
    Weighted (2 • point) X' Y' Z' := by
  obtain ⟨proper, located⟩ := weighted
  have tangent : M / (2 * Y * Z) * (2 * (Y / Z ^ 3)) = 3 * (X / Z ^ 2) ^ 2 + a := by
    rw [hM]
    field_simp
  have upright' : 2 * (Y / Z ^ 3) ≠ 0 :=
    mul_ne_zero odd (div_ne_zero upright (pow_ne_zero 3 proper))
  refine ⟨?_, (located.double upright' tangent).congr ?_ ?_⟩
  · rw [hZ]
    exact mul_ne_zero (mul_ne_zero odd upright) proper
  · rw [hX, hZ, hS]
    field_simp
    ring
  · rw [hY, hX, hZ, hS]
    field_simp
    ring

/-- Adding an affine point. -/
theorem Weighted.add {first second : (curve a b).Point} {X Y Z x y H R X' Y' Z' : F}
    (weighted : Weighted first X Y Z) (located : At second x y) (apart : H ≠ 0)
    (hH : H = x * Z ^ 2 - X) (hR : R = y * Z ^ 3 - Y)
    (hX : X' = R ^ 2 - H ^ 3 - 2 * X * H ^ 2)
    (hY : Y' = R * (X * H ^ 2 - X') - Y * H ^ 3) (hZ : Z' = Z * H) :
    Weighted (first + second) X' Y' Z' := by
  obtain ⟨proper, one⟩ := weighted
  have difference : x - X / Z ^ 2 = H / Z ^ 2 := by
    rw [hH]
    field_simp
  have different : X / Z ^ 2 ≠ x := by
    intro same
    rw [same, sub_self] at difference
    exact div_ne_zero apart (pow_ne_zero 2 proper) difference.symm
  have chord : R / (Z * H) * (x - X / Z ^ 2) = y - Y / Z ^ 3 := by
    rw [difference, hR]
    field_simp
  have third : x = (H + X) / Z ^ 2 := by
    rw [hH]
    field_simp
    ring
  refine ⟨?_, (one.add located different chord).congr ?_ ?_⟩
  · rw [hZ]
    exact mul_ne_zero proper apart
  · rw [third, hX, hZ]
    field_simp
    ring
  · rw [third, hY, hX, hZ]
    field_simp
    ring

end Foundation.ShortWeierstrass
