import Stereograph.Proofs.Sphere.Chord

/-!
# Multiples of coordinates

A coordinate and its multiples by complex factors other than zero are one point of the sphere.
The distance of points does not tell them apart, and neither does rescaling.  The pair of zeros
is no point and is proportional to itself alone.  Coordinates of different points are linearly
independent.
-/

namespace Stereograph

namespace ComplexNumber

/-- The pair of a complex number. -/
noncomputable def ofComplex (number : ℂ) : ComplexNumber ℝ :=
  ⟨number.re, number.im⟩

@[simp] theorem toComplex_ofComplex (number : ℂ) : (ofComplex number).toComplex = number :=
  rfl

theorem ofComplex_ne_zero {number : ℂ} : ofComplex number ≠ .zero ↔ number ≠ 0 := by
  rw [← toComplex_eq_zero_iff.ne, toComplex_ofComplex]

end ComplexNumber

namespace Coordinate

/-- Multiply numerator and denominator by a complex factor. -/
noncomputable def multiple (point : Coordinate ℝ) (factor : ComplexNumber ℝ) : Coordinate ℝ :=
  ⟨factor.mul point.numerator, factor.mul point.denominator⟩

variable {left middle right point : Coordinate ℝ} {factor : ComplexNumber ℝ}

theorem toVector_injective : Function.Injective toVector := by
  intro left right same
  cases left
  cases right
  simp only [toVector, Matrix.vecCons_inj] at same
  obtain ⟨numerator, denominator, -⟩ := same
  cases ComplexNumber.toComplex_injective numerator
  cases ComplexNumber.toComplex_injective denominator
  rfl

theorem toVector_eq_add (numerator denominator : ComplexNumber ℝ) :
    (mk numerator denominator).toVector =
      (mk numerator .zero).toVector + (mk .zero denominator).toVector := by
  simp [toVector]

/-- Coordinates of different points are linearly independent. -/
theorem linearIndependent_toVector (separate : (left.separation right).toComplex ≠ 0) :
    LinearIndependent ℂ ![left.toVector, right.toVector] := by
  rw [LinearIndependent.pair_iff]
  intro factor other sum
  have numerators := congrFun sum 0
  have denominators := congrFun sum 1
  simp only [toVector, Pi.add_apply, Pi.smul_apply, Pi.zero_apply, Matrix.cons_val_zero,
    Matrix.cons_val_one, smul_eq_mul] at numerators denominators
  rw [toComplex_separation] at separate
  constructor
  · refine (mul_eq_zero_iff_right separate).mp ?_
    linear_combination right.denominator.toComplex * numerators -
      right.numerator.toComplex * denominators
  · refine (mul_eq_zero_iff_right separate).mp ?_
    linear_combination left.numerator.toComplex * denominators -
      left.denominator.toComplex * numerators

theorem toVector_multiple (point : Coordinate ℝ) (factor : ComplexNumber ℝ) :
    (point.multiple factor).toVector = factor.toComplex • point.toVector := by
  simp [toVector, multiple, ComplexNumber.toComplex_mul]

theorem norm_multiple (point : Coordinate ℝ) (factor : ComplexNumber ℝ) :
    (point.multiple factor).norm = ‖factor.toComplex‖ * point.norm := by
  have squares : (point.multiple factor).norm ^ 2 = (‖factor.toComplex‖ * point.norm) ^ 2 := by
    simp only [norm_sq, mul_pow, multiple, ComplexNumber.toComplex_mul, norm_mul]
    ring
  have length : 0 ≤ ‖factor.toComplex‖ := by positivity
  exact (sq_eq_sq₀ (norm_nonneg _) (mul_nonneg length (norm_nonneg _))).mp squares

theorem toComplex_separation_multiple (left right : Coordinate ℝ) (factor : ComplexNumber ℝ) :
    ((left.multiple factor).separation right).toComplex =
      factor.toComplex * (left.separation right).toComplex := by
  simp only [toComplex_separation, multiple, ComplexNumber.toComplex_mul]
  ring

/-- The distance of points does not tell multiples of a coordinate apart. -/
theorem chordalDistance_multiple (nonzero : factor ≠ .zero) :
    (left.multiple factor).chordalDistance right = left.chordalDistance right := by
  rw [← ComplexNumber.toComplex_eq_zero_iff.ne] at nonzero
  have length : ‖factor.toComplex‖ ≠ 0 := norm_ne_zero_iff.mpr nonzero
  by_cases vanishes : left.norm = 0 ∨ right.norm = 0
  · -- the pair of zeros has distance zero from everything
    have zero : (left.separation right).toComplex = 0 := by
      rcases vanishes with vanishes | vanishes
      all_goals
        obtain ⟨numerator, denominator⟩ := norm_eq_zero_iff.mp vanishes
        simp [toComplex_separation, numerator, denominator]
    have multiplied : ((left.multiple factor).separation right).toComplex = 0 := by
      rw [toComplex_separation_multiple, zero, mul_zero]
    rw [chordalDistance_eq_zero_iff.mpr zero, chordalDistance_eq_zero_iff.mpr multiplied]
  · rw [not_or] at vanishes
    obtain ⟨leftNonzero, rightNonzero⟩ := vanishes
    have multipleNonzero : (left.multiple factor).norm ≠ 0 := by
      rw [norm_multiple]
      exact mul_ne_zero length leftNonzero
    have multiplied := chordalDistance_mul_norm multipleNonzero rightNonzero
    rw [dist_eq_norm, toComplex_separation_multiple, norm_mul, ← dist_eq_norm, norm_multiple,
      ← chordalDistance_mul_norm leftNonzero rightNonzero] at multiplied
    refine mul_right_cancel₀ (mul_ne_zero (mul_ne_zero length leftNonzero) rightNonzero) ?_
    linear_combination multiplied

/-! ## Proportional coordinates -/

/-- Whether one coordinate is a multiple of the other by a factor other than zero.  This makes
two coordinates the same point, or both of them the pair of zeros. -/
def Proportional (left right : Coordinate ℝ) : Prop :=
  ∃ factor : ComplexNumber ℝ, factor ≠ .zero ∧ right = left.multiple factor

theorem proportional_iff :
    Proportional left right ↔
      ∃ factor : ℂ, factor ≠ 0 ∧ right.toVector = factor • left.toVector := by
  constructor
  · rintro ⟨factor, nonzero, rfl⟩
    exact ⟨factor.toComplex, ComplexNumber.toComplex_eq_zero_iff.ne.mpr nonzero,
      toVector_multiple left factor⟩
  · rintro ⟨factor, nonzero, vectors⟩
    refine ⟨.ofComplex factor, ComplexNumber.ofComplex_ne_zero.mpr nonzero, ?_⟩
    apply toVector_injective
    rw [vectors, toVector_multiple, ComplexNumber.toComplex_ofComplex]

namespace Proportional

theorem refl (point : Coordinate ℝ) : Proportional point point :=
  proportional_iff.mpr ⟨1, one_ne_zero, (one_smul ℂ _).symm⟩

theorem symm (proportional : Proportional left right) : Proportional right left := by
  obtain ⟨factor, nonzero, vectors⟩ := proportional_iff.mp proportional
  refine proportional_iff.mpr ⟨factor⁻¹, inv_ne_zero nonzero, ?_⟩
  rw [vectors, inv_smul_smul₀ nonzero]

theorem trans (first : Proportional left middle) (second : Proportional middle right) :
    Proportional left right := by
  obtain ⟨factor, nonzero, middleEq⟩ := proportional_iff.mp first
  obtain ⟨other, otherNonzero, rightEq⟩ := proportional_iff.mp second
  refine proportional_iff.mpr ⟨other * factor, mul_ne_zero otherNonzero nonzero, ?_⟩
  rw [rightEq, middleEq, smul_smul]

/-- Rescaling multiplies. -/
theorem normalized_self (point : Coordinate ℝ) : Proportional point.normalized point := by
  obtain ⟨factor, positive, stretched⟩ := aligned_normalized point
  refine proportional_iff.mpr ⟨factor, Complex.ofReal_ne_zero.mpr positive.ne', ?_⟩
  rw [← toVector_stretch, ← stretched]

/-- Proportional coordinates rescale to proportional ones. -/
theorem normalized (proportional : Proportional left right) :
    Proportional left.normalized right.normalized :=
  ((normalized_self left).trans proportional).trans (normalized_self right).symm

/-- Coordinates that rescale to proportional ones are proportional. -/
theorem of_normalized (proportional : Proportional left.normalized right.normalized) :
    Proportional left right :=
  ((normalized_self left).symm.trans proportional).trans (normalized_self right)

/-- Only the pair of zeros is proportional to the pair of zeros. -/
theorem norm_eq_zero_iff (proportional : Proportional left right) :
    left.norm = 0 ↔ right.norm = 0 := by
  obtain ⟨factor, nonzero, rfl⟩ := proportional
  have length : ‖factor.toComplex‖ ≠ 0 :=
    norm_ne_zero_iff.mpr (ComplexNumber.toComplex_eq_zero_iff.ne.mpr nonzero)
  rw [norm_multiple, mul_eq_zero, or_iff_right length]

end Proportional

end Coordinate

end Stereograph
