import Stereograph.Proofs.Sphere.Chord

/-!
# Points of complex numbers

A coordinate with a nonzero denominator is the point of a complex number, the ratio of its
components.  Arithmetic on coordinates rescales, and the ratio does not notice, so the result
of every operation is the point of the result on the numbers.  A quotient needs a nonzero
divisor for that.
-/

namespace Stereograph

namespace Coordinate

variable {point other left right : Coordinate ℝ}
  {number leftNumber rightNumber : ComplexNumber ℝ}

/-- Whether two coordinates are one point of the sphere. -/
structure SamePoint (left right : Coordinate ℝ) : Prop where
  left_norm : left.norm ≠ 0
  right_norm : right.norm ≠ 0
  chordalDistance_eq : left.chordalDistance right = 0

/-- Whether a coordinate is the point of a complex number. -/
structure IsPointOf (point : Coordinate ℝ) (number : ComplexNumber ℝ) : Prop where
  denominator : point.denominator.toComplex ≠ 0
  numerator : point.numerator.toComplex = number.toComplex * point.denominator.toComplex

theorem IsPointOf.norm_ne_zero (isPoint : point.IsPointOf number) : point.norm ≠ 0 := by
  intro zero
  apply isPoint.denominator
  rw [(norm_eq_zero_iff.mp zero).2, ComplexNumber.toComplex_zero]

/-- Coordinates of one number are one point. -/
theorem IsPointOf.samePoint (isPoint : point.IsPointOf number)
    (isOther : other.IsPointOf number) : SamePoint point other where
  left_norm := isPoint.norm_ne_zero
  right_norm := isOther.norm_ne_zero
  chordalDistance_eq := by
    rw [chordalDistance_eq_zero_iff, toComplex_separation, isPoint.numerator,
      isOther.numerator]
    ring

/-- Rescaling keeps the ratio. -/
theorem IsPointOf.normalized (isPoint : point.IsPointOf number) :
    point.normalized.IsPointOf number := by
  obtain ⟨factor, positive, stretched⟩ := aligned_normalized point
  have nonzero : (factor : ℂ) ≠ 0 := Complex.ofReal_ne_zero.mpr positive.ne'
  have denominator : point.denominator.toComplex =
      point.normalized.denominator.toComplex * factor := by
    conv_lhs => rw [stretched, denominator_stretch, ComplexNumber.toComplex_scale]
  have numerator : point.numerator.toComplex =
      point.normalized.numerator.toComplex * factor := by
    conv_lhs => rw [stretched, numerator_stretch, ComplexNumber.toComplex_scale]
  constructor
  · intro zero
    apply isPoint.denominator
    rw [denominator, zero, zero_mul]
  · apply mul_right_cancel₀ nonzero
    rw [← numerator, isPoint.numerator, denominator, mul_assoc]

/-! ## Numbers as points -/

/-- A number over one is its point. -/
theorem isPointOf_over_one (number : ComplexNumber ℝ) :
    IsPointOf ⟨number, .one⟩ number where
  denominator := by
    rw [ComplexNumber.toComplex_one]
    exact one_ne_zero
  numerator := by
    rw [ComplexNumber.toComplex_one, mul_one]

theorem isPointOf_ofComplex (number : ComplexNumber ℝ) :
    (ofComplex number).IsPointOf number :=
  (isPointOf_over_one number).normalized

theorem isPointOf_constant (value : ℝ) : (constant value).IsPointOf (.real value) :=
  isPointOf_over_one (.real value)

theorem isPointOf_imaginaryUnit : imaginaryUnit.IsPointOf .imaginaryUnit :=
  isPointOf_over_one .imaginaryUnit

/-! ## Arithmetic -/

theorem IsPointOf.neg (isPoint : point.IsPointOf number) : point.neg.IsPointOf number.neg where
  denominator := isPoint.denominator
  numerator := by
    rw [Coordinate.neg, ComplexNumber.toComplex_neg, isPoint.numerator,
      ComplexNumber.toComplex_neg, neg_mul]

section Operations

variable (isLeft : left.IsPointOf leftNumber) (isRight : right.IsPointOf rightNumber)

include isLeft isRight

theorem IsPointOf.denominator_mul :
    (left.denominator.mul right.denominator).toComplex ≠ 0 := by
  rw [ComplexNumber.toComplex_mul]
  exact mul_ne_zero isLeft.denominator isRight.denominator

theorem IsPointOf.add : (left.add right).IsPointOf (leftNumber.add rightNumber) := by
  refine IsPointOf.normalized ⟨isLeft.denominator_mul isRight, ?_⟩
  simp only [ComplexNumber.toComplex_add, ComplexNumber.toComplex_mul, isLeft.numerator,
    isRight.numerator]
  ring

theorem IsPointOf.sub : (left.sub right).IsPointOf (leftNumber.sub rightNumber) := by
  refine IsPointOf.normalized ⟨isLeft.denominator_mul isRight, ?_⟩
  simp only [ComplexNumber.toComplex_sub, ComplexNumber.toComplex_mul, isLeft.numerator,
    isRight.numerator]
  ring

theorem IsPointOf.mul : (left.mul right).IsPointOf (leftNumber.mul rightNumber) := by
  refine IsPointOf.normalized ⟨isLeft.denominator_mul isRight, ?_⟩
  simp only [ComplexNumber.toComplex_mul, isLeft.numerator, isRight.numerator]
  ring

/-- A quotient by a nonzero number is the point of the quotient. -/
theorem IsPointOf.div (nonzero : rightNumber ≠ .zero) :
    (left.div right).IsPointOf (leftNumber.div rightNumber) := by
  have divisor : rightNumber.toComplex ≠ 0 :=
    ComplexNumber.toComplex_eq_zero_iff.not.mpr nonzero
  refine IsPointOf.normalized ⟨?_, ?_⟩
  · rw [ComplexNumber.toComplex_mul, isRight.numerator]
    exact mul_ne_zero isLeft.denominator (mul_ne_zero divisor isRight.denominator)
  · simp only [ComplexNumber.toComplex_mul, ComplexNumber.toComplex_div, isLeft.numerator,
      isRight.numerator]
    field_simp

end Operations

end Coordinate

end Stereograph
