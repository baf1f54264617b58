import Stereograph.Proofs.Sphere.Exact
import Stereograph.Sphere.Coordinate

/-!
# Rescaled coordinates

Over exact arithmetic a coordinate and its positive multiples rescale to one coordinate,
of length one unless all components are zero.  Every operation that rescales its result
therefore sees its operands up to positive factors, and gives a result that rescaling
leaves as it is.
-/

namespace Stereograph.Coordinate

variable {point left right : Coordinate ℝ} {factor leftFactor rightFactor : ℝ}

/-- Multiply every component by a real factor. -/
noncomputable def stretch (point : Coordinate ℝ) (factor : ℝ) : Coordinate ℝ :=
  ⟨point.numerator.scale factor, point.denominator.scale factor⟩

@[simp] theorem numerator_stretch (point : Coordinate ℝ) (factor : ℝ) :
    (point.stretch factor).numerator = point.numerator.scale factor :=
  rfl

@[simp] theorem denominator_stretch (point : Coordinate ℝ) (factor : ℝ) :
    (point.stretch factor).denominator = point.denominator.scale factor :=
  rfl

theorem stretch_one (point : Coordinate ℝ) : point.stretch 1 = point := by
  simp [stretch, ComplexNumber.scale]

theorem stretch_stretch (point : Coordinate ℝ) (first second : ℝ) :
    (point.stretch first).stretch second = point.stretch (first * second) := by
  simp [stretch, ComplexNumber.scale, mul_assoc]

/-! ## Length -/

theorem norm_eq_sqrt (point : Coordinate ℝ) :
    point.norm = Real.sqrt (point.numerator.normSq + point.denominator.normSq) := by
  simp only [norm, components, Vec4.dot, ComplexNumber.normSq, Scalar.sqrt]
  congr 1
  ring

theorem norm_nonneg (point : Coordinate ℝ) : 0 ≤ point.norm :=
  Real.sqrt_nonneg _

theorem norm_sq (point : Coordinate ℝ) :
    point.norm ^ 2 = ‖point.numerator.toComplex‖ ^ 2 + ‖point.denominator.toComplex‖ ^ 2 := by
  rw [norm_eq_sqrt, ComplexNumber.normSq_eq, ComplexNumber.normSq_eq,
    Real.sq_sqrt (add_nonneg (Complex.normSq_nonneg _) (Complex.normSq_nonneg _)),
    Complex.sq_norm, Complex.sq_norm]

/-- Only the pair of zeros has no length. -/
theorem norm_eq_zero_iff :
    point.norm = 0 ↔ point.numerator = .zero ∧ point.denominator = .zero := by
  rw [← sq_eq_zero_iff, norm_sq,
    add_eq_zero_iff_of_nonneg (sq_nonneg _) (sq_nonneg _)]
  simp

theorem norm_stretch (point : Coordinate ℝ) (positive : 0 < factor) :
    (point.stretch factor).norm = point.norm * factor := by
  have squares : (point.stretch factor).norm ^ 2 = (point.norm * factor) ^ 2 := by
    simp only [norm_sq, mul_pow, numerator_stretch, denominator_stretch,
      ComplexNumber.toComplex_scale, norm_mul, Complex.norm_of_nonneg positive.le]
    ring
  exact (sq_eq_sq₀ (norm_nonneg _) (mul_nonneg (norm_nonneg _) positive.le)).mp squares

theorem norm_neg (point : Coordinate ℝ) : point.neg.norm = point.norm := by
  rw [norm_eq_sqrt, norm_eq_sqrt]
  simp [neg, ComplexNumber.neg, ComplexNumber.normSq]

/-! ## Rescaling -/

theorem normalized_of_norm_eq_zero (zero : point.norm = 0) : point.normalized = point := by
  simp [normalized, zero]

theorem normalized_of_norm_ne_zero (nonzero : point.norm ≠ 0) :
    point.normalized = point.stretch point.norm⁻¹ := by
  simp [normalized, beq_real, nonzero, stretch, ComplexNumber.scale, ofComponents,
    components, Vec4.map, div_eq_mul_inv]

theorem norm_normalized (nonzero : point.norm ≠ 0) : point.normalized.norm = 1 := by
  have positive : 0 < point.norm⁻¹ :=
    inv_pos.mpr (lt_of_le_of_ne (norm_nonneg point) nonzero.symm)
  rw [normalized_of_norm_ne_zero nonzero, norm_stretch point positive,
    mul_inv_cancel₀ nonzero]

theorem normalized_of_norm_eq_one (unit : point.norm = 1) : point.normalized = point := by
  rw [normalized_of_norm_ne_zero (by rw [unit]; exact one_ne_zero), unit, inv_one,
    stretch_one]

@[simp] theorem normalized_normalized (point : Coordinate ℝ) :
    point.normalized.normalized = point.normalized := by
  by_cases zero : point.norm = 0
  · rw [normalized_of_norm_eq_zero zero, normalized_of_norm_eq_zero zero]
  · exact normalized_of_norm_eq_one (norm_normalized zero)

/-- Positive multiples rescale to one coordinate. -/
theorem normalized_stretch (point : Coordinate ℝ) (positive : 0 < factor) :
    (point.stretch factor).normalized = point.normalized := by
  have norm_eq := norm_stretch point positive
  by_cases zero : point.norm = 0
  · obtain ⟨numerator, denominator⟩ := norm_eq_zero_iff.mp zero
    have fixed : point.stretch factor = point := by
      rw [stretch, numerator, denominator]
      cases point
      cases numerator
      cases denominator
      simp [ComplexNumber.scale, ComplexNumber.zero]
    rw [fixed]
  · have nonzero : (point.stretch factor).norm ≠ 0 := by
      rw [norm_eq]
      exact mul_ne_zero zero positive.ne'
    rw [normalized_of_norm_ne_zero nonzero, normalized_of_norm_ne_zero zero,
      stretch_stretch, norm_eq, mul_inv, ← mul_assoc, mul_comm factor, mul_assoc,
      mul_inv_cancel₀ positive.ne', mul_one]

/-- Two coordinates whose components differ by a positive factor. -/
def Aligned (left right : Coordinate ℝ) : Prop :=
  ∃ factor : ℝ, 0 < factor ∧ right = left.stretch factor

theorem Aligned.refl (point : Coordinate ℝ) : Aligned point point :=
  ⟨1, one_pos, (stretch_one point).symm⟩

theorem Aligned.normalized_eq (aligned : Aligned left right) :
    right.normalized = left.normalized := by
  obtain ⟨factor, positive, rfl⟩ := aligned
  exact normalized_stretch left positive

/-- A coordinate is a positive multiple of what it rescales to. -/
theorem aligned_normalized (point : Coordinate ℝ) : Aligned point.normalized point := by
  by_cases zero : point.norm = 0
  · rw [normalized_of_norm_eq_zero zero]
    exact .refl point
  · refine ⟨point.norm, lt_of_le_of_ne (norm_nonneg point) (Ne.symm zero), ?_⟩
    rw [normalized_of_norm_ne_zero zero, stretch_stretch, inv_mul_cancel₀ zero, stretch_one]

/-- A coordinate that rescaling leaves as it is. -/
def IsRescaled (point : Coordinate ℝ) : Prop :=
  point.normalized = point

theorem isRescaled_normalized (point : Coordinate ℝ) : IsRescaled point.normalized :=
  normalized_normalized point

theorem norm_infinity : (infinity : Coordinate ℝ).norm = 1 := by
  simp [norm_eq_sqrt, infinity, ComplexNumber.normSq]

theorem isRescaled_infinity : IsRescaled infinity :=
  normalized_of_norm_eq_one norm_infinity

theorem normalized_neg (point : Coordinate ℝ) : point.neg.normalized = point.normalized.neg := by
  by_cases zero : point.norm = 0
  · rw [normalized_of_norm_eq_zero zero,
      normalized_of_norm_eq_zero ((norm_neg point).trans zero)]
  · rw [normalized_of_norm_ne_zero zero,
      normalized_of_norm_ne_zero (by rw [norm_neg]; exact zero), norm_neg]
    simp [neg, stretch, ComplexNumber.neg, ComplexNumber.scale]

/-! ## Operations on multiples -/

section Operations

variable (positive : 0 < factor) (leftPositive : 0 < leftFactor)
  (rightPositive : 0 < rightFactor)

theorem mul_scale_scale (left right : ComplexNumber ℝ) (leftFactor rightFactor : ℝ) :
    (left.scale leftFactor).mul (right.scale rightFactor) =
      (left.mul right).scale (leftFactor * rightFactor) := by
  apply ComplexNumber.toComplex_injective
  simp only [ComplexNumber.toComplex_mul, ComplexNumber.toComplex_scale]
  push_cast
  ring

theorem add_scale (left right : ComplexNumber ℝ) (factor : ℝ) :
    (left.scale factor).add (right.scale factor) = (left.add right).scale factor := by
  apply ComplexNumber.toComplex_injective
  simp only [ComplexNumber.toComplex_add, ComplexNumber.toComplex_scale]
  ring

theorem sub_scale (left right : ComplexNumber ℝ) (factor : ℝ) :
    (left.scale factor).sub (right.scale factor) = (left.sub right).scale factor := by
  apply ComplexNumber.toComplex_injective
  simp only [ComplexNumber.toComplex_sub, ComplexNumber.toComplex_scale]
  ring

include leftPositive rightPositive

theorem add_stretch :
    (left.stretch leftFactor).add (right.stretch rightFactor) = left.add right := by
  simp only [add, numerator_stretch, denominator_stretch, mul_scale_scale, add_scale]
  exact normalized_stretch ⟨_, _⟩ (mul_pos leftPositive rightPositive)

theorem sub_stretch :
    (left.stretch leftFactor).sub (right.stretch rightFactor) = left.sub right := by
  simp only [sub, numerator_stretch, denominator_stretch, mul_scale_scale, sub_scale]
  exact normalized_stretch ⟨_, _⟩ (mul_pos leftPositive rightPositive)

theorem mul_stretch :
    (left.stretch leftFactor).mul (right.stretch rightFactor) = left.mul right := by
  simp only [mul, numerator_stretch, denominator_stretch, mul_scale_scale]
  exact normalized_stretch ⟨_, _⟩ (mul_pos leftPositive rightPositive)

theorem div_stretch :
    (left.stretch leftFactor).div (right.stretch rightFactor) = left.div right := by
  simp only [div, numerator_stretch, denominator_stretch, mul_scale_scale]
  exact normalized_stretch ⟨_, _⟩ (mul_pos leftPositive rightPositive)

theorem pow_stretch :
    (left.stretch leftFactor).pow (right.stretch rightFactor) = left.pow right := by
  simp only [pow, numerator_stretch, denominator_stretch,
    ComplexNumber.div_scale _ _ rightPositive, ComplexNumber.pow_scale _ _ leftPositive]
  split
  · exact normalized_stretch ⟨_, _⟩ (Real.rpow_pos_of_pos leftPositive _)
  · exact normalized_stretch ⟨_, _⟩ (Real.rpow_pos_of_pos leftPositive _)

omit leftPositive rightPositive
include positive

theorem sqrt_stretch : (point.stretch factor).sqrt = point.sqrt := by
  simp only [sqrt, numerator_stretch, denominator_stretch,
    ComplexNumber.sqrt_scale _ positive]
  exact normalized_stretch ⟨_, _⟩ (Real.sqrt_pos.mpr positive)

/-- A share of the length of a multiple is the same share of the length. -/
theorem lt_share_scale_iff (number : ComplexNumber ℝ) :
    (number.scale factor).norm < negligibleShare * (point.stretch factor).norm ↔
      number.norm < negligibleShare * point.norm := by
  rw [ComplexNumber.norm_scale number positive, norm_stretch point positive, ← mul_assoc]
  exact mul_lt_mul_iff_of_pos_right positive

theorem nearInfinity_stretch : (point.stretch factor).nearInfinity = point.nearInfinity :=
  decide_eq_decide.mpr (lt_share_scale_iff positive point.denominator)

theorem nearZero_stretch : (point.stretch factor).nearZero = point.nearZero :=
  decide_eq_decide.mpr (lt_share_scale_iff positive point.numerator)

theorem throughComplex_stretch (function : ComplexNumber ℝ → ComplexNumber ℝ) :
    (point.stretch factor).throughComplex function = point.throughComplex function := by
  rw [throughComplex, nearInfinity_stretch positive, numerator_stretch,
    denominator_stretch, ComplexNumber.div_scale _ _ positive, throughComplex]

theorem log_stretch : (point.stretch factor).log = point.log := by
  rw [log, nearZero_stretch positive, throughComplex_stretch positive, log]

end Operations

theorem isRescaled_throughComplex (function : ComplexNumber ℝ → ComplexNumber ℝ)
    (point : Coordinate ℝ) : IsRescaled (point.throughComplex function) := by
  unfold throughComplex
  split
  · exact isRescaled_infinity
  · exact isRescaled_normalized _

theorem isRescaled_pow (base exponent : Coordinate ℝ) : IsRescaled (base.pow exponent) := by
  simp only [pow]
  split
  · exact isRescaled_normalized _
  · exact isRescaled_normalized _

theorem isRescaled_log (point : Coordinate ℝ) : IsRescaled point.log := by
  unfold log
  split
  · exact isRescaled_infinity
  · exact isRescaled_throughComplex _ point

end Stereograph.Coordinate
