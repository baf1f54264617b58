import Mathlib.Analysis.SpecialFunctions.Complex.Arg
import Mathlib.Analysis.SpecialFunctions.Log.Base
import Mathlib.Analysis.SpecialFunctions.Pow.Real
import Stereograph.Proofs.Decimal.Rounding
import Stereograph.Sphere.ComplexNumber

/-!
# Exact arithmetic

The real numbers are scalars.  Over them nothing is rounded, and pairs of a real and an
imaginary part are the complex numbers.
-/

namespace Stereograph

namespace Decimal.Binary

/-- The rational number that a binary number stands for. -/
def value (number : Binary) : ℚ :=
  if number.negative then -number.magnitude else number.magnitude

theorem value_opposite (number : Binary) : number.opposite.value = -number.value := by
  obtain ⟨negative, mantissa, exponent⟩ := number
  cases negative <;> simp [value, opposite, magnitude]

theorem abs_value (number : Binary) : |number.value| = number.magnitude := by
  rw [value]
  split
  · rw [abs_neg, abs_of_nonneg number.magnitude_nonneg]
  · rw [abs_of_nonneg number.magnitude_nonneg]

end Decimal.Binary

open Decimal

/-- The real number of a floating-point number, and zero where there is none. -/
noncomputable def realOfFloat (number : Float) : ℝ :=
  match Binary.ofFloat? number with
  | some number => number.value
  | none => 0

/-- Arithmetic of real numbers.  A quotient by zero is zero. -/
noncomputable instance : Scalar ℝ where
  beq left right := decide (left = right)
  decidableLT := inferInstance
  decidableLE := inferInstance
  isFinite _ := true
  ofFloat := realOfFloat
  abs number := |number|
  sqrt := Real.sqrt
  sin := Real.sin
  cos := Real.cos
  tan := Real.tan
  sinh := Real.sinh
  cosh := Real.cosh
  exp := Real.exp
  log := Real.log
  log2 := Real.logb 2
  power := Real.rpow
  angle ordinate abscissa := Complex.arg ⟨abscissa, ordinate⟩
  fract := Int.fract

theorem beq_real (left right : ℝ) : (left == right) = decide (left = right) :=
  rfl

/-! ## Constants -/

theorem ofFloat_real_zero : (Scalar.ofFloat 0 : ℝ) = 0 := by
  have zero : Binary.ofFloat? 0 = some ⟨false, 0, -1074⟩ := by decide +kernel
  simp [Scalar.ofFloat, realOfFloat, zero, Binary.value, Binary.magnitude]

theorem ofFloat_real_one : (Scalar.ofFloat 1 : ℝ) = 1 := by
  have one : Binary.ofFloat? 1 = some ⟨false, 2 ^ 52, -52⟩ := by decide +kernel
  simp only [Scalar.ofFloat, realOfFloat, one, Binary.value, Binary.magnitude]
  norm_num

theorem ofFloat_real_neg {value : Float} (finite : value.isFinite = true) :
    (Scalar.ofFloat (-value) : ℝ) = -Scalar.ofFloat value := by
  obtain ⟨number, finite⟩ := Binary.isFinite_iff.mp finite
  simp [Scalar.ofFloat, realOfFloat, finite, Binary.ofFloat?_neg finite,
    Binary.value_opposite]

/-! ## Complex numbers -/

namespace ComplexNumber

/-- The complex number of a pair. -/
def toComplex (number : ComplexNumber ℝ) : ℂ :=
  ⟨number.re, number.im⟩

theorem toComplex_injective : Function.Injective toComplex := by
  intro left right same
  cases left
  cases right
  cases same
  rfl

@[simp] theorem toComplex_zero : (zero : ComplexNumber ℝ).toComplex = 0 :=
  rfl

@[simp] theorem toComplex_one : (one : ComplexNumber ℝ).toComplex = 1 :=
  rfl

@[simp] theorem toComplex_eq_zero_iff {number : ComplexNumber ℝ} :
    number.toComplex = 0 ↔ number = zero :=
  toComplex_injective.eq_iff' toComplex_zero

@[simp] theorem toComplex_real (value : ℝ) : (real value).toComplex = value :=
  rfl

theorem toComplex_add (left right : ComplexNumber ℝ) :
    (left.add right).toComplex = left.toComplex + right.toComplex :=
  rfl

theorem toComplex_sub (left right : ComplexNumber ℝ) :
    (left.sub right).toComplex = left.toComplex - right.toComplex :=
  rfl

theorem toComplex_neg (number : ComplexNumber ℝ) :
    number.neg.toComplex = -number.toComplex :=
  rfl

theorem toComplex_scale (number : ComplexNumber ℝ) (factor : ℝ) :
    (number.scale factor).toComplex = number.toComplex * factor := by
  apply Complex.ext
  · simp [toComplex, scale]
  · simp [toComplex, scale]

theorem toComplex_mul (left right : ComplexNumber ℝ) :
    (left.mul right).toComplex = left.toComplex * right.toComplex :=
  rfl

/-- The quotient of pairs is the complex quotient. -/
theorem toComplex_div (left right : ComplexNumber ℝ) :
    (left.div right).toComplex = left.toComplex / right.toComplex := by
  apply Complex.ext
  · simp [toComplex, div, normSq, Complex.div_re, Complex.normSq_apply, add_div]
  · simp [toComplex, div, normSq, Complex.div_im, Complex.normSq_apply, sub_div]

theorem mul_assoc (left middle right : ComplexNumber ℝ) :
    (left.mul middle).mul right = left.mul (middle.mul right) := by
  apply toComplex_injective
  simp only [toComplex_mul]
  ring

theorem normSq_eq (number : ComplexNumber ℝ) :
    number.normSq = Complex.normSq number.toComplex :=
  rfl

theorem norm_eq (number : ComplexNumber ℝ) : number.norm = ‖number.toComplex‖ :=
  rfl

theorem norm_neg (number : ComplexNumber ℝ) : number.neg.norm = number.norm := by
  simp [norm_eq, toComplex_neg]

theorem arg_eq (number : ComplexNumber ℝ) : number.arg = number.toComplex.arg :=
  rfl

theorem toComplex_polar (radius angle : ℝ) :
    (polar radius angle).toComplex = radius * Complex.exp (angle * Complex.I) := by
  rw [Complex.exp_mul_I]
  apply Complex.ext
  · simp [toComplex, polar, Scalar.cos, Complex.cos_ofReal_re]
  · simp [toComplex, polar, Scalar.sin, Complex.sin_ofReal_re]

/-- The square root squares back. -/
theorem toComplex_sqrt_mul_self (number : ComplexNumber ℝ) :
    number.sqrt.toComplex * number.sqrt.toComplex = number.toComplex := by
  have radius : (Scalar.sqrt number.norm : ℝ) * Scalar.sqrt number.norm =
      ‖number.toComplex‖ :=
    Real.mul_self_sqrt (Real.sqrt_nonneg _)
  have half : number.arg / 2.0 + number.arg / 2.0 = number.toComplex.arg := by
    rw [arg_eq]
    norm_num
  have angle : ((number.arg / 2.0 : ℝ) : ℂ) * Complex.I +
      ((number.arg / 2.0 : ℝ) : ℂ) * Complex.I = number.toComplex.arg * Complex.I := by
    rw [← add_mul, ← Complex.ofReal_add, half]
  rw [sqrt, toComplex_polar, mul_mul_mul_comm, ← Complex.ofReal_mul, radius,
    ← Complex.exp_add, angle]
  exact Complex.norm_mul_exp_arg_mul_I _

/-- The square root of a real number that is not negative. -/
theorem sqrt_real {value : ℝ} (nonneg : 0 ≤ value) : (real value).sqrt = real √value := by
  have radius : (real value).norm = value := by
    rw [norm_eq, toComplex_real, Complex.norm_of_nonneg nonneg]
  have angle : (real value).arg = 0 := by
    rw [arg_eq, toComplex_real, Complex.arg_ofReal_of_nonneg nonneg]
  rw [sqrt, radius, angle]
  simp [polar, real, Scalar.sin, Scalar.cos, Scalar.sqrt]

/-! ### Positive multiples -/

theorem norm_scale (number : ComplexNumber ℝ) {factor : ℝ} (positive : 0 < factor) :
    (number.scale factor).norm = number.norm * factor := by
  rw [norm_eq, toComplex_scale, norm_mul, norm_eq, Complex.norm_of_nonneg positive.le]

theorem arg_scale (number : ComplexNumber ℝ) {factor : ℝ} (positive : 0 < factor) :
    (number.scale factor).arg = number.arg := by
  rw [arg_eq, toComplex_scale, Complex.arg_mul_real positive, arg_eq]

theorem div_scale (left right : ComplexNumber ℝ) {factor : ℝ} (positive : 0 < factor) :
    (left.scale factor).div (right.scale factor) = left.div right := by
  apply toComplex_injective
  rw [toComplex_div, toComplex_div, toComplex_scale, toComplex_scale]
  exact mul_div_mul_right _ _ (Complex.ofReal_ne_zero.mpr positive.ne')

theorem polar_mul (radius factor angle : ℝ) :
    polar (radius * factor) angle = (polar radius angle).scale factor := by
  simp [polar, scale, mul_right_comm]

/-- A power of a multiple is a multiple of the power. -/
theorem pow_scale (base exponent : ComplexNumber ℝ) {factor : ℝ} (positive : 0 < factor) :
    (base.scale factor).pow exponent =
      (base.pow exponent).scale (factor ^ exponent.re) := by
  have nonneg : 0 ≤ base.norm := Real.sqrt_nonneg _
  have radius : (Scalar.power (base.norm * factor) exponent.re : ℝ) =
      Scalar.power base.norm exponent.re * factor ^ exponent.re :=
    Real.mul_rpow nonneg positive.le
  rw [pow, norm_scale base positive, arg_scale base positive, radius, polar_mul, pow]

/-- A square root of a multiple is a multiple of the square root. -/
theorem sqrt_scale (number : ComplexNumber ℝ) {factor : ℝ} (positive : 0 < factor) :
    (number.scale factor).sqrt = number.sqrt.scale (Real.sqrt factor) := by
  have radius : (Scalar.sqrt (number.norm * factor) : ℝ) =
      Scalar.sqrt number.norm * Real.sqrt factor :=
    Real.sqrt_mul (Real.sqrt_nonneg _) factor
  rw [sqrt, norm_scale number positive, arg_scale number positive, radius, polar_mul, sqrt]

end ComplexNumber

end Stereograph
