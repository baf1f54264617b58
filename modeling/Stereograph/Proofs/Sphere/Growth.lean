import Mathlib.Analysis.Convex.SpecificFunctions.Basic
import Stereograph.Proofs.Sphere.Mobius

/-!
# Growth of transforms

The energy of a complex matrix is the sum of the squared absolute values of its entries.  A
factor of determinant one multiplies the energy of a matrix at most by a number that its own
energy determines.  A zoom between opposite poles, rescaled to determinant one, multiplies it
at most by the scale or its inverse.  Poles that are almost opposite make that number a
little larger.
-/

namespace Stereograph

open ComplexConjugate

/-! ## Energy of complex matrices -/

/-- The sum of the squared absolute values of the entries. -/
noncomputable def energy (matrix : Matrix (Fin 2) (Fin 2) ℂ) : ℝ :=
  Complex.normSq (matrix 0 0) + Complex.normSq (matrix 0 1) + Complex.normSq (matrix 1 0) +
    Complex.normSq (matrix 1 1)

theorem energy_nonneg (matrix : Matrix (Fin 2) (Fin 2) ℂ) : 0 ≤ energy matrix := by
  have entry := fun row column => Complex.normSq_nonneg (matrix row column)
  exact add_nonneg (add_nonneg (add_nonneg (entry 0 0) (entry 0 1)) (entry 1 0)) (entry 1 1)

/-- A Hermitian form with nonnegative trace and determinant is nonnegative. -/
theorem form_nonneg {first second : ℝ} {mixed : ℂ} (trace : 0 ≤ first + second)
    (minor : Complex.normSq mixed ≤ first * second) (a b : ℂ) :
    0 ≤ first * Complex.normSq a + second * Complex.normSq b - 2 * (a * conj b * mixed).re := by
  have mixed_nonneg := Complex.normSq_nonneg mixed
  have first_nonneg : 0 ≤ first := by nlinarith
  have second_nonneg : 0 ≤ second := by nlinarith
  obtain zero | positive := first_nonneg.eq_or_lt
  · have vanishing : mixed = 0 := by
      rw [← Complex.normSq_eq_zero]
      rw [← zero, zero_mul] at minor
      exact le_antisymm minor mixed_nonneg
    rw [← zero, vanishing]
    have := mul_nonneg second_nonneg (Complex.normSq_nonneg b)
    simpa using this
  · have square : first * (first * Complex.normSq a + second * Complex.normSq b -
        2 * (a * conj b * mixed).re) =
          Complex.normSq (first * a - conj (conj b * mixed)) +
            (first * second - Complex.normSq mixed) * Complex.normSq b := by
      simp only [Complex.normSq_apply, Complex.mul_re, Complex.mul_im, Complex.sub_re,
        Complex.sub_im, Complex.conj_re, Complex.conj_im, Complex.ofReal_re, Complex.ofReal_im]
      ring
    have rest := mul_nonneg (sub_nonneg.mpr minor) (Complex.normSq_nonneg b)
    have whole : 0 ≤ first * (first * Complex.normSq a + second * Complex.normSq b -
        2 * (a * conj b * mixed).re) := by
      rw [square]
      exact add_nonneg (Complex.normSq_nonneg _) rest
    exact nonneg_of_mul_nonneg_right whole positive

section Growth

variable {increment : Matrix (Fin 2) (Fin 2) ℂ} {bound : ℝ}

/-- A matrix of determinant one stretches a row by a factor that its energy bounds. -/
theorem row_le (unimodular : increment.det = 1) (one_le : 1 ≤ bound)
    (bounded : bound * (energy increment - 2) ≤ (bound - 1) ^ 2) (a b : ℂ) :
    Complex.normSq (a * increment 0 0 + b * increment 1 0) +
        Complex.normSq (a * increment 0 1 + b * increment 1 1) ≤
      bound * (Complex.normSq a + Complex.normSq b) := by
  let upper := Complex.normSq (increment 0 0) + Complex.normSq (increment 0 1)
  let lower := Complex.normSq (increment 1 0) + Complex.normSq (increment 1 1)
  let mixed := increment 0 0 * conj (increment 1 0) + increment 0 1 * conj (increment 1 1)
  have energy_eq : energy increment = upper + lower := by
    simp only [energy, upper, lower]
    ring
  have lagrange : upper * lower - Complex.normSq mixed = 1 := by
    have determinant : Complex.normSq increment.det = 1 := by
      rw [unimodular, Complex.normSq_one]
    rw [Matrix.det_fin_two] at determinant
    rw [← determinant]
    simp only [upper, lower, mixed, Complex.normSq_apply, Complex.mul_re, Complex.mul_im,
      Complex.add_re, Complex.add_im, Complex.sub_re, Complex.sub_im, Complex.conj_re,
      Complex.conj_im]
    ring
  have image : Complex.normSq (a * increment 0 0 + b * increment 1 0) +
      Complex.normSq (a * increment 0 1 + b * increment 1 1) =
        upper * Complex.normSq a + lower * Complex.normSq b +
          2 * (a * conj b * mixed).re := by
    simp only [upper, lower, mixed, Complex.normSq_apply, Complex.mul_re, Complex.mul_im,
      Complex.add_re, Complex.add_im, Complex.conj_re, Complex.conj_im]
    ring
  rw [energy_eq] at bounded
  have trace : 0 ≤ (bound - upper) + (bound - lower) := by nlinarith
  have minor : Complex.normSq mixed ≤ (bound - upper) * (bound - lower) := by nlinarith
  have form := form_nonneg trace minor a b
  rw [image]
  linarith

theorem energy_mul_le (unimodular : increment.det = 1) (one_le : 1 ≤ bound)
    (bounded : bound * (energy increment - 2) ≤ (bound - 1) ^ 2)
    (accumulated : Matrix (Fin 2) (Fin 2) ℂ) :
    energy (accumulated * increment) ≤ bound * energy accumulated := by
  have upper := row_le unimodular one_le bounded (accumulated 0 0) (accumulated 0 1)
  have lower := row_le unimodular one_le bounded (accumulated 1 0) (accumulated 1 1)
  simp only [energy, Matrix.mul_apply, Fin.sum_univ_two]
  linarith

end Growth

/-! ## Energy of zooms -/

/-- How much a zoom by a scale can stretch. -/
noncomputable def gain (scale : ℝ) : ℝ :=
  max 1 (max scale scale⁻¹)

theorem one_le_gain (scale : ℝ) : 1 ≤ gain scale :=
  le_max_left _ _

/-- The stretch is the scale or its inverse, whichever is not below one. -/
theorem gain_eq_or {scale : ℝ} (positive : 0 < scale) :
    gain scale = scale ∨ gain scale = scale⁻¹ := by
  obtain small | large := le_total scale 1
  · right
    have inverse : 1 ≤ scale⁻¹ := (one_le_inv₀ positive).mpr small
    rw [gain, max_eq_right (small.trans inverse), max_eq_right inverse]
  · left
    have inverse : scale⁻¹ ≤ 1 := inv_le_one_of_one_le₀ large
    rw [gain, max_eq_left (inverse.trans large), max_eq_right large]

theorem sq_sub_one_div_gain {scale : ℝ} (positive : 0 < scale) :
    (gain scale - 1) ^ 2 / gain scale = (scale - 1) ^ 2 / scale := by
  obtain same | inverse := gain_eq_or positive
  · rw [same]
  · rw [inverse]
    field_simp
    ring

namespace Mobius

variable {near far : Coordinate ℝ} {scale : ℝ}

theorem energy_smul (factor : ℂ) (matrix : Matrix (Fin 2) (Fin 2) ℂ) :
    energy (factor • matrix) = Complex.normSq factor * energy matrix := by
  simp only [energy, Matrix.smul_apply, smul_eq_mul, Complex.normSq_mul]
  ring

theorem normSq_add_normSq_of_norm_eq_one {point : Coordinate ℝ} (unit : point.norm = 1) :
    Complex.normSq (point.toVector 0) + Complex.normSq (point.toVector 1) = 1 := by
  have square := point.norm_sq
  rw [unit, one_pow, Complex.sq_norm, Complex.sq_norm] at square
  exact square.symm

/-- The energy of a zoom before it is rescaled.  The closer the poles, the larger it is. -/
theorem energy_zoomBlocks (nearUnit : near.norm = 1) (farUnit : far.norm = 1)
    (separate : (near.separation far).toComplex ≠ 0) :
    energy (zoomBlocks near far scale).toMatrix =
      2 * scale + (scale - 1) ^ 2 / near.dist far ^ 2 := by
  have nearSum := normSq_add_normSq_of_norm_eq_one nearUnit
  have farSum := normSq_add_normSq_of_norm_eq_one farUnit
  have distance : near.dist far ^ 2 = Complex.normSq
      (near.toVector 0 * far.toVector 1 - near.toVector 1 * far.toVector 0) := by
    rw [Coordinate.dist_eq_norm, Complex.sq_norm]
    rfl
  have nonzero : near.dist far ^ 2 ≠ 0 := by
    rw [Coordinate.dist_eq_norm, Complex.sq_norm]
    exact Complex.normSq_eq_zero.not.mpr separate
  have inverse : Complex.normSq (near.separation far).toComplex⁻¹ = (near.dist far ^ 2)⁻¹ := by
    rw [Complex.normSq_inv, Coordinate.dist_eq_norm, Complex.sq_norm]
  rw [toMatrix_zoomBlocks, energy_smul, inverse, inv_mul_eq_iff_eq_mul₀ nonzero, mul_add,
    mul_div_cancel₀ _ nonzero, distance]
  generalize near.toVector 0 = a at *
  generalize near.toVector 1 = b at *
  generalize far.toVector 0 = c at *
  generalize far.toVector 1 = d at *
  simp only [energy, Matrix.of_apply, Matrix.cons_val_zero, Matrix.cons_val_one,
    Matrix.cons_val', Matrix.cons_val_fin_one, Complex.normSq_apply, Complex.mul_re,
    Complex.mul_im, Complex.sub_re, Complex.sub_im, Complex.ofReal_re, Complex.ofReal_im,
    Complex.one_re, Complex.one_im] at nearSum farSum ⊢
  linear_combination (scale - 1) ^ 2 *
    ((c.re * c.re + c.im * c.im + (d.re * d.re + d.im * d.im)) * nearSum + farSum)

/-- The exponent by which the gains of zooms bound the energy.  It exceeds one because the
poles of a zoom need not be exactly opposite. -/
noncomputable def growthExponent : ℝ := 21 / 20

section Rescaled

variable {root : ℂ} (square : root * root = scale) (positive : 0 < scale)
  (nearUnit : near.norm = 1) (farUnit : far.norm = 1)
  (apart : 1 ≤ growthExponent * near.dist far ^ 2)

include square positive

theorem normSq_inv_root : Complex.normSq root⁻¹ = scale⁻¹ := by
  have length : Complex.normSq root * Complex.normSq root = scale * scale := by
    rw [← Complex.normSq_mul, square, Complex.normSq_ofReal]
  have same : Complex.normSq root = scale :=
    (mul_self_inj (Complex.normSq_nonneg root) positive.le).mp length
  rw [Complex.normSq_inv, same]

include apart

omit square positive in
theorem separation_ne_zero_of_apart : (near.separation far).toComplex ≠ 0 := by
  intro zero
  rw [Coordinate.dist_eq_norm, zero, norm_zero] at apart
  norm_num at apart

theorem det_rescaled_zoomBlocks : (root⁻¹ • (zoomBlocks near far scale).toMatrix).det = 1 := by
  have nonzero : (scale : ℂ) ≠ 0 := Complex.ofReal_ne_zero.mpr positive.ne'
  rw [Matrix.det_smul, Blocks.det_toMatrix,
    determinant_zoomBlocks (separation_ne_zero_of_apart apart), ComplexNumber.toComplex_real,
    Fintype.card_fin, inv_pow, sq, square, inv_mul_cancel₀ nonzero]

include nearUnit farUnit

theorem energy_rescaled_zoomBlocks :
    energy (root⁻¹ • (zoomBlocks near far scale).toMatrix) =
      2 + (gain scale - 1) ^ 2 / gain scale / near.dist far ^ 2 := by
  rw [energy_smul, normSq_inv_root square positive,
    energy_zoomBlocks nearUnit farUnit (separation_ne_zero_of_apart apart),
    sq_sub_one_div_gain positive]
  field_simp

/-- A rescaled zoom between almost opposite poles raises the energy by little more than its
gain. -/
theorem energy_mul_rescaled_zoomBlocks_le (accumulated : Matrix (Fin 2) (Fin 2) ℂ) :
    energy (accumulated * (root⁻¹ • (zoomBlocks near far scale).toMatrix)) ≤
      gain scale ^ growthExponent * energy accumulated := by
  have gain_ge := one_le_gain scale
  have growth : (1 : ℝ) ≤ growthExponent := by norm_num [growthExponent]
  have distance : 0 < near.dist far ^ 2 := by
    by_contra none
    nlinarith
  let bound := 1 + growthExponent * (gain scale - 1)
  have one_le : 1 ≤ bound := by
    simp only [bound]
    nlinarith
  have bounded : bound * (energy (root⁻¹ • (zoomBlocks near far scale).toMatrix) - 2) ≤
      (bound - 1) ^ 2 := by
    have below : bound ≤ growthExponent * gain scale := by
      simp only [bound]
      linarith
    have inverse : (near.dist far ^ 2)⁻¹ ≤ growthExponent := by
      rwa [inv_le_iff_one_le_mul₀ distance]
    have share : 0 ≤ (gain scale - 1) ^ 2 / gain scale / near.dist far ^ 2 := by positivity
    rw [energy_rescaled_zoomBlocks square positive nearUnit farUnit apart, add_sub_cancel_left]
    calc
      bound * ((gain scale - 1) ^ 2 / gain scale / near.dist far ^ 2) ≤
          growthExponent * gain scale *
            ((gain scale - 1) ^ 2 / gain scale / near.dist far ^ 2) :=
        mul_le_mul_of_nonneg_right below share
      _ = growthExponent * (gain scale - 1) ^ 2 * (near.dist far ^ 2)⁻¹ := by field_simp
      _ ≤ growthExponent * (gain scale - 1) ^ 2 * growthExponent :=
        mul_le_mul_of_nonneg_left inverse (by positivity)
      _ = (bound - 1) ^ 2 := by
        simp only [bound]
        ring
  have bernoulli : bound ≤ gain scale ^ growthExponent := by
    have power := one_add_mul_self_le_rpow_one_add (by linarith : -1 ≤ gain scale - 1) growth
    rwa [add_sub_cancel] at power
  calc
    energy (accumulated * (root⁻¹ • (zoomBlocks near far scale).toMatrix)) ≤
        bound * energy accumulated :=
      energy_mul_le (det_rescaled_zoomBlocks square positive apart) one_le bounded accumulated
    _ ≤ gain scale ^ growthExponent * energy accumulated :=
      mul_le_mul_of_nonneg_right bernoulli (energy_nonneg accumulated)

end Rescaled

end Mobius

end Stereograph
