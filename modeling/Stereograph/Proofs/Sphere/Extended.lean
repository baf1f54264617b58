import Mathlib.Topology.Compactification.OnePoint.ProjectiveLine
import Stereograph.Proofs.Sphere.Multiple
import Stereograph.Proofs.Sphere.Ratio

/-!
# Values in the extended plane

The complex plane with a point at infinity is the projective line, so every coordinate but the
pair of zeros has a value there.  Coordinates have one value if and only if they are
proportional.  Arithmetic of the extended plane is a table for each operation, with a gap for
each indeterminate form.
-/

namespace Stereograph

open scoped OnePoint

/-! ## Arithmetic of the extended plane -/

namespace ExtendedPlane

/-- The sum in the extended plane.  Infinity plus infinity is indeterminate. -/
noncomputable def sum? : OnePoint ℂ → OnePoint ℂ → Option (OnePoint ℂ)
  | .some left, .some right => some (left + right : ℂ)
  | .some _, ∞ => some ∞
  | ∞, .some _ => some ∞
  | ∞, ∞ => none

/-- The difference in the extended plane.  Infinity minus infinity is indeterminate. -/
noncomputable def difference? : OnePoint ℂ → OnePoint ℂ → Option (OnePoint ℂ)
  | .some left, .some right => some (left - right : ℂ)
  | .some _, ∞ => some ∞
  | ∞, .some _ => some ∞
  | ∞, ∞ => none

/-- The product in the extended plane.  Zero times infinity is indeterminate. -/
noncomputable def product? : OnePoint ℂ → OnePoint ℂ → Option (OnePoint ℂ)
  | .some left, .some right => some (left * right : ℂ)
  | .some left, ∞ => if left = 0 then none else some ∞
  | ∞, .some right => if right = 0 then none else some ∞
  | ∞, ∞ => some ∞

/-- The quotient in the extended plane.  Zero over zero and infinity over infinity are
indeterminate. -/
noncomputable def quotient? : OnePoint ℂ → OnePoint ℂ → Option (OnePoint ℂ)
  | .some left, .some right =>
      if right ≠ 0 then some (left / right : ℂ) else if left = 0 then none else some ∞
  | .some _, ∞ => some (0 : ℂ)
  | ∞, .some _ => some ∞
  | ∞, ∞ => none

/-- The number of the opposite sign.  Infinity is its own opposite. -/
noncomputable def opposite : OnePoint ℂ → OnePoint ℂ
  | .some number => (-number : ℂ)
  | ∞ => ∞

/-- One over a number.  Zero and infinity are exchanged. -/
noncomputable def reciprocal : OnePoint ℂ → OnePoint ℂ
  | .some number => if number = 0 then ∞ else (number⁻¹ : ℂ)
  | ∞ => (0 : ℂ)

variable (left right : OnePoint ℂ)

/-- A difference is a sum with the opposite. -/
theorem difference?_eq : difference? left right = sum? left (opposite right) := by
  cases left with
  | infty => cases right <;> rfl
  | coe left =>
      cases right with
      | infty => rfl
      | coe right => simp [difference?, sum?, opposite, sub_eq_add_neg]

/-- A quotient is a product with the reciprocal. -/
theorem quotient?_eq : quotient? left right = product? left (reciprocal right) := by
  cases right with
  | infty => cases left <;> simp [quotient?, product?, reciprocal]
  | coe right =>
      by_cases zero : right = 0
      · cases left <;> simp [quotient?, product?, reciprocal, zero]
      · cases left <;> simp [quotient?, product?, reciprocal, zero, div_eq_mul_inv]

theorem reciprocal_zero : reciprocal (0 : ℂ) = ∞ :=
  if_pos rfl

theorem reciprocal_of_ne_zero {number : ℂ} (nonzero : number ≠ 0) :
    reciprocal number = (number⁻¹ : ℂ) :=
  if_neg nonzero

theorem reciprocal_eq_infty_iff : reciprocal right = ∞ ↔ right = (0 : ℂ) := by
  cases right <;> simp [reciprocal]

theorem reciprocal_eq_zero_iff : reciprocal right = (0 : ℂ) ↔ right = ∞ := by
  cases right with
  | infty => simp [reciprocal]
  | coe right => by_cases zero : right = 0 <;> simp [reciprocal, zero]

/-! ### Indeterminate forms -/

theorem sum?_eq_none_iff : sum? left right = none ↔ left = ∞ ∧ right = ∞ := by
  cases left <;> cases right <;> simp [sum?]

theorem difference?_eq_none_iff : difference? left right = none ↔ left = ∞ ∧ right = ∞ := by
  cases left <;> cases right <;> simp [difference?]

theorem product?_eq_none_iff :
    product? left right = none ↔
      left = (0 : ℂ) ∧ right = ∞ ∨ left = ∞ ∧ right = (0 : ℂ) := by
  cases left <;> cases right <;> simp [product?]

theorem quotient?_eq_none_iff :
    quotient? left right = none ↔
      left = (0 : ℂ) ∧ right = (0 : ℂ) ∨ left = ∞ ∧ right = ∞ := by
  rw [quotient?_eq, product?_eq_none_iff, reciprocal_eq_infty_iff, reciprocal_eq_zero_iff]

end ExtendedPlane

/-! ## Values of coordinates -/

namespace Coordinate

variable {point left right : Coordinate ℝ} {value : Option (OnePoint ℂ)}

/-- The value of a coordinate in the extended plane.  The pair of zeros has none. -/
noncomputable def value? (point : Coordinate ℝ) : Option (OnePoint ℂ) :=
  if zero : point.toVector = 0 then none
  else some ((OnePoint.equivProjectivization ℂ).symm (.mk ℂ point.toVector zero))

theorem value?_of_toVector_ne_zero (nonzero : point.toVector ≠ 0) :
    point.value? =
      some ((OnePoint.equivProjectivization ℂ).symm (.mk ℂ point.toVector nonzero)) :=
  dif_neg nonzero

theorem value?_eq_none_iff : point.value? = none ↔ point.norm = 0 := by
  rw [← toVector_eq_zero_iff, value?]
  split <;> simp_all

theorem value?_eq_none_iff_zeros : point.value? = none ↔ point = ⟨.zero, .zero⟩ := by
  rw [value?_eq_none_iff, norm_eq_zero_iff]
  cases point
  simp

/-- Proportional coordinates have one value. -/
theorem Proportional.value?_eq (proportional : Proportional left right) :
    left.value? = right.value? := by
  by_cases zero : left.norm = 0
  · rw [value?_eq_none_iff.mpr zero,
      value?_eq_none_iff.mpr (proportional.norm_eq_zero_iff.mp zero)]
  · obtain ⟨factor, -, multiple⟩ := proportional_iff.mp proportional.symm
    have leftNonzero : left.toVector ≠ 0 := toVector_eq_zero_iff.not.mpr zero
    have rightNonzero : right.toVector ≠ 0 :=
      toVector_eq_zero_iff.not.mpr (proportional.norm_eq_zero_iff.not.mp zero)
    rw [value?_of_toVector_ne_zero leftNonzero, value?_of_toVector_ne_zero rightNonzero,
      (Projectivization.mk_eq_mk_iff' ℂ _ _ leftNonzero rightNonzero).mpr
        ⟨factor, multiple.symm⟩]

/-- Coordinates have one value if and only if they are proportional. -/
theorem value?_eq_iff : left.value? = right.value? ↔ Proportional left right := by
  refine ⟨?_, Proportional.value?_eq⟩
  intro same
  have vanish : left.toVector = 0 ↔ right.toVector = 0 := by
    rw [toVector_eq_zero_iff, toVector_eq_zero_iff, ← value?_eq_none_iff, same,
      value?_eq_none_iff]
  by_cases zero : left.toVector = 0
  · rw [toVector_injective (zero.trans (vanish.mp zero).symm)]
    exact .refl right
  · have other : right.toVector ≠ 0 := vanish.not.mp zero
    rw [value?_of_toVector_ne_zero zero, value?_of_toVector_ne_zero other] at same
    have point := (OnePoint.equivProjectivization ℂ).symm.injective (Option.some.inj same)
    obtain ⟨factor, multiple⟩ := (Projectivization.mk_eq_mk_iff ℂ _ _ zero other).mp point
    exact (proportional_iff.mpr ⟨factor, factor.ne_zero, multiple.symm⟩).symm

@[simp] theorem value?_normalized (point : Coordinate ℝ) :
    point.normalized.value? = point.value? :=
  (Proportional.normalized_self point).value?_eq

/-! ### Numbers, infinity and the pair of zeros -/

/-- The three kinds of coordinates, with their values. -/
inductive HasValue (point : Coordinate ℝ) : Option (OnePoint ℂ) → Prop
  | finite {number : ComplexNumber ℝ} (isPoint : point.IsPointOf number) :
      HasValue point (some (number.toComplex : ℂ))
  | infinite (numerator : point.numerator.toComplex ≠ 0)
      (denominator : point.denominator.toComplex = 0) : HasValue point (some ∞)
  | zeros (numerator : point.numerator.toComplex = 0)
      (denominator : point.denominator.toComplex = 0) : HasValue point none

theorem HasValue.value?_eq (hasValue : HasValue point value) : point.value? = value := by
  cases hasValue with
  | @finite number isPoint =>
      have nonzero : point.toVector ≠ 0 := toVector_eq_zero_iff.not.mpr isPoint.norm_ne_zero
      rw [value?_of_toVector_ne_zero nonzero, OnePoint.equivProjectivization_symm_apply_mk]
      simp [toVector, isPoint.denominator, isPoint.numerator, mul_comm number.toComplex]
  | infinite numerator denominator =>
      have nonzero : point.toVector ≠ 0 := fun zero => numerator (congrFun zero 0)
      rw [value?_of_toVector_ne_zero nonzero, OnePoint.equivProjectivization_symm_apply_mk]
      simp [toVector, denominator]
  | zeros numerator denominator =>
      rw [value?_eq_none_iff, ← toVector_eq_zero_iff]
      simp [toVector, numerator, denominator]

/-- Every coordinate is of one of the kinds. -/
theorem hasValue (point : Coordinate ℝ) : HasValue point point.value? := by
  suffices some_kind : ∃ value, HasValue point value by
    obtain ⟨value, hasValue⟩ := some_kind
    rw [hasValue.value?_eq]
    exact hasValue
  by_cases denominator : point.denominator.toComplex = 0
  · by_cases numerator : point.numerator.toComplex = 0
    · exact ⟨none, .zeros numerator denominator⟩
    · exact ⟨some ∞, .infinite numerator denominator⟩
  · have isPoint : point.IsPointOf (point.numerator.div point.denominator) := by
      refine ⟨denominator, ?_⟩
      rw [ComplexNumber.toComplex_div, div_mul_cancel₀ _ denominator]
    exact ⟨_, .finite isPoint⟩

theorem hasValue_infinity : HasValue infinity (some ∞) :=
  .infinite one_ne_zero rfl

/-- Rescaling keeps the value. -/
theorem HasValue.normalized (hasValue : HasValue point value) :
    HasValue point.normalized value := by
  rw [← hasValue.value?_eq, ← value?_normalized]
  exact point.normalized.hasValue

end Coordinate

end Stereograph
