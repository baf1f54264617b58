import Mathlib.LinearAlgebra.Matrix.NonsingularInverse
import Stereograph.Proofs.Sphere.Mobius
import Stereograph.Proofs.Sphere.Multiple

/-!
# Zooms about two poles

A zoom keeps the near pole and stretches the far one by its scale.  Two vectors that are not
multiples of each other leave no choice to a complex matrix with two rows, so the zoom is the
only transform that does this.  Hence it depends on the poles as points and not on the
coordinates that show them, and the scale one gives the identity.

A zoom is refused for its scale, for a pole with a component that is not finite and for poles
that are too close, over every kind of scalars.
-/

namespace Stereograph

namespace Mobius

/-! ## Action on numerator and denominator -/

section Action

variable {first second transform : Mobius ℝ} {near far point image : Coordinate ℝ}

/-- The real matrix acts on the four components as the complex matrix on numerator and
denominator. -/
theorem IsComplex.transform_eq_iff (complex : transform.IsComplex) :
    transform.matrix.transform point.components = image.components ↔
      transform.toMatrix.mulVec point.toVector = image.toVector := by
  have acts : Coordinate.ofComponents (transform.matrix.transform point.components) =
      transform.blocks.act point := by
    conv_lhs => rw [← complex]
    exact ofComponents_transform_ofBlocks transform.blocks point
  rw [toMatrix, ← Blocks.toVector_act, Coordinate.toVector_injective.eq_iff, ← acts]
  constructor
  · intro same
    rw [same]
    rfl
  · intro same
    exact congrArg Coordinate.components same

/-- Transforms that treat two different points alike are the same. -/
theorem IsComplex.eq_of_mulVec_eq (firstComplex : first.IsComplex)
    (secondComplex : second.IsComplex)
    (nearAlike : first.toMatrix.mulVec near.toVector = second.toMatrix.mulVec near.toVector)
    (farAlike : first.toMatrix.mulVec far.toVector = second.toMatrix.mulVec far.toVector)
    (separate : (near.separation far).toComplex ≠ 0) : first = second := by
  let columns : Matrix (Fin 2) (Fin 2) ℂ := (Matrix.of ![near.toVector, far.toVector]).transpose
  have invertible : IsUnit columns.det := by
    have determinant : columns.det = (near.separation far).toComplex := by
      rw [Matrix.det_transpose, Matrix.det_fin_two, Coordinate.toComplex_separation]
      rfl
    rw [determinant, isUnit_iff_ne_zero]
    exact separate
  have product : ∀ matrix : Matrix (Fin 2) (Fin 2) ℂ, matrix * columns =
      (Matrix.of ![matrix.mulVec near.toVector, matrix.mulVec far.toVector]).transpose := by
    intro matrix
    ext row column
    fin_cases column <;> rfl
  have products : first.toMatrix * columns = second.toMatrix * columns := by
    rw [product, product, nearAlike, farAlike]
  have matrices : first.toMatrix = second.toMatrix := by
    rw [← Matrix.mul_nonsing_inv_cancel_right columns first.toMatrix invertible, products,
      Matrix.mul_nonsing_inv_cancel_right columns second.toMatrix invertible]
  rw [← firstComplex, ← secondComplex]
  exact congrArg ofBlocks (Blocks.toMatrix_injective matrices)

end Action

/-! ## The transform of a zoom -/

/-- The transforms that keep one pole, stretch another one by a scale and have the scale as
their determinant. -/
structure IsZoom (transform : Mobius ℝ) (near far : Coordinate ℝ) (scale : ℝ) : Prop where
  isComplex : transform.IsComplex
  keeps_near : transform.matrix.transform near.components = near.components
  stretches_far : transform.matrix.transform far.components = (far.stretch scale).components
  determinant_eq : transform.determinant = .real scale

namespace IsZoom

variable {transform other : Mobius ℝ} {near far : Coordinate ℝ} {scale : ℝ}

theorem mulVec_near (isZoom : transform.IsZoom near far scale) :
    transform.toMatrix.mulVec near.toVector = near.toVector :=
  isZoom.isComplex.transform_eq_iff.mp isZoom.keeps_near

theorem mulVec_far (isZoom : transform.IsZoom near far scale) :
    transform.toMatrix.mulVec far.toVector = (scale : ℂ) • far.toVector := by
  rw [← Coordinate.toVector_stretch]
  exact isZoom.isComplex.transform_eq_iff.mp isZoom.stretches_far

/-- Two different poles and a scale have one zoom at most. -/
theorem unique (isZoom : transform.IsZoom near far scale) (others : other.IsZoom near far scale)
    (separate : (near.separation far).toComplex ≠ 0) : transform = other := by
  refine isZoom.isComplex.eq_of_mulVec_eq others.isComplex ?_ ?_ separate
  · rw [isZoom.mulVec_near, others.mulVec_near]
  · rw [isZoom.mulVec_far, others.mulVec_far]

/-- A zoom about two poles is a zoom about all coordinates that show them. -/
theorem multiple (isZoom : transform.IsZoom near far scale) (first second : ComplexNumber ℝ) :
    transform.IsZoom (near.multiple first) (far.multiple second) scale where
  isComplex := isZoom.isComplex
  keeps_near := by
    rw [isZoom.isComplex.transform_eq_iff, Coordinate.toVector_multiple, Matrix.mulVec_smul,
      isZoom.mulVec_near]
  stretches_far := by
    rw [isZoom.isComplex.transform_eq_iff, Coordinate.toVector_stretch,
      Coordinate.toVector_multiple, Matrix.mulVec_smul, isZoom.mulVec_far, smul_comm]
  determinant_eq := isZoom.determinant_eq

end IsZoom

theorem isZoom_identity (near far : Coordinate ℝ) : IsZoom identity near far 1 where
  isComplex := isComplex_identity
  keeps_near := by
    rw [isComplex_identity.transform_eq_iff, toMatrix_identity, Matrix.one_mulVec]
  stretches_far := by
    rw [isComplex_identity.transform_eq_iff, toMatrix_identity, Matrix.one_mulVec,
      Coordinate.stretch_one]
  determinant_eq := isUnimodular_identity.determinant_eq

/-- What a zoom gives is the transform that the poles and the scale ask for. -/
theorem isZoom_of_zoom {near far : Coordinate ℝ} {scale : ℝ} {transform : Mobius ℝ}
    (defined : zoom near far scale = .ok transform) : transform.IsZoom near far scale where
  isComplex := isComplex_of_zoom defined
  keeps_near := (isComplex_of_zoom defined).transform_eq_iff.mpr (mulVec_near_of_zoom defined)
  stretches_far := by
    rw [(isComplex_of_zoom defined).transform_eq_iff, mulVec_far_of_zoom defined,
      Coordinate.toVector_stretch]
  determinant_eq := determinant_of_zoom defined

/-- A zoom that is defined is the only one about its poles by its scale. -/
theorem zoom_eq_ok_of_isZoom {near far : Coordinate ℝ} {scale : ℝ} {transform : Mobius ℝ}
    (positive : 0 < scale) (separate : minimumSeparation ≤ near.chordalDistance far)
    (isZoom : transform.IsZoom near far scale) : zoom near far scale = .ok transform := by
  have defined := zoom_eq_ok_iff.mpr ⟨positive, separate, rfl⟩
  rw [isZoom.unique (isZoom_of_zoom defined) (separation_ne_zero separate)]
  exact defined

/-- A zoom depends on the points that its poles are, whether it is defined or refused. -/
theorem zoom_multiple (near far : Coordinate ℝ) (scale : ℝ) {first second : ComplexNumber ℝ}
    (firstNonzero : first ≠ .zero) (secondNonzero : second ≠ .zero) :
    zoom (near.multiple first) (far.multiple second) scale = zoom near far scale := by
  have distance : (near.multiple first).chordalDistance (far.multiple second) =
      near.chordalDistance far := by
    rw [Coordinate.chordalDistance_multiple firstNonzero, Coordinate.chordalDistance_comm,
      Coordinate.chordalDistance_multiple secondNonzero, Coordinate.chordalDistance_comm]
  by_cases nonpositive : scale ≤ 0
  · rw [zoom_eq, zoom_eq, if_pos nonpositive, if_pos nonpositive]
  · by_cases close : near.chordalDistance far < minimumSeparation
    · rw [zoom_eq, zoom_eq, distance, if_neg nonpositive, if_neg nonpositive, if_pos close,
        if_pos close]
    · rw [not_le] at nonpositive
      rw [not_lt] at close
      have defined := zoom_eq_ok_iff.mpr ⟨nonpositive, close, rfl⟩
      rw [defined]
      rw [← distance] at close
      exact zoom_eq_ok_of_isZoom nonpositive close ((isZoom_of_zoom defined).multiple _ _)

/-! ## Refusals -/

/-- A zoom is refused for its scale, for a pole that is not finite or for poles that are too
close. -/
theorem zoom_eq_error_iff {α : Type} [Scalar α] {near far : Coordinate α} {scale : α} :
    (∃ degeneracy, zoom near far scale = .error degeneracy) ↔
      ¬(Scalar.isFinite scale = true ∧ ¬scale ≤ 0) ∨
        ¬(near.isFinite = true ∧ far.isFinite = true) ∨
        near.chordalDistance far < minimumSeparation := by
  unfold zoom
  split
  next invalid =>
    refine iff_of_true ⟨_, rfl⟩ (.inl ?_)
    simpa [or_iff_not_imp_left] using invalid
  next valid =>
    have usable : Scalar.isFinite scale = true ∧ ¬scale ≤ 0 := by simpa using valid
    rw [or_iff_right (not_not.mpr usable)]
    split
    next infinite =>
      refine iff_of_true ⟨_, rfl⟩ (.inl ?_)
      simpa [or_iff_not_imp_left] using infinite
    next finite =>
      have poles : near.isFinite = true ∧ far.isFinite = true := by simpa using finite
      rw [or_iff_right (not_not.mpr poles)]
      change (∃ degeneracy, (if near.chordalDistance far < minimumSeparation then _ else _) =
        Except.error degeneracy) ↔ _
      split
      next close => exact iff_of_true ⟨_, rfl⟩ close
      next separate => exact iff_of_false (by rintro ⟨_, ⟨⟩⟩) separate

/-- A finite floating-point scale is refused unless it is positive. -/
theorem zoom_float_eq_error_iff {near far : Coordinate Float} {scale : Float} :
    (∃ degeneracy, zoom near far scale = .error degeneracy) ↔
      ¬(scale.isFinite = true ∧ 0 < scale) ∨
        ¬(near.isFinite = true ∧ far.isFinite = true) ∨
        near.chordalDistance far < minimumSeparation := by
  have positive : scale.isFinite = true → (0 < scale ↔ ¬scale ≤ 0) := fun finite =>
    ⟨Decimal.Binary.not_le_zero_of_pos, Decimal.Binary.pos_of_not_le_zero finite⟩
  rw [zoom_eq_error_iff, and_congr_right positive]
  rfl

/-- A positive scale and two separate poles define a zoom, which keeps the near pole,
stretches the far one, has the scale as its determinant and is the identity for the scale
one.  It depends on the poles as points only.  Everything else is refused, and so are
floating-point numbers that are not finite. -/
theorem zoom_is_about_its_poles :
    (∀ (near far : Coordinate ℝ) (scale : ℝ), 0 < scale →
      minimumSeparation ≤ near.chordalDistance far →
      ∃ transform, zoom near far scale = .ok transform ∧ transform.IsZoom near far scale ∧
        (scale = 1 → transform = identity)) ∧
    (∀ (near far : Coordinate ℝ) (scale : ℝ) (first second : ComplexNumber ℝ),
      first ≠ .zero → second ≠ .zero →
      zoom (near.multiple first) (far.multiple second) scale = zoom near far scale) ∧
    (∀ (near far : Coordinate ℝ) (scale : ℝ),
      (∃ degeneracy, zoom near far scale = .error degeneracy) ↔
        ¬0 < scale ∨ near.chordalDistance far < minimumSeparation) ∧
    ∀ (near far : Coordinate Float) (scale : Float),
      (∃ degeneracy, zoom near far scale = .error degeneracy) ↔
        ¬(scale.isFinite = true ∧ 0 < scale) ∨
          ¬(near.isFinite = true ∧ far.isFinite = true) ∨
          near.chordalDistance far < minimumSeparation := by
  refine ⟨?_, ?_, ?_, fun _ _ _ => zoom_float_eq_error_iff⟩
  · intro near far scale positive separate
    have defined := zoom_eq_ok_iff.mpr ⟨positive, separate, rfl⟩
    refine ⟨_, defined, isZoom_of_zoom defined, ?_⟩
    rintro rfl
    exact (isZoom_of_zoom defined).unique (isZoom_identity near far)
      (separation_ne_zero separate)
  · intro near far scale first second firstNonzero secondNonzero
    exact zoom_multiple near far scale firstNonzero secondNonzero
  · intro near far scale
    rw [zoom_eq_error_iff]
    simp [Scalar.isFinite, Coordinate.isFinite, ComplexNumber.isFinite]

/-- A zoom about two poles none of which is real, zero or infinity. -/
theorem zoom_is_about_its_poles_imaginary :
    let near : Coordinate ℝ := ⟨⟨0, 1⟩, ⟨1, 1⟩⟩
    let far : Coordinate ℝ := ⟨⟨1, 2⟩, ⟨3, -1⟩⟩
    let factor : ComplexNumber ℝ := ⟨1, 1⟩
    ((0 : ℝ) < 2 ∧ minimumSeparation ≤ near.chordalDistance far ∧ factor ≠ .zero) ∧
      (∃ transform, zoom near far 2 = .ok transform ∧ transform.IsZoom near far 2) ∧
      (∃ transform, zoom near far 1 = .ok transform ∧ transform = identity) ∧
      zoom (near.multiple factor) (far.multiple .imaginaryUnit) 2 = zoom near far 2 := by
  intro near far factor
  have nearNorm : near.norm = Real.sqrt 3 := by
    norm_num [near, Coordinate.norm_eq_sqrt, ComplexNumber.normSq]
  have farNorm : far.norm = Real.sqrt 15 := by
    norm_num [far, Coordinate.norm_eq_sqrt, ComplexNumber.normSq]
  have apart : near.dist far = 2 := by
    have difference : near.separation far = ⟨2, 0⟩ := by
      norm_num [near, far, Coordinate.separation, ComplexNumber.mul, ComplexNumber.sub]
    norm_num [Coordinate.dist, difference, ComplexNumber.norm, ComplexNumber.normSq,
      Scalar.sqrt]
  have separate : minimumSeparation ≤ near.chordalDistance far := by
    have lengths : Real.sqrt 3 * Real.sqrt 15 ≤ 7 := by
      rw [← Real.sqrt_mul (by norm_num), Real.sqrt_le_iff]
      norm_num
    have least : (minimumSeparation : ℝ) = 1 / 10 ^ 9 := by norm_num [minimumSeparation]
    rw [Coordinate.le_chordalDistance_iff (by rw [nearNorm]; positivity)
      (by rw [farNorm]; positivity), nearNorm, farNorm, apart, least]
    linarith
  have nonzero : factor ≠ .zero := by
    simp [factor, ComplexNumber.zero]
  have unit : (ComplexNumber.imaginaryUnit : ComplexNumber ℝ) ≠ .zero := by
    simp [ComplexNumber.imaginaryUnit, ComplexNumber.zero]
  obtain ⟨defines, represents, -, -⟩ := zoom_is_about_its_poles
  obtain ⟨transform, defined, isZoom, -⟩ := defines near far 2 two_pos separate
  obtain ⟨unmoved, undefined, -, same⟩ := defines near far 1 one_pos separate
  exact ⟨⟨two_pos, separate, nonzero⟩, ⟨transform, defined, isZoom⟩,
    ⟨unmoved, undefined, same rfl⟩, represents near far 2 _ _ nonzero unit⟩

end Mobius

end Stereograph
