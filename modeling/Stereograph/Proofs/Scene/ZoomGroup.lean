import Stereograph.Proofs.Scene.Zooming
import Stereograph.Proofs.Sphere.Composition
import Stereograph.Proofs.Sphere.Zoom

/-!
# Zooms about the same poles

Zooms about two poles compose to the zoom by the product of their scales, since the composed
transform keeps the near pole and stretches the far one by that product, and no other transform
does.  So they commute, and the zoom by the inverse scale undoes a zoom.  A sphere rescales its
transform after each zoom, which changes the matrix and not the map, since the transform is in
block form.
-/

namespace Stereograph

namespace Mobius

/-! ## Increments -/

section Increments

variable {near far : Coordinate ℝ} {scale other : ℝ} {first second product : Mobius ℝ}

/-- Zooms about the same poles multiply their scales. -/
theorem IsZoom.compose (isFirst : first.IsZoom near far scale)
    (isSecond : second.IsZoom near far other) :
    (first.compose second).IsZoom near far (scale * other) where
  isComplex := isFirst.isComplex.compose isSecond.isComplex
  keeps_near := by
    rw [Mobius.compose, Matrix4.transform_multiply, isSecond.keeps_near, isFirst.keeps_near]
  stretches_far := by
    have complex := isFirst.isComplex.compose isSecond.isComplex
    rw [complex.transform_eq_iff, isFirst.isComplex.toMatrix_compose isSecond.isComplex,
      ← Matrix.mulVec_mulVec, isSecond.mulVec_far, Matrix.mulVec_smul, isFirst.mulVec_far,
      smul_smul, Coordinate.toVector_stretch, Complex.ofReal_mul, mul_comm]
  determinant_eq := by
    apply ComplexNumber.toComplex_injective
    rw [isFirst.isComplex.determinant_compose isSecond.isComplex, isFirst.determinant_eq,
      isSecond.determinant_eq, ComplexNumber.toComplex_mul, ComplexNumber.toComplex_real,
      ComplexNumber.toComplex_real, ComplexNumber.toComplex_real, Complex.ofReal_mul]

variable (separate : minimumSeparation ≤ near.chordalDistance far)

include separate

/-- Every positive scale zooms about separate poles. -/
theorem exists_increments :
    ∃ increment : ℝ → Mobius ℝ, ∀ scale, 0 < scale → zoom near far scale = .ok (increment scale) :=
  ⟨_, fun _ positive => zoom_eq_ok_iff.mpr ⟨positive, separate, rfl⟩⟩

/-- Two zooms about separate poles compose to the zoom by the product of their scales. -/
theorem compose_eq_of_zoom (isFirst : zoom near far scale = .ok first)
    (isSecond : zoom near far other = .ok second)
    (isProduct : zoom near far (scale * other) = .ok product) : first.compose second = product :=
  ((isZoom_of_zoom isFirst).compose (isZoom_of_zoom isSecond)).unique (isZoom_of_zoom isProduct)
    (separation_ne_zero separate)

/-- The zoom by the inverse scale is the inverse. -/
theorem compose_eq_identity_of_zoom (isFirst : zoom near far scale = .ok first)
    (isSecond : zoom near far (1 / scale) = .ok second) : first.compose second = identity := by
  have composed := (isZoom_of_zoom isFirst).compose (isZoom_of_zoom isSecond)
  rw [mul_one_div_cancel (scale_pos_of_zoom isFirst).ne'] at composed
  exact composed.unique (isZoom_identity near far) (separation_ne_zero separate)

end Increments

/-! ## Accumulated transforms -/

theorem compose_assoc (first second third : Mobius ℝ) :
    (first.compose second).compose third = first.compose (second.compose third) :=
  congrArg Mobius.mk (Matrix4.multiply_assoc _ _ _)

theorem compose_identity (transform : Mobius ℝ) : transform.compose identity = transform :=
  congrArg Mobius.mk (Matrix4.multiply_identity _)

/-- The map that two increments lead to from a transform in block form does not depend on
rescaling in between. -/
theorem IsComplex.sameMap_compose_compose {accumulated first second : Mobius ℝ}
    (complex : accumulated.IsComplex) (firstComplex : first.IsComplex)
    (secondComplex : second.IsComplex) :
    SameMap (accumulated.compose (first.compose second))
      ((accumulated.compose first).normalized.compose second).normalized := by
  have once := complex.compose firstComplex
  have twice := once.normalized.compose secondComplex
  rw [← compose_assoc]
  exact (once.sameMap_normalized.compose second).trans twice.sameMap_normalized

end Mobius

/-! ## Zoomed spheres -/

namespace Navigation

variable {navigation : Navigation ℝ} {scale : ℝ}

/-- A sphere that is zoomed by a scale and then by its inverse shows what it showed before. -/
theorem InStep.exists_zoom_back {model : Matrix4 ℝ} (inStep : InStep model navigation)
    (complex : navigation.mobius.IsComplex) (positive : 0 < scale) :
    ∃ between after, navigation.zoom scale = .ok between ∧
      between.zoom (1 / scale) = .ok after ∧ navigation.mobius.SameMap after.mobius := by
  have inverse : 0 < 1 / scale := one_div_pos.mpr positive
  have into := Mobius.zoom_eq_ok_iff.mpr ⟨positive, inStep.minimumSeparation_le, rfl⟩
  have back := Mobius.zoom_eq_ok_iff.mpr ⟨inverse, inStep.minimumSeparation_le, rfl⟩
  -- the poles depend on the turning alone, so the second zoom is about those of the first
  refine ⟨_, _, zoom_eq_ok_iff.mpr ⟨_, into, rfl⟩, zoom_eq_ok_iff.mpr ⟨_, back, rfl⟩, ?_⟩
  have same := complex.sameMap_compose_compose (Mobius.isComplex_of_zoom into)
    (Mobius.isComplex_of_zoom back)
  rw [Mobius.compose_eq_identity_of_zoom inStep.minimumSeparation_le into back,
    Mobius.compose_identity] at same
  exact same

end Navigation

namespace Mobius

/-- Zooms about two separate poles compose to the zoom by the product of their scales, and so
they commute.  A zoom and the zoom by the inverse scale leave every accumulated transform as it
was.  If it is rescaled after each of them, a transform in block form keeps its map, and the
transform of a sphere is in block form whatever happened to it before. -/
theorem zooms_form_one_parameter_group :
    (∀ near far : Coordinate ℝ, minimumSeparation ≤ near.chordalDistance far →
      ∃ increment : ℝ → Mobius ℝ,
        (∀ scale, 0 < scale → zoom near far scale = .ok (increment scale)) ∧
        (∀ scale other, 0 < scale → 0 < other →
          (increment scale).compose (increment other) = increment (scale * other) ∧
            (increment scale).compose (increment other) =
              (increment other).compose (increment scale)) ∧
        (∀ scale (accumulated : Mobius ℝ), 0 < scale →
          (accumulated.compose (increment scale)).compose (increment (1 / scale)) =
            accumulated) ∧
        ∀ scale (blocks : Blocks ℝ), 0 < scale →
          SameMap (ofBlocks blocks)
            (((ofBlocks blocks).compose (increment scale)).normalized.compose
              (increment (1 / scale))).normalized) ∧
    ∀ (model : Matrix4 ℝ) (motions : List (Motion ℝ)) (scale : ℝ), 0 < scale →
      let navigation := (Navigation.start model).replay motions
      ∃ between after, navigation.zoom scale = .ok between ∧
        between.zoom (1 / scale) = .ok after ∧ SameMap navigation.mobius after.mobius := by
  constructor
  · intro near far separate
    obtain ⟨increment, defined⟩ := exists_increments separate
    have inverts : ∀ scale, 0 < scale →
        (increment scale).compose (increment (1 / scale)) = identity := fun scale positive =>
      compose_eq_identity_of_zoom separate (defined scale positive)
        (defined (1 / scale) (one_div_pos.mpr positive))
    refine ⟨increment, defined, ?_, ?_, ?_⟩
    · intro scale other positive otherPositive
      have product := compose_eq_of_zoom separate (defined scale positive)
        (defined other otherPositive) (defined _ (mul_pos positive otherPositive))
      have swapped := compose_eq_of_zoom separate (defined other otherPositive)
        (defined scale positive) (defined _ (mul_pos otherPositive positive))
      refine ⟨product, ?_⟩
      rw [product, swapped, mul_comm]
    · intro scale accumulated positive
      rw [compose_assoc, inverts scale positive, compose_identity]
    · intro scale blocks positive
      have same := (isComplex_ofBlocks blocks).sameMap_compose_compose
        (isComplex_of_zoom (defined scale positive))
        (isComplex_of_zoom (defined (1 / scale) (one_div_pos.mpr positive)))
      rw [inverts scale positive, compose_identity] at same
      exact same
  · intro model motions scale positive
    exact (Navigation.InStep.replay model motions).exists_zoom_back
      (Navigation.isUnimodular_replay model motions).isComplex positive

/-- Zooms about the imaginary unit and its opposite by two and by three, and a turned sphere that
is zoomed by two and back. -/
theorem zooms_form_one_parameter_group_imaginary :
    let near : Coordinate ℝ := ⟨⟨0, 1⟩, ⟨1, 0⟩⟩
    let far : Coordinate ℝ := ⟨⟨0, -1⟩, ⟨1, 0⟩⟩
    let navigation : Navigation ℝ := (Navigation.start .identity).replay [.rotate ⟨1, 0⟩]
    (minimumSeparation ≤ near.chordalDistance far ∧ (0 : ℝ) < 2 ∧ (0 : ℝ) < 3) ∧
      (∃ first second product, zoom near far 2 = .ok first ∧ zoom near far 3 = .ok second ∧
        zoom near far (2 * 3) = .ok product ∧ first.compose second = product) ∧
      ∃ between after, navigation.zoom 2 = .ok between ∧
        between.zoom (1 / 2) = .ok after ∧ SameMap navigation.mobius after.mobius := by
  intro near far navigation
  have nearNorm : near.norm = Real.sqrt 2 := by
    norm_num [near, Coordinate.norm_eq_sqrt, ComplexNumber.normSq]
  have farNorm : far.norm = Real.sqrt 2 := by
    norm_num [far, Coordinate.norm_eq_sqrt, ComplexNumber.normSq]
  have apart : near.dist far = 2 := by
    have difference : near.separation far = ⟨0, 2⟩ := by
      norm_num [near, far, Coordinate.separation, ComplexNumber.mul, ComplexNumber.sub]
    norm_num [Coordinate.dist, difference, ComplexNumber.norm, ComplexNumber.normSq,
      Scalar.sqrt]
  have separate : minimumSeparation ≤ near.chordalDistance far := by
    rw [Coordinate.le_chordalDistance_iff (by rw [nearNorm]; positivity)
      (by rw [farNorm]; positivity), nearNorm, farNorm, apart, Real.mul_self_sqrt zero_le_two]
    norm_num [minimumSeparation]
  have three : (0 : ℝ) < 3 := by norm_num
  obtain ⟨group, undone⟩ := zooms_form_one_parameter_group
  obtain ⟨increment, defined, composed, -, -⟩ := group near far separate
  exact ⟨⟨separate, two_pos, three⟩,
    ⟨increment 2, increment 3, increment (2 * 3), defined 2 two_pos, defined 3 three,
      defined _ (mul_pos two_pos three), (composed 2 3 two_pos three).1⟩,
    undone .identity [.rotate ⟨1, 0⟩] 2 two_pos⟩

end Mobius

end Stereograph
