import Stereograph.Proofs.Sphere.Chord
import Stereograph.Sphere.Mobius

/-!
# Transforms as complex matrices

A transform whose real matrix is made of the blocks of its complex entries acts on
numerator and denominator as a complex matrix with two rows.  Such transforms are closed
under composition and rescaling, and they are invertible unless the complex determinant is
zero.  A zoom keeps its near pole, stretches its far pole by the scale and has the scale as
its determinant.
-/

namespace Stereograph

/-! ## Complex entries -/

namespace Blocks

/-- The complex matrix of the entries. -/
def toMatrix (blocks : Blocks ℝ) : Matrix (Fin 2) (Fin 2) ℂ :=
  !![blocks.upperLeft.toComplex, blocks.upperRight.toComplex;
    blocks.lowerLeft.toComplex, blocks.lowerRight.toComplex]

theorem toMatrix_injective : Function.Injective toMatrix := by
  intro left right same
  cases left
  cases right
  simp only [toMatrix, EmbeddingLike.apply_eq_iff_eq, Matrix.vecCons_inj] at same
  obtain ⟨⟨upperLeft, upperRight, -⟩, ⟨lowerLeft, lowerRight, -⟩, -⟩ := same
  cases ComplexNumber.toComplex_injective upperLeft
  cases ComplexNumber.toComplex_injective upperRight
  cases ComplexNumber.toComplex_injective lowerLeft
  cases ComplexNumber.toComplex_injective lowerRight
  rfl

/-- Product of complex matrices. -/
noncomputable def mul (left right : Blocks ℝ) : Blocks ℝ where
  upperLeft := (left.upperLeft.mul right.upperLeft).add (left.upperRight.mul right.lowerLeft)
  upperRight := (left.upperLeft.mul right.upperRight).add (left.upperRight.mul right.lowerRight)
  lowerLeft := (left.lowerLeft.mul right.upperLeft).add (left.lowerRight.mul right.lowerLeft)
  lowerRight := (left.lowerLeft.mul right.upperRight).add (left.lowerRight.mul right.lowerRight)

/-- Image of a numerator and a denominator. -/
noncomputable def act (blocks : Blocks ℝ) (point : Coordinate ℝ) : Coordinate ℝ where
  numerator := (blocks.upperLeft.mul point.numerator).add
    (blocks.upperRight.mul point.denominator)
  denominator := (blocks.lowerLeft.mul point.numerator).add
    (blocks.lowerRight.mul point.denominator)

theorem toMatrix_mul (left right : Blocks ℝ) :
    (left.mul right).toMatrix = left.toMatrix * right.toMatrix := by
  simp [toMatrix, mul, ComplexNumber.toComplex_add,
    ComplexNumber.toComplex_mul]

theorem det_toMatrix (blocks : Blocks ℝ) :
    blocks.toMatrix.det = blocks.determinant.toComplex := by
  rw [toMatrix, Matrix.det_fin_two_of, determinant, ComplexNumber.toComplex_sub,
    ComplexNumber.toComplex_mul, ComplexNumber.toComplex_mul]

theorem toMatrix_map_div (blocks : Blocks ℝ) (divisor : ComplexNumber ℝ) :
    (blocks.map (·.div divisor)).toMatrix = divisor.toComplex⁻¹ • blocks.toMatrix := by
  simp [toMatrix, map, ComplexNumber.toComplex_div, div_eq_inv_mul]

theorem toVector_act (blocks : Blocks ℝ) (point : Coordinate ℝ) :
    (blocks.act point).toVector = blocks.toMatrix.mulVec point.toVector := by
  funext row
  fin_cases row <;>
    simp [toMatrix, act, Coordinate.toVector, Matrix.mulVec, ComplexNumber.toComplex_add,
      ComplexNumber.toComplex_mul]

/-- The product difference of two images is that of the points times the determinant. -/
theorem separation_act (blocks : Blocks ℝ) (left right : Coordinate ℝ) :
    ((blocks.act left).separation (blocks.act right)).toComplex =
      blocks.determinant.toComplex * (left.separation right).toComplex := by
  simp only [Coordinate.toComplex_separation, act, determinant, ComplexNumber.toComplex_add,
    ComplexNumber.toComplex_sub, ComplexNumber.toComplex_mul]
  ring

end Blocks

namespace Mobius

/-! ## Block form -/

/-- The complex matrix of a transform. -/
def toMatrix (transform : Mobius ℝ) : Matrix (Fin 2) (Fin 2) ℂ :=
  transform.blocks.toMatrix

theorem det_toMatrix (transform : Mobius ℝ) :
    transform.toMatrix.det = transform.determinant.toComplex :=
  transform.blocks.det_toMatrix

theorem toMatrix_ofBlocks (blocks : Blocks ℝ) : (ofBlocks blocks).toMatrix = blocks.toMatrix :=
  rfl

/-- Whether the real matrix consists of the blocks of the complex entries. -/
def IsComplex (transform : Mobius ℝ) : Prop :=
  ofBlocks transform.blocks = transform

theorem isComplex_ofBlocks (blocks : Blocks ℝ) : (ofBlocks blocks).IsComplex :=
  rfl

theorem isComplex_identity : (identity : Mobius ℝ).IsComplex := by
  simp [IsComplex, identity, ofBlocks, blocks, Blocks.realRows, Matrix4.identity]

theorem toMatrix_identity : (identity : Mobius ℝ).toMatrix = 1 := by
  rw [Matrix.one_fin_two]
  rfl

theorem compose_ofBlocks (accumulated increment : Blocks ℝ) :
    (ofBlocks accumulated).compose (ofBlocks increment) =
      ofBlocks (accumulated.mul increment) := by
  simp only [compose, ofBlocks, Blocks.realRows, Blocks.mul, Matrix4.multiply,
    Matrix4.transpose, Matrix4.transform, Vec4.dot, ComplexNumber.add, ComplexNumber.mul,
    Mobius.mk.injEq, Matrix4.mk.injEq, Vec4.mk.injEq]
  refine ⟨⟨?_, ?_, ?_, ?_⟩, ⟨?_, ?_, ?_, ?_⟩, ⟨?_, ?_, ?_, ?_⟩, ?_, ?_, ?_, ?_⟩ <;> ring

/-- The real determinant is the squared absolute value of the complex one. -/
theorem determinant_matrix_ofBlocks (blocks : Blocks ℝ) :
    (ofBlocks blocks).matrix.determinant = blocks.determinant.normSq := by
  simp only [ofBlocks, Blocks.realRows, Blocks.determinant, ComplexNumber.normSq,
    ComplexNumber.sub, ComplexNumber.mul, Matrix4.determinant, Matrix4.PairMinors.pairing,
    Matrix4.PairMinors.ofRows]
  ring

/-- The real matrix acts on the components of a point as the complex matrix on numerator and
denominator. -/
theorem ofComponents_transform_ofBlocks (blocks : Blocks ℝ) (point : Coordinate ℝ) :
    Coordinate.ofComponents ((ofBlocks blocks).matrix.transform point.components) =
      blocks.act point := by
  simp only [Coordinate.ofComponents, Coordinate.components, ofBlocks, Blocks.realRows,
    Blocks.act, Matrix4.transform, Vec4.dot, ComplexNumber.add, ComplexNumber.mul,
    Coordinate.mk.injEq, ComplexNumber.mk.injEq]
  refine ⟨⟨?_, ?_⟩, ?_, ?_⟩ <;> ring

/-- The image of a point by the blocks of a complex matrix. -/
theorem apply_ofBlocks (blocks : Blocks ℝ) (point : Coordinate ℝ) :
    (ofBlocks blocks).apply point = (blocks.act point).normalized := by
  rw [apply, ofComponents_transform_ofBlocks]

namespace IsComplex

variable {transform accumulated increment : Mobius ℝ}

theorem compose (first : accumulated.IsComplex) (second : increment.IsComplex) :
    (accumulated.compose increment).IsComplex := by
  rw [← first, ← second, compose_ofBlocks]
  exact isComplex_ofBlocks _

theorem toMatrix_compose (first : accumulated.IsComplex) (second : increment.IsComplex) :
    (accumulated.compose increment).toMatrix = accumulated.toMatrix * increment.toMatrix := by
  conv_lhs => rw [← first, ← second, compose_ofBlocks]
  exact Blocks.toMatrix_mul _ _

/-- Determinants multiply. -/
theorem determinant_compose (first : accumulated.IsComplex) (second : increment.IsComplex) :
    (accumulated.compose increment).determinant =
      accumulated.determinant.mul increment.determinant := by
  apply ComplexNumber.toComplex_injective
  rw [← det_toMatrix, first.toMatrix_compose second, Matrix.det_mul, det_toMatrix,
    det_toMatrix, ComplexNumber.toComplex_mul]

/-- A transform whose complex determinant is not zero has an inverse. -/
theorem exists_inverse? (complex : transform.IsComplex)
    (nonsingular : transform.determinant ≠ .zero) :
    ∃ inverse, transform.matrix.inverse? = some inverse ∧
      transform.matrix.multiply inverse = .identity ∧
      inverse.multiply transform.matrix = .identity := by
  apply Matrix4.exists_inverse?
  have squared : transform.matrix.determinant = transform.determinant.normSq := by
    conv_lhs => rw [← complex]
    exact determinant_matrix_ofBlocks transform.blocks
  rw [squared, ComplexNumber.normSq_eq, Complex.normSq_eq_zero.ne,
    ComplexNumber.toComplex_eq_zero_iff.ne]
  exact nonsingular

/-- The image of a point, before it is rescaled, is the complex matrix times it. -/
theorem apply_eq (complex : transform.IsComplex) (point : Coordinate ℝ) :
    transform.apply point = (transform.blocks.act point).normalized := by
  conv_lhs => rw [← complex]
  exact apply_ofBlocks transform.blocks point

end IsComplex

/-! ## Rescaling -/

theorem sqrt_determinant_ne_zero {transform : Mobius ℝ}
    (nonsingular : transform.determinant ≠ .zero) :
    transform.determinant.sqrt.toComplex ≠ 0 := by
  intro zero
  have square := transform.determinant.toComplex_sqrt_mul_self
  rw [zero, mul_zero] at square
  exact nonsingular (ComplexNumber.toComplex_eq_zero_iff.mp square.symm)

theorem normalized_eq {transform : Mobius ℝ}
    (nonsingular : transform.determinant ≠ .zero) :
    transform.normalized =
      ofBlocks (transform.blocks.map (·.div transform.determinant.sqrt)) := by
  have root : transform.determinant.sqrt.normSq ≠ 0 := by
    rw [ComplexNumber.normSq_eq, Complex.normSq_eq_zero.ne]
    exact sqrt_determinant_ne_zero nonsingular
  simp [normalized, beq_real, root, ComplexNumber.isFinite, Scalar.isFinite]

theorem toMatrix_normalized {transform : Mobius ℝ}
    (nonsingular : transform.determinant ≠ .zero) :
    transform.normalized.toMatrix =
      transform.determinant.sqrt.toComplex⁻¹ • transform.toMatrix := by
  rw [normalized_eq nonsingular]
  exact Blocks.toMatrix_map_div _ _

/-- A transform in block form with determinant one. -/
structure IsUnimodular (transform : Mobius ℝ) : Prop where
  isComplex : transform.IsComplex
  determinant_eq : transform.determinant = .one

theorem isUnimodular_identity : (identity : Mobius ℝ).IsUnimodular where
  isComplex := isComplex_identity
  determinant_eq := by
    apply ComplexNumber.toComplex_injective
    rw [← det_toMatrix, toMatrix_identity, Matrix.det_one, ComplexNumber.toComplex_one]

/-- Rescaling gives a transform determinant one. -/
theorem isUnimodular_normalized {transform : Mobius ℝ}
    (nonsingular : transform.determinant ≠ .zero) : transform.normalized.IsUnimodular where
  isComplex := by
    rw [normalized_eq nonsingular]
    exact isComplex_ofBlocks _
  determinant_eq := by
    have root := sqrt_determinant_ne_zero nonsingular
    apply ComplexNumber.toComplex_injective
    rw [← det_toMatrix, toMatrix_normalized nonsingular, Matrix.det_smul, det_toMatrix,
      ← transform.determinant.toComplex_sqrt_mul_self, Fintype.card_fin,
      ComplexNumber.toComplex_one]
    field_simp

theorem IsUnimodular.determinant_ne_zero {transform : Mobius ℝ}
    (unimodular : transform.IsUnimodular) : transform.determinant ≠ .zero := by
  rw [unimodular.determinant_eq, ← ComplexNumber.toComplex_eq_zero_iff.ne]
  exact one_ne_zero

/-! ## Zooms -/

/-- The complex entries of a zoom from a near to a far pole, both rescaled. -/
noncomputable def zoomBlocks (near far : Coordinate ℝ) (scale : ℝ) : Blocks ℝ :=
  let straight := near.numerator.mul far.denominator
  let crossed := near.denominator.mul far.numerator
  Blocks.map (·.div (near.separation far))
    { upperLeft := straight.sub (crossed.scale scale)
      upperRight := (near.numerator.mul far.numerator).scale (scale - 1)
      lowerLeft := (near.denominator.mul far.denominator).scale (1 - scale)
      lowerRight := (straight.scale scale).sub crossed }

theorem zoom_eq (near far : Coordinate ℝ) (scale : ℝ) :
    zoom near far scale =
      if scale ≤ 0 then .error (.invalidScale scale)
      else if near.chordalDistance far < minimumSeparation then
        .error (.coincidentPoles (near.chordalDistance far))
      else .ok (ofBlocks (zoomBlocks near.normalized far.normalized scale)) := by
  simp [zoom, Scalar.isFinite, Coordinate.isFinite, ComplexNumber.isFinite]
  rfl

/-- A zoom is defined by a positive scale and two separate poles. -/
theorem zoom_eq_ok_iff {near far : Coordinate ℝ} {scale : ℝ} {transform : Mobius ℝ} :
    zoom near far scale = .ok transform ↔
      0 < scale ∧ minimumSeparation ≤ near.chordalDistance far ∧
        ofBlocks (zoomBlocks near.normalized far.normalized scale) = transform := by
  rw [zoom_eq]
  split
  next nonpositive => simp [nonpositive]
  next positive =>
    split
    next close => simp [close]
    next separate => simp [not_le.mp positive, not_lt.mp separate]

section Poles

variable {near far : Coordinate ℝ} {scale : ℝ}

/-- The complex entries of a zoom times the product difference of the poles. -/
theorem toMatrix_zoomBlocks (near far : Coordinate ℝ) (scale : ℝ) :
    (zoomBlocks near far scale).toMatrix =
      (near.separation far).toComplex⁻¹ •
        !![near.toVector 0 * far.toVector 1 - scale * (near.toVector 1 * far.toVector 0),
          (scale - 1) * (near.toVector 0 * far.toVector 0);
          (1 - scale) * (near.toVector 1 * far.toVector 1),
          scale * (near.toVector 0 * far.toVector 1) - near.toVector 1 * far.toVector 0] := by
  rw [zoomBlocks, Blocks.toMatrix_map_div]
  congr 1
  simp [Blocks.toMatrix, Coordinate.toVector, ComplexNumber.toComplex_sub,
    ComplexNumber.toComplex_scale, ComplexNumber.toComplex_mul, mul_comm]

variable (separate : (near.separation far).toComplex ≠ 0)

include separate

/-- A zoom keeps the near pole. -/
theorem zoomBlocks_mulVec_near :
    (zoomBlocks near far scale).toMatrix.mulVec near.toVector = near.toVector := by
  rw [toMatrix_zoomBlocks, Matrix.smul_mulVec, inv_smul_eq_iff₀ separate,
    Coordinate.toComplex_separation]
  funext row
  fin_cases row
  · simp [Matrix.mulVec, Coordinate.toVector]
    ring
  · simp [Matrix.mulVec, Coordinate.toVector]
    ring

/-- A zoom stretches the far pole by its scale. -/
theorem zoomBlocks_mulVec_far :
    (zoomBlocks near far scale).toMatrix.mulVec far.toVector = (scale : ℂ) • far.toVector := by
  rw [toMatrix_zoomBlocks, Matrix.smul_mulVec, inv_smul_eq_iff₀ separate,
    Coordinate.toComplex_separation]
  funext row
  fin_cases row
  · simp [Matrix.mulVec, Coordinate.toVector]
    ring
  · simp [Matrix.mulVec, Coordinate.toVector]
    ring

theorem determinant_zoomBlocks : (zoomBlocks near far scale).determinant = .real scale := by
  apply ComplexNumber.toComplex_injective
  rw [← Blocks.det_toMatrix, toMatrix_zoomBlocks, Matrix.det_smul, Matrix.det_fin_two_of,
    Fintype.card_fin, ComplexNumber.toComplex_real]
  rw [Coordinate.toComplex_separation] at separate ⊢
  simp only [Coordinate.toVector, Matrix.cons_val_zero, Matrix.cons_val_one]
  field_simp
  ring

end Poles

/-- A zoom from zero to infinity multiplies by its scale. -/
theorem zoomBlocks_zero_infinity (scale : ℝ) :
    zoomBlocks .zero .infinity scale = ⟨.real scale, .zero, .zero, .one⟩ := by
  simp [zoomBlocks, Blocks.map, Coordinate.zero, Coordinate.infinity, Coordinate.separation,
    ComplexNumber.mul, ComplexNumber.sub, ComplexNumber.scale, ComplexNumber.div,
    ComplexNumber.normSq, ComplexNumber.real, ComplexNumber.zero, ComplexNumber.one]

section Defined

variable {near far : Coordinate ℝ} {scale : ℝ} {transform : Mobius ℝ}

/-- Poles that are far enough apart are different points. -/
theorem separation_ne_zero (separate : minimumSeparation ≤ near.chordalDistance far) :
    (near.separation far).toComplex ≠ 0 := by
  intro zero
  rw [← Coordinate.chordalDistance_eq_zero_iff] at zero
  have positive : (0 : ℝ) < minimumSeparation := by norm_num [minimumSeparation]
  linarith

theorem separation_normalized_ne_zero (separate : minimumSeparation ≤ near.chordalDistance far) :
    (near.normalized.separation far.normalized).toComplex ≠ 0 := by
  apply separation_ne_zero
  rwa [Coordinate.chordalDistance_normalized_left, Coordinate.chordalDistance_normalized_right]

variable (defined : zoom near far scale = .ok transform)

include defined

theorem scale_pos_of_zoom : 0 < scale :=
  (zoom_eq_ok_iff.mp defined).1

theorem isComplex_of_zoom : transform.IsComplex := by
  obtain ⟨-, -, rfl⟩ := zoom_eq_ok_iff.mp defined
  exact isComplex_ofBlocks _

theorem determinant_of_zoom : transform.determinant = .real scale := by
  obtain ⟨-, separate, rfl⟩ := zoom_eq_ok_iff.mp defined
  exact determinant_zoomBlocks (separation_normalized_ne_zero separate)

/-- A zoom keeps every coordinate of its near pole. -/
theorem mulVec_near_of_zoom : transform.toMatrix.mulVec near.toVector = near.toVector := by
  obtain ⟨-, separate, rfl⟩ := zoom_eq_ok_iff.mp defined
  obtain ⟨factor, multiple⟩ := near.exists_toVector_eq
  rw [toMatrix_ofBlocks, multiple, Matrix.mulVec_smul,
    zoomBlocks_mulVec_near (separation_normalized_ne_zero separate)]

/-- A zoom stretches every coordinate of its far pole by its scale. -/
theorem mulVec_far_of_zoom :
    transform.toMatrix.mulVec far.toVector = (scale : ℂ) • far.toVector := by
  obtain ⟨-, separate, rfl⟩ := zoom_eq_ok_iff.mp defined
  obtain ⟨factor, multiple⟩ := far.exists_toVector_eq
  rw [toMatrix_ofBlocks, multiple, Matrix.mulVec_smul,
    zoomBlocks_mulVec_far (separation_normalized_ne_zero separate), smul_comm]

end Defined

/-! ## Images of one point -/

/-- Whether two transforms show a point by multiples of one vector. -/
def AgreeAt (first second : Mobius ℝ) (point : Coordinate ℝ) : Prop :=
  ∃ factor : ℂ, second.toMatrix.mulVec point.toVector =
    factor • first.toMatrix.mulVec point.toVector

section Agreement

variable {first second third : Mobius ℝ} {point : Coordinate ℝ}

theorem AgreeAt.refl (transform : Mobius ℝ) (point : Coordinate ℝ) :
    transform.AgreeAt transform point :=
  ⟨1, (one_smul ℂ _).symm⟩

theorem AgreeAt.trans (before : first.AgreeAt second point)
    (after : second.AgreeAt third point) : first.AgreeAt third point := by
  obtain ⟨factor, secondEq⟩ := before
  obtain ⟨other, thirdEq⟩ := after
  refine ⟨other * factor, ?_⟩
  rw [thirdEq, secondEq, smul_smul]

/-- Transforms that agree at a point show it as one point. -/
theorem AgreeAt.chordalDistance_eq_zero (agree : first.AgreeAt second point)
    (firstComplex : first.IsComplex) (secondComplex : second.IsComplex) :
    (first.apply point).chordalDistance (second.apply point) = 0 := by
  obtain ⟨factor, multiple⟩ := agree
  rw [firstComplex.apply_eq, secondComplex.apply_eq, Coordinate.chordalDistance_normalized_left,
    Coordinate.chordalDistance_normalized_right, Coordinate.chordalDistance_eq_zero_iff]
  apply Coordinate.separation_eq_zero_of_smul
  rw [Blocks.toVector_act, Blocks.toVector_act]
  exact multiple

end Agreement

/-- A transform of determinant one shows a point as a point. -/
theorem IsUnimodular.norm_apply {transform : Mobius ℝ} (unimodular : transform.IsUnimodular)
    {point : Coordinate ℝ} (nonzero : point.norm ≠ 0) : (transform.apply point).norm = 1 := by
  rw [unimodular.isComplex.apply_eq]
  apply Coordinate.norm_normalized
  intro zero
  rw [← Coordinate.toVector_eq_zero_iff, Blocks.toVector_act] at zero
  have nonsingular : transform.toMatrix.det ≠ 0 := by
    rw [det_toMatrix, unimodular.determinant_eq]
    exact one_ne_zero
  have vanishing := Matrix.eq_zero_of_mulVec_eq_zero nonsingular zero
  exact nonzero (Coordinate.toVector_eq_zero_iff.mp vanishing)

/-- A transform of determinant one shows different points as different points. -/
theorem IsUnimodular.chordalDistance_apply_eq_zero_iff {transform : Mobius ℝ}
    (unimodular : transform.IsUnimodular) {left right : Coordinate ℝ} :
    (transform.apply left).chordalDistance (transform.apply right) = 0 ↔
      left.chordalDistance right = 0 := by
  have determinant : transform.blocks.determinant.toComplex = 1 :=
    congrArg ComplexNumber.toComplex unimodular.determinant_eq
  rw [unimodular.isComplex.apply_eq, unimodular.isComplex.apply_eq,
    Coordinate.chordalDistance_normalized_left, Coordinate.chordalDistance_normalized_right,
    Coordinate.chordalDistance_eq_zero_iff, Coordinate.chordalDistance_eq_zero_iff,
    Blocks.separation_act, determinant, one_mul]

end Mobius

end Stereograph
