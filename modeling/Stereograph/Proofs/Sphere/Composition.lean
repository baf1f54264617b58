import Stereograph.Proofs.Sphere.Mobius
import Stereograph.Proofs.Sphere.Multiple

/-!
# Composed transforms

A product of matrices shows a point as one transform after the other does, although the image
in between is rescaled.  This needs no blocks and no inverses, since rescaling divides by a
positive number or leaves the pair of zeros alone.

Transforms with proportional complex matrices are the same map of the sphere, so rescaling a
transform in block form keeps its map.  It keeps no other map, except where the complex
determinant is zero and rescaling does nothing: only two of the four columns are read, and the
images of a few points tell what stood in the other two.
-/

namespace Stereograph

/-! ## Products of matrices -/

theorem Matrix4.transform_multiply (left right : Matrix4 ℝ) (vector : Vec4 ℝ) :
    (left.multiply right).transform vector = left.transform (right.transform vector) := by
  simp only [multiply, transform, transpose, Vec4.dot, Vec4.mk.injEq]
  refine ⟨?_, ?_, ?_, ?_⟩ <;> ring

/-- A matrix maps a stretched coordinate to the stretched image. -/
theorem Matrix4.ofComponents_transform_stretch (matrix : Matrix4 ℝ) (point : Coordinate ℝ)
    (factor : ℝ) :
    Coordinate.ofComponents (matrix.transform (point.stretch factor).components) =
      (Coordinate.ofComponents (matrix.transform point.components)).stretch factor := by
  simp only [Coordinate.ofComponents, Coordinate.components, Coordinate.stretch, transform,
    Vec4.dot, ComplexNumber.scale, Coordinate.mk.injEq, ComplexNumber.mk.injEq]
  refine ⟨⟨?_, ?_⟩, ?_, ?_⟩ <;> ring

namespace Mobius

/-- A transform does not notice that a point was rescaled. -/
theorem apply_normalized (transform : Mobius ℝ) (point : Coordinate ℝ) :
    transform.apply point.normalized = transform.apply point := by
  obtain ⟨factor, positive, stretched⟩ := point.aligned_normalized
  conv_rhs => rw [stretched]
  rw [apply, apply, Matrix4.ofComponents_transform_stretch,
    Coordinate.normalized_stretch _ positive]

/-- A composed transform shows a point as its factors do one after the other.  The factors may
be any matrices, and the point may be the pair of zeros. -/
theorem apply_compose (accumulated increment : Mobius ℝ) (point : Coordinate ℝ) :
    (accumulated.compose increment).apply point = accumulated.apply (increment.apply point) := by
  calc (accumulated.compose increment).apply point
      = accumulated.apply
          (.ofComponents (increment.matrix.transform point.components)) := by
        rw [compose, apply, Matrix4.transform_multiply]
        rfl
    _ = accumulated.apply (increment.apply point) :=
        (accumulated.apply_normalized _).symm

/-! ## Transforms with one map -/

/-- Whether two transforms show every point alike. -/
def SameMap (first second : Mobius ℝ) : Prop :=
  ∀ point, Coordinate.Proportional (first.apply point) (second.apply point)

section SameMap

variable {transform first second third : Mobius ℝ}

theorem SameMap.symm (same : SameMap first second) : SameMap second first :=
  fun point => (same point).symm

theorem SameMap.trans (before : SameMap first second) (after : SameMap second third) :
    SameMap first third :=
  fun point => (before point).trans (after point)

/-- What is applied first may be any transform. -/
theorem SameMap.compose (same : SameMap first second) (increment : Mobius ℝ) :
    SameMap (first.compose increment) (second.compose increment) := by
  intro point
  rw [apply_compose, apply_compose]
  exact same (increment.apply point)

/-- Transforms whose complex matrices are proportional have one map. -/
theorem sameMap_of_toMatrix_eq (firstComplex : first.IsComplex) (secondComplex : second.IsComplex)
    {factor : ℂ} (nonzero : factor ≠ 0) (matrices : second.toMatrix = factor • first.toMatrix) :
    SameMap first second := by
  intro point
  rw [firstComplex.apply_eq, secondComplex.apply_eq]
  apply Coordinate.Proportional.normalized
  refine Coordinate.proportional_iff.mpr ⟨factor, nonzero, ?_⟩
  rw [Blocks.toVector_act, Blocks.toVector_act, ← Matrix.smul_mulVec]
  exact congrArg (Matrix.mulVec · point.toVector) matrices

/-- A singular transform has no root to divide by. -/
theorem normalized_of_singular (singular : transform.determinant = .zero) :
    transform.normalized = transform := by
  have root : transform.determinant.sqrt.normSq = 0 := by
    have square := transform.determinant.toComplex_sqrt_mul_self
    rw [singular, ComplexNumber.toComplex_zero, mul_self_eq_zero] at square
    rw [singular, ComplexNumber.normSq_eq, square, Complex.normSq_zero]
  simp [Mobius.normalized, root]

theorem IsComplex.normalized (complex : transform.IsComplex) : transform.normalized.IsComplex := by
  by_cases singular : transform.determinant = .zero
  · rw [normalized_of_singular singular]
    exact complex
  · exact (isUnimodular_normalized singular).isComplex

/-- Rescaling multiplies the complex matrix, also where there is no root to divide by. -/
theorem exists_toMatrix_normalized_eq (transform : Mobius ℝ) :
    ∃ factor : ℂ, factor ≠ 0 ∧ transform.normalized.toMatrix = factor • transform.toMatrix := by
  by_cases singular : transform.determinant = .zero
  · refine ⟨1, one_ne_zero, ?_⟩
    rw [normalized_of_singular singular, one_smul]
  · exact ⟨_, inv_ne_zero (sqrt_determinant_ne_zero singular), toMatrix_normalized singular⟩

/-- Rescaling keeps the map of a transform in block form. -/
theorem IsComplex.sameMap_normalized (complex : transform.IsComplex) :
    SameMap transform transform.normalized := by
  obtain ⟨factor, nonzero, matrices⟩ := exists_toMatrix_normalized_eq transform
  exact sameMap_of_toMatrix_eq complex complex.normalized nonzero matrices

end SameMap

/-! ## Images before rescaling -/

/-- Image of a point before it is rescaled. -/
noncomputable def image (transform : Mobius ℝ) (point : Coordinate ℝ) : Coordinate ℝ :=
  .ofComponents (transform.matrix.transform point.components)

/-- An image is the sum of what numerator and denominator contribute. -/
theorem toVector_image (transform : Mobius ℝ) (numerator denominator : ComplexNumber ℝ) :
    (transform.image ⟨numerator, denominator⟩).toVector =
      (transform.image ⟨numerator, .zero⟩).toVector +
        (transform.image ⟨.zero, denominator⟩).toVector := by
  funext row
  fin_cases row <;> apply Complex.ext <;>
    simp [image, Coordinate.toVector, Coordinate.ofComponents, Coordinate.components,
      Matrix4.transform, Vec4.dot, ComplexNumber.toComplex, ComplexNumber.zero] <;> ring

/-- The left column of the blocks is the image of infinity. -/
theorem image_infinity (transform : Mobius ℝ) :
    transform.image .infinity = transform.blocks.act .infinity := by
  simp [image, blocks, Blocks.act, Coordinate.infinity, Coordinate.ofComponents,
    Coordinate.components, Matrix4.transform, Vec4.dot, ComplexNumber.add, ComplexNumber.mul]

/-- The right column of the blocks is the image of zero. -/
theorem image_zero (transform : Mobius ℝ) :
    transform.image .zero = transform.blocks.act .zero := by
  simp [image, blocks, Blocks.act, Coordinate.zero, Coordinate.ofComponents,
    Coordinate.components, Matrix4.transform, Vec4.dot, ComplexNumber.add, ComplexNumber.mul]

/-- A transform is in block form if it has the images of imaginary coordinates from its blocks.
These images are the two columns that the blocks do not read. -/
theorem isComplex_of_image {transform : Mobius ℝ}
    (numerator : transform.image ⟨.imaginaryUnit, .zero⟩ =
      transform.blocks.act ⟨.imaginaryUnit, .zero⟩)
    (denominator : transform.image ⟨.zero, .imaginaryUnit⟩ =
      transform.blocks.act ⟨.zero, .imaginaryUnit⟩) : transform.IsComplex := by
  obtain ⟨⟨⟨_, _, _, _⟩, ⟨_, _, _, _⟩, ⟨_, _, _, _⟩, ⟨_, _, _, _⟩⟩⟩ := transform
  simp only [image, blocks, Blocks.act, Coordinate.ofComponents, Coordinate.components,
    Matrix4.transform, Vec4.dot, ComplexNumber.add, ComplexNumber.mul, ComplexNumber.zero,
    ComplexNumber.imaginaryUnit, mul_zero, mul_one, zero_add, add_zero, zero_sub, sub_self,
    Coordinate.mk.injEq, ComplexNumber.mk.injEq] at numerator denominator
  simp [IsComplex, ofBlocks, blocks, Blocks.realRows, numerator, denominator]

section SameMap

variable {transform : Mobius ℝ}

/-- A transform that shows points as its blocks do has multiples of their images. -/
theorem SameMap.proportional_image (same : SameMap transform (ofBlocks transform.blocks))
    (point : Coordinate ℝ) :
    Coordinate.Proportional (transform.blocks.act point) (transform.image point) := by
  apply Coordinate.Proportional.of_normalized
  rw [← apply_ofBlocks]
  exact (same point).symm

/-- If a transform shows points as its blocks do, has the image of one point from them and adds
up the images of that point and another, then it has the image of the other from them too. -/
theorem SameMap.image_eq (same : SameMap transform (ofBlocks transform.blocks))
    (nonsingular : transform.determinant ≠ .zero) {first second sum : Coordinate ℝ}
    (separate : first.separation second ≠ .zero)
    (known : transform.image second = transform.blocks.act second)
    (vectors : sum.toVector = first.toVector + second.toVector)
    (images : (transform.image sum).toVector =
      (transform.image first).toVector + (transform.image second).toVector) :
    transform.image first = transform.blocks.act first := by
  obtain ⟨factor, -, firstEq⟩ := Coordinate.proportional_iff.mp (same.proportional_image first)
  obtain ⟨other, -, sumEq⟩ := Coordinate.proportional_iff.mp (same.proportional_image sum)
  -- the two factors belong to independent vectors, so a nonsingular matrix makes both of them one
  have vanishing : transform.toMatrix.mulVec
      ((factor - other) • first.toVector + (1 - other) • second.toVector) = 0 := by
    rw [sumEq, firstEq, known] at images
    simp only [Blocks.toVector_act, vectors, Matrix.mulVec_add, smul_add] at images
    rw [Matrix.mulVec_add, Matrix.mulVec_smul, Matrix.mulVec_smul, sub_smul, sub_smul, one_smul,
      sub_add_sub_comm, toMatrix, images, sub_self]
  have determinant : transform.toMatrix.det ≠ 0 := by
    rwa [det_toMatrix, ComplexNumber.toComplex_eq_zero_iff.ne]
  rw [← ComplexNumber.toComplex_eq_zero_iff.ne] at separate
  have relation := Matrix.eq_zero_of_mulVec_eq_zero determinant vanishing
  obtain ⟨factors, isOne⟩ :=
    LinearIndependent.pair_iff.mp (Coordinate.linearIndependent_toVector separate) _ _ relation
  have one : factor = 1 := by linear_combination factors - isOne
  apply Coordinate.toVector_injective
  rw [firstEq, one, one_smul]

/-- Only a transform in block form has the map of its blocks, unless these are singular. -/
theorem SameMap.isComplex (same : SameMap transform (ofBlocks transform.blocks))
    (nonsingular : transform.determinant ≠ .zero) : transform.IsComplex := by
  apply isComplex_of_image
  -- each imaginary coordinate is compared with the point of the other axis that is shown right
  · refine same.image_eq nonsingular ?_ transform.image_zero
      (Coordinate.toVector_eq_add .imaginaryUnit .one)
      (transform.toVector_image .imaginaryUnit .one)
    simp [Coordinate.separation, Coordinate.zero, ComplexNumber.mul, ComplexNumber.sub,
      ComplexNumber.imaginaryUnit, ComplexNumber.zero]
  · refine same.image_eq nonsingular ?_ transform.image_infinity
      ((Coordinate.toVector_eq_add .one .imaginaryUnit).trans (add_comm _ _))
      ((transform.toVector_image .one .imaginaryUnit).trans (add_comm _ _))
    simp [Coordinate.separation, Coordinate.infinity, ComplexNumber.mul, ComplexNumber.sub,
      ComplexNumber.imaginaryUnit, ComplexNumber.zero]

/-! ## Rescaling a transform -/

/-- Rescaling keeps the map of a transform in block form, and it returns a transform whose
complex determinant is zero as it is.  It changes the map of every other transform. -/
theorem sameMap_normalized_iff :
    SameMap transform transform.normalized ↔
      transform.IsComplex ∨ transform.determinant = .zero := by
  constructor
  · intro same
    by_cases singular : transform.determinant = .zero
    · exact .inr singular
    · obtain ⟨factor, nonzero, matrices⟩ := exists_toMatrix_normalized_eq transform
      have rescaled : SameMap (ofBlocks transform.blocks) transform.normalized :=
        sameMap_of_toMatrix_eq (isComplex_ofBlocks _) (isUnimodular_normalized singular).isComplex
          nonzero matrices
      exact .inl ((same.trans rescaled.symm).isComplex singular)
  · rintro (complex | singular)
    · exact complex.sameMap_normalized
    · rw [normalized_of_singular singular]
      exact fun point => .refl _

/-- A transform whose complex determinant is one is rescaled to its blocks. -/
theorem normalized_of_determinant_one (one : transform.determinant = .one) :
    transform.normalized = ofBlocks transform.blocks := by
  have root : transform.determinant.sqrt = .one := by
    calc transform.determinant.sqrt
        = (ComplexNumber.real 1).sqrt := congrArg _ one
      _ = .real √1 := ComplexNumber.sqrt_real zero_le_one
      _ = .one := by rw [Real.sqrt_one]; rfl
  have nonsingular : transform.determinant ≠ .zero := by
    rw [one, ← ComplexNumber.toComplex_eq_zero_iff.ne]
    exact one_ne_zero
  rw [normalized_eq nonsingular, root]
  congr 1
  apply Blocks.toMatrix_injective
  rw [Blocks.toMatrix_map_div, ComplexNumber.toComplex_one, inv_one, one_smul]

end SameMap

/-- Transforms act as complex matrices.  Those of complex entries compose like the matrices of
the entries, their determinants multiply, and they show a point by the complex matrix times
numerator and denominator, rescaled.  All transforms show a point as their factors do one after
the other.  Rescaling keeps the map of a transform in block form, and of one whose complex
determinant is zero, and of no other transform. -/
theorem transforms_act_as_complex_matrices :
    (∀ left right : Blocks ℝ,
      (ofBlocks left).compose (ofBlocks right) = ofBlocks (left.mul right) ∧
        (left.mul right).toMatrix = left.toMatrix * right.toMatrix ∧
        ((ofBlocks left).compose (ofBlocks right)).determinant =
          (ofBlocks left).determinant.mul (ofBlocks right).determinant) ∧
    (∀ (blocks : Blocks ℝ) (point : Coordinate ℝ),
      (ofBlocks blocks).apply point = (blocks.act point).normalized ∧
        (blocks.act point).toVector = blocks.toMatrix.mulVec point.toVector ∧
        (ofBlocks blocks).determinant.toComplex = blocks.toMatrix.det) ∧
    (∀ (accumulated increment : Mobius ℝ) (point : Coordinate ℝ),
      (accumulated.compose increment).apply point =
        accumulated.apply (increment.apply point)) ∧
    ∀ transform : Mobius ℝ,
      SameMap transform transform.normalized ↔
        ofBlocks transform.blocks = transform ∨ transform.determinant = .zero := by
  refine ⟨?_, ?_, apply_compose, fun transform => sameMap_normalized_iff⟩
  · intro left right
    refine ⟨compose_ofBlocks left right, Blocks.toMatrix_mul left right, ?_⟩
    exact (isComplex_ofBlocks left).determinant_compose (isComplex_ofBlocks right)
  · intro blocks point
    exact ⟨apply_ofBlocks blocks point, blocks.toVector_act point, blocks.det_toMatrix.symm⟩

/-- The reflection that shows a number as its conjugate.  It is not in block form, and its
blocks are those of the identity. -/
noncomputable def mirror : Mobius ℝ where
  matrix := ⟨⟨1, 0, 0, 0⟩, ⟨0, -1, 0, 0⟩, ⟨0, 0, 1, 0⟩, ⟨0, 0, 0, -1⟩⟩

theorem normalized_mirror : mirror.normalized = identity := by
  rw [normalized_of_determinant_one]
  · simp [mirror, ofBlocks, blocks, Blocks.realRows, identity, Matrix4.identity]
  · simp [mirror, determinant, blocks, Blocks.determinant, ComplexNumber.mul, ComplexNumber.sub,
      ComplexNumber.one]

/-- The reflection shows the imaginary unit as its negative, and rescaled as itself. -/
theorem not_proportional_normalized_mirror :
    ¬ Coordinate.Proportional (mirror.apply .imaginaryUnit)
      (mirror.normalized.apply .imaginaryUnit) := by
  intro same
  have mirrored : mirror.image .imaginaryUnit = ⟨⟨0, -1⟩, .one⟩ := by
    simp [mirror, image, Coordinate.imaginaryUnit, Coordinate.ofComponents,
      Coordinate.components, Matrix4.transform, Vec4.dot, ComplexNumber.one]
  have kept : identity.image .imaginaryUnit = (.imaginaryUnit : Coordinate ℝ) := by
    simp [identity, image, Coordinate.imaginaryUnit, Coordinate.ofComponents,
      Coordinate.components, Matrix4.transform, Vec4.dot, Matrix4.identity]
  rw [normalized_mirror] at same
  have images : Coordinate.Proportional (mirror.image .imaginaryUnit)
      (identity.image .imaginaryUnit) := .of_normalized same
  rw [mirrored, kept] at images
  obtain ⟨factor, -, vectors⟩ := Coordinate.proportional_iff.mp images
  have zero := ComplexNumber.toComplex_eq_zero_iff.mp
    (Coordinate.separation_eq_zero_of_smul vectors)
  norm_num [Coordinate.separation, Coordinate.imaginaryUnit, ComplexNumber.mul,
    ComplexNumber.sub, ComplexNumber.one, ComplexNumber.zero] at zero

end Mobius

end Stereograph
