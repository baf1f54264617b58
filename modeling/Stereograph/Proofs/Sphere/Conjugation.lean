import Mathlib.LinearAlgebra.CrossProduct
import Stereograph.Proofs.Sphere.Rotation

/-!
# Rotations about turned axes

The formula of Rodrigues makes a vector from its products with the axis.  A rotation keeps both
products, the cross product because its determinant is one.  So a rotation after a rotation
about an axis is the rotation about the turned axis after the rotation.
-/

namespace Stereograph

open Matrix

/-! ## Cross products -/

/-- The transpose of a matrix maps the cross product of two images to a multiple of the cross
product. -/
theorem transpose_mulVec_cross (linear : Matrix (Fin 3) (Fin 3) ℝ) (first second : Fin 3 → ℝ) :
    linear.transpose *ᵥ ((linear *ᵥ first) ⨯₃ (linear *ᵥ second)) =
      linear.det • (first ⨯₃ second) := by
  funext row
  fin_cases row <;>
    · simp [Matrix.det_fin_three, Matrix.mulVec, dotProduct, cross_apply, Fin.sum_univ_three]
      ring

/-- A rotation keeps cross products. -/
theorem mulVec_cross {linear : Matrix (Fin 3) (Fin 3) ℝ}
    (member : linear ∈ Matrix.specialOrthogonalGroup (Fin 3) ℝ) (first second : Fin 3 → ℝ) :
    (linear *ᵥ first) ⨯₃ (linear *ᵥ second) = linear *ᵥ (first ⨯₃ second) := by
  have orthogonal : linear * linear.transpose = 1 :=
    (Matrix.mem_orthogonalGroup_iff _ _).mp member.1
  have determinant : linear.det = 1 := (Matrix.mem_specialOrthogonalGroup_iff.mp member).2
  have transposed := transpose_mulVec_cross linear first second
  rw [determinant, one_smul] at transposed
  rw [← transposed, Matrix.mulVec_mulVec, orthogonal, Matrix.one_mulVec]

namespace Matrix4

/-! ## Turned axes -/

/-- The formula of Rodrigues for vectors.  A vector keeps its part along the axis, and its part
across the axis is turned by the angle. -/
theorem aboutAxis_mulVec (axis : Vec3 ℝ) (sine cosine : ℝ) (vector : Fin 3 → ℝ) :
    aboutAxis axis sine cosine *ᵥ vector =
      cosine • vector + sine • (axis.entries ⨯₃ vector) +
        ((1 - cosine) * (axis.entries ⬝ᵥ vector)) • axis.entries := by
  funext row
  fin_cases row <;>
    · simp [aboutAxis, Matrix.mulVec, Matrix.vecHead, Matrix.vecTail, dotProduct, cross_apply,
        Fin.sum_univ_three, Vec3.entries]
      ring

/-- A rotation carries the rotations about an axis to those about the turned axis. -/
theorem mul_aboutAxis {linear : Matrix (Fin 3) (Fin 3) ℝ}
    (member : linear ∈ Matrix.specialOrthogonalGroup (Fin 3) ℝ) {axis turned : Vec3 ℝ}
    (turns : turned.entries = linear *ᵥ axis.entries) (sine cosine : ℝ) :
    linear * aboutAxis axis sine cosine = aboutAxis turned sine cosine * linear := by
  rw [Matrix.ext_iff_mulVec]
  intro vector
  rw [← Matrix.mulVec_mulVec, ← Matrix.mulVec_mulVec, aboutAxis_mulVec, aboutAxis_mulVec, turns,
    mulVec_cross member, dotProduct_mulVec_mulVec member]
  simp only [Matrix.mulVec_add, Matrix.mulVec_smul]

/-- A rotation turns a part of an axis like the axis. -/
theorem transformDirection_shrink (matrix : Matrix4 ℝ) (direction : Vec3 ℝ) (divisor : ℝ) :
    matrix.transformDirection (direction.shrink divisor) =
      (matrix.transformDirection direction).shrink divisor := by
  simp only [transformDirection, transform, Vec3.direction, Vec4.dot, Vec4.spatial, Vec3.shrink,
    Vec3.mk.injEq]
  refine ⟨?_, ?_, ?_⟩ <;> ring

/-- A rotation after a rotation about an axis is the rotation about the turned axis after it. -/
theorem IsRotation.map_multiply_rotation? {matrix : Matrix4 ℝ} (rotation : matrix.IsRotation)
    (angle : ℝ) (axis : Vec3 ℝ) :
    (rotation? angle axis).map (matrix.multiply ·) =
      (rotation? angle (matrix.transformDirection axis)).map (·.multiply matrix) := by
  rw [rotation?_eq, rotation?_eq, rotation.length_transformDirection, ← transformDirection_shrink]
  -- both axes have one length, so both are too short or neither is
  split
  next => rfl
  next =>
    obtain ⟨linear, member, rfl⟩ := rotation
    rw [Option.map_some, Option.map_some, bordered_mul, bordered_mul,
      mul_aboutAxis member (entries_transformDirection linear (axis.shrink axis.length))]

/-- What a rotation about an axis makes of a direction. -/
theorem entries_transformDirection_of_rotation? {angle : ℝ} {axis : Vec3 ℝ} {turning : Matrix4 ℝ}
    (defined : rotation? angle axis = some turning) (direction : Vec3 ℝ) :
    let unit := (axis.shrink axis.length).entries
    (turning.transformDirection direction).entries =
      Real.cos angle • direction.entries + Real.sin angle • (unit ⨯₃ direction.entries) +
        ((1 - Real.cos angle) * (unit ⬝ᵥ direction.entries)) • unit := by
  rw [rotation?_eq] at defined
  split at defined
  next => cases defined
  next =>
    cases defined
    rw [entries_transformDirection, aboutAxis_mulVec]

end Matrix4

end Stereograph
