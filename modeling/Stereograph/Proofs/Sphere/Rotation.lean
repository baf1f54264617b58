import Mathlib.LinearAlgebra.Matrix.DotProduct
import Mathlib.LinearAlgebra.UnitaryGroup
import Stereograph.Proofs.Sphere.Matrices

/-!
# Rotations of space

A matrix with four rows is a rotation if it rotates the three components in space and
keeps the fourth.  The formula of Rodrigues defines one for every axis and angle, rotations
are closed under products, and the transpose of a rotation is its inverse.
-/

namespace Stereograph

/-- The components of a vector in space by their positions. -/
def Vec3.entries (vector : Vec3 ℝ) : Fin 3 → ℝ :=
  ![vector.x, vector.y, vector.z]

theorem Vec3.entries_injective : Function.Injective Vec3.entries := by
  intro left right same
  cases left
  cases right
  simp only [entries, Matrix.vecCons_inj] at same
  obtain ⟨rfl, rfl, rfl, -⟩ := same
  rfl

theorem Vec3.dot_eq (left right : Vec3 ℝ) :
    left.dot right = left.entries ⬝ᵥ right.entries := by
  simp [dot, entries, dotProduct, Fin.sum_univ_three]

theorem Vec3.length_nonneg (vector : Vec3 ℝ) : 0 ≤ vector.length :=
  Real.sqrt_nonneg _

theorem Vec3.length_mul_self (vector : Vec3 ℝ) :
    vector.length * vector.length = vector.dot vector := by
  have nonneg : 0 ≤ vector.dot vector :=
    add_nonneg (add_nonneg (mul_self_nonneg _) (mul_self_nonneg _)) (mul_self_nonneg _)
  exact Real.mul_self_sqrt nonneg

/-- Only equal vectors differ by length zero. -/
theorem Vec3.length_sub_eq_zero_iff {left right : Vec3 ℝ} :
    (left.sub right).length = 0 ↔ left = right := by
  constructor
  · intro zero
    have squares := (left.sub right).length_mul_self
    rw [zero, mul_zero, dot_eq] at squares
    have components := dotProduct_self_eq_zero.mp squares.symm
    apply entries_injective
    funext row
    have component := congrFun components row
    fin_cases row <;> exact sub_eq_zero.mp component
  · rintro rfl
    simp [length, sub, dot, Scalar.sqrt]

/-- A vector divided by its length has length one. -/
theorem Vec3.dot_shrink_length {vector : Vec3 ℝ} (long : vector.length ≠ 0) :
    (vector.shrink vector.length).dot (vector.shrink vector.length) = 1 := by
  have square := vector.length_mul_self
  simp only [shrink, dot] at square ⊢
  field_simp
  linear_combination -square

/-- The direction to the other side. -/
def Vec3.opposite (vector : Vec3 ℝ) : Vec3 ℝ :=
  ⟨-vector.x, -vector.y, -vector.z⟩

theorem Vec3.opposite_opposite (vector : Vec3 ℝ) : vector.opposite.opposite = vector := by
  simp [opposite]

theorem Vec3.dot_opposite (vector : Vec3 ℝ) :
    vector.opposite.dot vector.opposite = vector.dot vector := by
  simp [dot, opposite]

theorem Matrix4.transformDirection_opposite (matrix : Matrix4 ℝ) (direction : Vec3 ℝ) :
    matrix.transformDirection direction.opposite =
      (matrix.transformDirection direction).opposite := by
  simp only [transformDirection, transform, Vec3.direction, Vec4.dot, Vec4.spatial,
    Vec3.opposite, Vec3.mk.injEq]
  refine ⟨?_, ?_, ?_⟩ <;> ring

namespace Matrix4

/-! ## Linear maps of space -/

/-- The matrix that maps the components in space and keeps the fourth. -/
def bordered (linear : Matrix (Fin 3) (Fin 3) ℝ) : Matrix4 ℝ :=
  ⟨⟨linear 0 0, linear 0 1, linear 0 2, 0⟩, ⟨linear 1 0, linear 1 1, linear 1 2, 0⟩,
    ⟨linear 2 0, linear 2 1, linear 2 2, 0⟩, ⟨0, 0, 0, 1⟩⟩

theorem bordered_one : bordered 1 = identity := by
  simp [bordered, identity]

theorem bordered_mul (left right : Matrix (Fin 3) (Fin 3) ℝ) :
    (bordered left).multiply (bordered right) = bordered (left * right) := by
  simp [bordered, multiply, transpose, transform, Vec4.dot, Matrix.mul_apply,
    Fin.sum_univ_three, mul_comm]

theorem bordered_transpose (linear : Matrix (Fin 3) (Fin 3) ℝ) :
    (bordered linear).transpose = bordered linear.transpose :=
  rfl

theorem entries_transformDirection (linear : Matrix (Fin 3) (Fin 3) ℝ)
    (direction : Vec3 ℝ) :
    ((bordered linear).transformDirection direction).entries =
      linear.mulVec direction.entries := by
  funext row
  fin_cases row <;>
    simp [bordered, transformDirection, transform, Vec3.direction, Vec4.dot, Vec4.spatial,
      Vec3.entries, Matrix.mulVec, dotProduct, Fin.sum_univ_three]

/-! ## Rotations -/

/-- A rotation keeps products of vectors. -/
theorem dotProduct_mulVec_mulVec {linear : Matrix (Fin 3) (Fin 3) ℝ}
    (member : linear ∈ Matrix.specialOrthogonalGroup (Fin 3) ℝ) (first second : Fin 3 → ℝ) :
    linear.mulVec first ⬝ᵥ linear.mulVec second = first ⬝ᵥ second := by
  have orthogonal : linear.transpose * linear = 1 :=
    (Matrix.mem_orthogonalGroup_iff' _ _).mp member.1
  rw [Matrix.dotProduct_mulVec, Matrix.vecMul_mulVec, orthogonal, Matrix.vecMul_one]

/-- Whether a matrix rotates the components in space and keeps the fourth. -/
def IsRotation (matrix : Matrix4 ℝ) : Prop :=
  ∃ linear ∈ Matrix.specialOrthogonalGroup (Fin 3) ℝ, matrix = bordered linear

theorem isRotation_identity : IsRotation identity := by
  refine ⟨1, Submonoid.one_mem _, ?_⟩
  exact bordered_one.symm

namespace IsRotation

variable {left right matrix : Matrix4 ℝ}

theorem multiply (first : left.IsRotation) (second : right.IsRotation) :
    (left.multiply right).IsRotation := by
  obtain ⟨linear, member, rfl⟩ := first
  obtain ⟨other, otherMember, rfl⟩ := second
  refine ⟨linear * other, Submonoid.mul_mem _ member otherMember, ?_⟩
  exact bordered_mul linear other

theorem multiply_transpose (rotation : matrix.IsRotation) :
    matrix.multiply matrix.transpose = identity := by
  obtain ⟨linear, member, rfl⟩ := rotation
  have orthogonal : linear * linear.transpose = 1 :=
    (Matrix.mem_orthogonalGroup_iff _ _).mp member.1
  rw [bordered_transpose, bordered_mul, orthogonal, bordered_one]

theorem transpose_multiply (rotation : matrix.IsRotation) :
    matrix.transpose.multiply matrix = identity := by
  obtain ⟨linear, member, rfl⟩ := rotation
  have orthogonal : linear.transpose * linear = 1 :=
    (Matrix.mem_orthogonalGroup_iff' _ _).mp member.1
  rw [bordered_transpose, bordered_mul, orthogonal, bordered_one]

theorem transpose (rotation : matrix.IsRotation) : matrix.transpose.IsRotation := by
  obtain ⟨linear, member, rfl⟩ := rotation
  refine ⟨linear.transpose, ?_, bordered_transpose linear⟩
  rw [Matrix.mem_specialOrthogonalGroup_iff, Matrix.mem_orthogonalGroup_iff] at member ⊢
  refine ⟨?_, ?_⟩
  · exact mul_eq_one_comm.mp member.1
  · rw [Matrix.det_transpose, member.2]

/-- The inverse of a rotation exists and is its transpose. -/
theorem inverse?_eq (rotation : matrix.IsRotation) :
    matrix.inverse? = some matrix.transpose :=
  inverse?_eq_some_iff.mpr rotation.multiply_transpose

/-- A rotation keeps the product of two directions. -/
theorem dot_transformDirection (rotation : matrix.IsRotation) (first second : Vec3 ℝ) :
    (matrix.transformDirection first).dot (matrix.transformDirection second) =
      first.dot second := by
  obtain ⟨linear, member, rfl⟩ := rotation
  rw [Vec3.dot_eq, entries_transformDirection, entries_transformDirection,
    dotProduct_mulVec_mulVec member, Vec3.dot_eq]

theorem length_transformDirection (rotation : matrix.IsRotation) (direction : Vec3 ℝ) :
    (matrix.transformDirection direction).length = direction.length := by
  rw [Vec3.length, rotation.dot_transformDirection, Vec3.length]

/-- A product of rotations turns a direction by one after the other. -/
theorem transformDirection_multiply (first : left.IsRotation) (second : right.IsRotation)
    (direction : Vec3 ℝ) :
    (left.multiply right).transformDirection direction =
      left.transformDirection (right.transformDirection direction) := by
  obtain ⟨linear, -, rfl⟩ := first
  obtain ⟨other, -, rfl⟩ := second
  apply Vec3.entries_injective
  rw [bordered_mul, entries_transformDirection, entries_transformDirection,
    entries_transformDirection, Matrix.mulVec_mulVec]

/-- A rotation undoes its transpose. -/
theorem transformDirection_transpose (rotation : matrix.IsRotation) (direction : Vec3 ℝ) :
    matrix.transformDirection (matrix.transpose.transformDirection direction) = direction := by
  rw [← rotation.transformDirection_multiply rotation.transpose, rotation.multiply_transpose]
  apply Vec3.entries_injective
  rw [← bordered_one, entries_transformDirection, Matrix.one_mulVec]

/-- Over a rotation, a direction is what the transpose makes of its image. -/
theorem transformDirection_eq_iff (rotation : matrix.IsRotation) {direction image : Vec3 ℝ} :
    matrix.transformDirection direction = image ↔
      direction = matrix.transpose.transformDirection image := by
  constructor
  · rintro rfl
    exact (rotation.transpose.transformDirection_transpose direction).symm
  · rintro rfl
    exact rotation.transformDirection_transpose image

end IsRotation

/-! ## The formula of Rodrigues -/

/-- Rotation about an axis of length one, with the sine and the cosine of the angle. -/
def aboutAxis (axis : Vec3 ℝ) (sine cosine : ℝ) : Matrix (Fin 3) (Fin 3) ℝ :=
  let ⟨x, y, z⟩ := axis
  let versine := 1 - cosine
  !![versine * x * x + cosine, versine * x * y - sine * z, versine * x * z + sine * y;
    versine * x * y + sine * z, versine * y * y + cosine, versine * y * z - sine * x;
    versine * x * z - sine * y, versine * y * z + sine * x, versine * z * z + cosine]

theorem aboutAxis_mem {axis : Vec3 ℝ} {sine cosine : ℝ} (unit : axis.dot axis = 1)
    (circle : sine ^ 2 + cosine ^ 2 = 1) :
    aboutAxis axis sine cosine ∈ Matrix.specialOrthogonalGroup (Fin 3) ℝ := by
  obtain ⟨x, y, z⟩ := axis
  have sphere : x * x + y * y + z * z = 1 := unit
  rw [Matrix.mem_specialOrthogonalGroup_iff, Matrix.mem_orthogonalGroup_iff]
  refine ⟨?_, ?_⟩
  · ext row column
    fin_cases row <;> fin_cases column <;>
      · simp [aboutAxis, Matrix.mul_apply, Fin.sum_univ_three]
        grind
  · simp [aboutAxis, Matrix.det_fin_three]
    grind

theorem rotation?_eq (angle : ℝ) (axis : Vec3 ℝ) :
    rotation? angle axis =
      if axis.length < minimumAxisLength then none
      else some (bordered
        (aboutAxis (axis.shrink axis.length) (Real.sin angle) (Real.cos angle))) :=
  rfl

/-- Only a short axis defines no rotation. -/
theorem rotation?_eq_none_iff {angle : ℝ} {axis : Vec3 ℝ} :
    rotation? angle axis = none ↔ axis.length < minimumAxisLength := by
  rw [rotation?_eq]
  split <;> simp_all

/-- What the formula gives is a rotation. -/
theorem isRotation_of_rotation? {angle : ℝ} {axis : Vec3 ℝ} {matrix : Matrix4 ℝ}
    (defined : rotation? angle axis = some matrix) : matrix.IsRotation := by
  rw [rotation?_eq] at defined
  split at defined
  next => cases defined
  next long =>
    cases defined
    have positive : 0 < axis.length := by
      have minimum : (0 : ℝ) < minimumAxisLength := by norm_num [minimumAxisLength]
      exact minimum.trans_le (not_lt.mp long)
    refine ⟨_, aboutAxis_mem ?_ (Real.sin_sq_add_cos_sq angle), rfl⟩
    exact Vec3.dot_shrink_length positive.ne'

end Matrix4

end Stereograph
