import Mathlib.LinearAlgebra.Matrix.NonsingularInverse
import Stereograph.Proofs.Sphere.Exact
import Stereograph.Sphere.Matrix4

/-!
# Matrices over exact arithmetic

A matrix with four rows is a matrix in the sense of linear algebra, with the same product
and the same determinant.  Its transposed cofactors invert it whenever the determinant is
not zero, and over exact arithmetic nothing else stands in the way of an inverse.
-/

namespace Stereograph

/-- The components of a vector by their positions. -/
def Vec4.entries (vector : Vec4 ℝ) : Fin 4 → ℝ :=
  ![vector.x, vector.y, vector.z, vector.w]

theorem Vec4.entries_injective : Function.Injective Vec4.entries := by
  intro left right same
  cases left
  cases right
  simp only [entries, Matrix.vecCons_inj] at same
  obtain ⟨rfl, rfl, rfl, rfl, -⟩ := same
  rfl

namespace Matrix4

/-- The entries of a matrix by their positions. -/
def toMatrix (matrix : Matrix4 ℝ) : Matrix (Fin 4) (Fin 4) ℝ :=
  Matrix.of
    ![matrix.row₀.entries, matrix.row₁.entries, matrix.row₂.entries, matrix.row₃.entries]

theorem toMatrix_injective : Function.Injective toMatrix := by
  intro left right same
  have rows := Matrix.of.injective same
  simp only [Matrix.vecCons_inj] at rows
  obtain ⟨first, second, third, fourth, -⟩ := rows
  cases left
  cases right
  cases Vec4.entries_injective first
  cases Vec4.entries_injective second
  cases Vec4.entries_injective third
  cases Vec4.entries_injective fourth
  rfl

theorem toMatrix_identity : (identity : Matrix4 ℝ).toMatrix = 1 := by
  rw [← Matrix.ext_iff]
  simp [Fin.forall_fin_succ, toMatrix, identity, Vec4.entries]

theorem toMatrix_multiply (left right : Matrix4 ℝ) :
    (left.multiply right).toMatrix = left.toMatrix * right.toMatrix := by
  simp [toMatrix, multiply, transform, transpose, Vec4.entries, Vec4.dot, mul_comm,
    add_assoc]

theorem toMatrix_map_mul (matrix : Matrix4 ℝ) (factor : ℝ) :
    (matrix.map (· * factor)).toMatrix = factor • matrix.toMatrix := by
  simp [toMatrix, map, Vec4.map, Vec4.entries, mul_comm]

theorem det_toMatrix (matrix : Matrix4 ℝ) : matrix.toMatrix.det = matrix.determinant := by
  obtain ⟨first, second, third, fourth⟩ := matrix
  simp [Matrix.det_succ_row_zero, Fin.sum_univ_succ, toMatrix, Vec4.entries, determinant,
    PairMinors.pairing, PairMinors.ofRows, Fin.succAbove]
  ring

theorem determinant_multiply (left right : Matrix4 ℝ) :
    (left.multiply right).determinant = left.determinant * right.determinant := by
  simp only [← det_toMatrix, toMatrix_multiply, Matrix.det_mul]

theorem multiply_assoc (left middle right : Matrix4 ℝ) :
    (left.multiply middle).multiply right = left.multiply (middle.multiply right) := by
  apply toMatrix_injective
  simp only [toMatrix_multiply, Matrix.mul_assoc]

theorem identity_multiply (matrix : Matrix4 ℝ) : identity.multiply matrix = matrix := by
  apply toMatrix_injective
  rw [toMatrix_multiply, toMatrix_identity, one_mul]

theorem multiply_identity (matrix : Matrix4 ℝ) : matrix.multiply identity = matrix := by
  apply toMatrix_injective
  rw [toMatrix_multiply, toMatrix_identity, mul_one]

/-! ## Inverses -/

/-- A matrix times its transposed cofactors is its determinant. -/
theorem multiply_adjugate (matrix : Matrix4 ℝ) :
    matrix.multiply matrix.adjugate = identity.map (· * matrix.determinant) := by
  simp only [multiply, transform, transpose, Vec4.dot, adjugate, identity, map, Vec4.map,
    determinant, PairMinors.pairing, PairMinors.ofRows, Matrix4.mk.injEq, Vec4.mk.injEq]
  refine ⟨⟨?_, ?_, ?_, ?_⟩, ⟨?_, ?_, ?_, ?_⟩, ⟨?_, ?_, ?_, ?_⟩, ?_, ?_, ?_, ?_⟩ <;> ring

theorem toMatrix_mul_adjugate (matrix : Matrix4 ℝ) :
    matrix.toMatrix * matrix.adjugate.toMatrix = matrix.determinant • 1 := by
  rw [← toMatrix_multiply, multiply_adjugate, toMatrix_map_mul, toMatrix_identity]

/-- A matrix without a zero determinant has an inverse, and it is the inverse. -/
theorem exists_inverse? {matrix : Matrix4 ℝ} (nonsingular : matrix.determinant ≠ 0) :
    ∃ inverse, matrix.inverse? = some inverse ∧
      matrix.multiply inverse = identity ∧ inverse.multiply matrix = identity := by
  refine ⟨matrix.adjugate.map (· * (1 / matrix.determinant)), ?_, ?_⟩
  · simp [inverse?, beq_real, nonsingular, Scalar.isFinite]
  · have right : matrix.toMatrix *
        (matrix.adjugate.map (· * (1 / matrix.determinant))).toMatrix = 1 := by
      rw [toMatrix_map_mul, Matrix.mul_smul, toMatrix_mul_adjugate, smul_smul,
        one_div_mul_cancel nonsingular, one_smul]
    constructor
    · apply toMatrix_injective
      rw [toMatrix_multiply, right, toMatrix_identity]
    · apply toMatrix_injective
      rw [toMatrix_multiply, mul_eq_one_comm.mp right, toMatrix_identity]

/-- The inverse is the matrix whose product with the given one is the identity. -/
theorem inverse?_eq_some_iff {matrix inverse : Matrix4 ℝ} :
    matrix.inverse? = some inverse ↔ matrix.multiply inverse = identity := by
  constructor
  · intro found
    have nonsingular : matrix.determinant ≠ 0 := by
      intro singular
      simp [inverse?, singular] at found
    obtain ⟨other, otherFound, right, -⟩ := exists_inverse? nonsingular
    cases found.symm.trans otherFound
    exact right
  · intro right
    have product : matrix.toMatrix * inverse.toMatrix = 1 := by
      rw [← toMatrix_multiply, right, toMatrix_identity]
    have nonsingular : matrix.determinant ≠ 0 := by
      rw [← det_toMatrix]
      exact Matrix.det_ne_zero_of_right_inverse product
    obtain ⟨other, found, -, left⟩ := exists_inverse? nonsingular
    have same : other = inverse := by
      calc other = other.multiply (matrix.multiply inverse) := by rw [right, multiply_identity]
        _ = (other.multiply matrix).multiply inverse := (multiply_assoc _ _ _).symm
        _ = inverse := by rw [left, identity_multiply]
    rw [found, same]

/-- Exactly the singular matrices have no inverse. -/
theorem inverse?_eq_none_iff {matrix : Matrix4 ℝ} :
    matrix.inverse? = none ↔ matrix.determinant = 0 := by
  constructor
  · intro missing
    by_contra nonsingular
    obtain ⟨inverse, found, -⟩ := exists_inverse? nonsingular
    cases missing.symm.trans found
  · intro singular
    simp [inverse?, singular]

/-- Over exact arithmetic the pairing of minors is the determinant of linear algebra, and a
product has the product of the determinants.  A matrix is refused exactly when it is singular,
and what is found for any other matrix inverts it from both sides. -/
theorem inversion_is_exact (matrix : Matrix4 ℝ) :
    matrix.determinant = matrix.toMatrix.det ∧
      (∀ other : Matrix4 ℝ,
        (matrix.multiply other).determinant = matrix.determinant * other.determinant) ∧
      (matrix.inverse? = none ↔ matrix.determinant = 0) ∧
      (matrix.determinant ≠ 0 → ∃ inverse, matrix.inverse? = some inverse ∧
        matrix.multiply inverse = identity ∧ inverse.multiply matrix = identity) := by
  refine ⟨(det_toMatrix matrix).symm, ?_, inverse?_eq_none_iff, exists_inverse?⟩
  intro other
  exact determinant_multiply matrix other

/-- A matrix none of whose cofactors is zero, and one whose third row is the sum of two
others. -/
theorem inversion_is_exact_general :
    let general : Matrix4 ℝ := ⟨⟨2, 1, -1, 3⟩, ⟨1, 3, 2, -1⟩, ⟨1, -2, 4, 1⟩, ⟨3, 1, 3, 3⟩⟩
    let singular : Matrix4 ℝ := ⟨⟨2, 1, -1, 3⟩, ⟨1, 3, 2, -1⟩, ⟨3, 4, 1, 2⟩, ⟨3, 1, 3, 3⟩⟩
    general.determinant = 5 ∧
      (∃ inverse, general.inverse? = some inverse ∧
        general.multiply inverse = identity ∧ inverse.multiply general = identity) ∧
      singular.inverse? = none := by
  intro general singular
  have five : general.determinant = 5 := by
    norm_num [general, determinant, PairMinors.pairing, PairMinors.ofRows]
  have flat : singular.determinant = 0 := by
    norm_num [singular, determinant, PairMinors.pairing, PairMinors.ofRows]
  obtain ⟨-, -, -, inverts⟩ := inversion_is_exact general
  obtain ⟨-, -, refused, -⟩ := inversion_is_exact singular
  exact ⟨five, inverts (by rw [five]; norm_num), refused.mpr flat⟩

end Matrix4

end Stereograph
