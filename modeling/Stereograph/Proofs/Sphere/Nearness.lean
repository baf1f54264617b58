import Mathlib.Algebra.Order.BigOperators.Ring.Finset
import Mathlib.LinearAlgebra.Matrix.ToLinearEquiv
import Stereograph.Proofs.Sphere.Growth

/-!
# Matrices near an invertible one

A real matrix whose entries differ little from those of an invertible matrix is invertible
itself.  How little is measured by sums of squares, which for a transform of determinant one
and for its inverse are twice the energy.
-/

namespace Stereograph

section Squares

variable {n : Type} [Fintype n]

/-- The sum of the squares of the entries. -/
def sumSq (matrix : Matrix n n ℝ) : ℝ :=
  ∑ row, ∑ column, matrix row column ^ 2

theorem sumSq_nonneg (matrix : Matrix n n ℝ) : 0 ≤ sumSq matrix :=
  Finset.sum_nonneg fun _ _ => Finset.sum_nonneg fun _ _ => sq_nonneg _

/-- A matrix stretches no vector by more than the sum of its squares. -/
theorem sum_sq_mulVec_le (matrix : Matrix n n ℝ) (vector : n → ℝ) :
    ∑ row, matrix.mulVec vector row ^ 2 ≤ sumSq matrix * ∑ row, vector row ^ 2 := by
  rw [sumSq, Finset.sum_mul]
  apply Finset.sum_le_sum
  intro row _
  exact Finset.sum_mul_sq_le_sq_mul_sq _ _ _

/-- A matrix that is near an invertible one, compared with the inverse, is not singular. -/
theorem det_ne_zero_of_near [DecidableEq n] {exact inverse stored : Matrix n n ℝ}
    (inverts : inverse * exact = 1) (near : sumSq inverse * sumSq (stored - exact) < 1) :
    stored.det ≠ 0 := by
  intro singular
  obtain ⟨vector, nonzero, vanishing⟩ := Matrix.exists_mulVec_eq_zero_iff.mpr singular
  have recovered : inverse.mulVec ((stored - exact).mulVec vector) = -vector := by
    rw [Matrix.sub_mulVec, vanishing, zero_sub, Matrix.mulVec_neg, Matrix.mulVec_mulVec, inverts,
      Matrix.one_mulVec]
  have positive : 0 < ∑ row, vector row ^ 2 := by
    obtain ⟨row, entry⟩ := Function.ne_iff.mp nonzero
    exact Finset.sum_pos' (fun _ _ => sq_nonneg _) ⟨row, Finset.mem_univ row, sq_pos_iff.mpr entry⟩
  have bound := calc
    ∑ row, vector row ^ 2 = ∑ row, inverse.mulVec ((stored - exact).mulVec vector) row ^ 2 := by
      rw [recovered]
      simp
    _ ≤ sumSq inverse * ∑ row, (stored - exact).mulVec vector row ^ 2 := sum_sq_mulVec_le _ _
    _ ≤ sumSq inverse * (sumSq (stored - exact) * ∑ row, vector row ^ 2) :=
      mul_le_mul_of_nonneg_left (sum_sq_mulVec_le _ _) (sumSq_nonneg inverse)
  nlinarith

end Squares

namespace Matrix4

theorem sumSq_toMatrix (matrix : Matrix4 ℝ) :
    sumSq matrix.toMatrix = (matrix.toList.map (· ^ 2)).sum := by
  simp [sumSq, Fin.sum_univ_four, toMatrix, Vec4.entries, toList, Vec4.toList]
  ring

theorem sumSq_sub (left right : Matrix4 ℝ) :
    sumSq (left.toMatrix - right.toMatrix) =
      (List.zipWith (fun first second => (first - second) ^ 2) left.toList right.toList).sum := by
  simp [sumSq, Fin.sum_univ_four, toMatrix, Vec4.entries, toList, Vec4.toList]
  ring

end Matrix4

/-- Entries that are off by a share of themselves and an amount. -/
theorem sum_sq_sub_le {share amount : ℝ} {stored exact : List ℝ}
    (near : List.Forall₂ (fun first second => |first - second| ≤ share * |second| + amount)
      stored exact) :
    (List.zipWith (fun first second => (first - second) ^ 2) stored exact).sum ≤
      2 * share ^ 2 * (exact.map (· ^ 2)).sum + 2 * amount ^ 2 * exact.length := by
  induction near with
  | nil => simp
  | @cons first second stored exact close _ hypothesis =>
      have square : (first - second) ^ 2 ≤ 2 * share ^ 2 * second ^ 2 + 2 * amount ^ 2 := by
        have squared := pow_le_pow_left₀ (abs_nonneg _) close 2
        rw [sq_abs] at squared
        have absolute := sq_abs second
        nlinarith [sq_nonneg (share * |second| - amount)]
      simp only [List.zipWith_cons_cons, List.sum_cons, List.map_cons, List.length_cons]
      push_cast
      linarith

namespace Mobius

/-- The entries of the inverse of a matrix of determinant one. -/
noncomputable def inverseBlocks (blocks : Blocks ℝ) : Blocks ℝ :=
  ⟨blocks.lowerRight, blocks.upperRight.neg, blocks.lowerLeft.neg, blocks.upperLeft⟩

theorem inverseBlocks_mul {blocks : Blocks ℝ} (unimodular : blocks.determinant = .one) :
    (inverseBlocks blocks).mul blocks = ⟨.one, .zero, .zero, .one⟩ := by
  have determinant := congrArg ComplexNumber.toComplex unimodular
  simp only [Blocks.determinant, ComplexNumber.toComplex_sub, ComplexNumber.toComplex_mul,
    ComplexNumber.toComplex_one] at determinant
  simp only [inverseBlocks, Blocks.mul, Blocks.mk.injEq]
  refine ⟨?_, ?_, ?_, ?_⟩ <;> apply ComplexNumber.toComplex_injective <;>
    simp only [ComplexNumber.toComplex_add, ComplexNumber.toComplex_mul,
      ComplexNumber.toComplex_neg, ComplexNumber.toComplex_one, ComplexNumber.toComplex_zero]
  · linear_combination determinant
  · ring
  · ring
  · linear_combination determinant

theorem ofBlocks_one : ofBlocks ⟨.one, .zero, .zero, .one⟩ = (identity : Mobius ℝ) := by
  simp [ofBlocks, Blocks.realRows, identity, Matrix4.identity, ComplexNumber.one,
    ComplexNumber.zero]

theorem energy_inverseBlocks (blocks : Blocks ℝ) :
    energy (inverseBlocks blocks).toMatrix = energy blocks.toMatrix := by
  simp only [energy, inverseBlocks, Blocks.toMatrix, Matrix.of_apply, Matrix.cons_val_zero,
    Matrix.cons_val_one, Matrix.cons_val', Matrix.cons_val_fin_one, ComplexNumber.toComplex_neg,
    Complex.normSq_neg]
  ring

theorem sumSq_ofBlocks (blocks : Blocks ℝ) :
    sumSq (ofBlocks blocks).matrix.toMatrix = 2 * energy blocks.toMatrix := by
  rw [Matrix4.sumSq_toMatrix]
  simp only [energy, ofBlocks, Blocks.realRows, Blocks.toMatrix, Matrix4.toList, Vec4.toList,
    Matrix.of_apply, Matrix.cons_val_zero, Matrix.cons_val_one, Matrix.cons_val',
    Matrix.cons_val_fin_one, Complex.normSq_apply, ComplexNumber.toComplex, List.cons_append,
    List.nil_append, List.map_cons, List.map_nil, List.sum_cons, List.sum_nil]
  ring

/-- A matrix near a transform of determinant one has an inverse. -/
theorem IsUnimodular.determinant_ne_zero_of_near {transform : Mobius ℝ}
    (unimodular : transform.IsUnimodular) {stored : Matrix4 ℝ}
    (near : 2 * energy transform.toMatrix *
      sumSq (stored.toMatrix - transform.matrix.toMatrix) < 1) :
    stored.determinant ≠ 0 := by
  have inverts : (ofBlocks (inverseBlocks transform.blocks)).matrix.toMatrix *
      transform.matrix.toMatrix = 1 := by
    have product := compose_ofBlocks (inverseBlocks transform.blocks) transform.blocks
    rw [inverseBlocks_mul unimodular.determinant_eq, ofBlocks_one, unimodular.isComplex]
      at product
    rw [← Matrix4.toMatrix_multiply, ← Matrix4.toMatrix_identity]
    exact congrArg (fun composed => composed.matrix.toMatrix) product
  rw [← Matrix4.det_toMatrix]
  apply det_ne_zero_of_near inverts
  rw [sumSq_ofBlocks, energy_inverseBlocks]
  exact near

end Mobius

end Stereograph
