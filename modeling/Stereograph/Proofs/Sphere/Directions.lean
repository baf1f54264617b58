import Stereograph.Proofs.Sphere.Chord

/-!
# Directions and the points that they show

Chordal distances range from zero to one, because the product difference of two
coordinates and their overlap are the legs of a right triangle whose hypotenuse is the
product of their lengths.  Away from the south pole the distance of two points is half the
distance of the directions that show them, so the conversion loses nothing there.
-/

namespace Stereograph.Coordinate

open scoped ComplexConjugate

/-! ## Range of distances -/

/-- The Hermitian product of two coordinates. -/
def overlap (left right : Coordinate ℝ) : ℂ :=
  left.numerator.toComplex * conj right.numerator.toComplex +
    left.denominator.toComplex * conj right.denominator.toComplex

theorem dist_sq_add_overlap_sq (left right : Coordinate ℝ) :
    left.dist right ^ 2 + ‖left.overlap right‖ ^ 2 = left.norm ^ 2 * right.norm ^ 2 := by
  rw [dist_eq_norm, toComplex_separation, overlap, norm_sq, norm_sq]
  simp only [Complex.sq_norm, Complex.normSq_apply, Complex.add_re, Complex.add_im,
    Complex.sub_re, Complex.sub_im, Complex.mul_re, Complex.mul_im, Complex.conj_re,
    Complex.conj_im]
  ring

theorem dist_le_norm_mul_norm (left right : Coordinate ℝ) :
    left.dist right ≤ left.norm * right.norm := by
  have squares : left.dist right ^ 2 ≤ (left.norm * right.norm) ^ 2 := by
    rw [mul_pow, ← dist_sq_add_overlap_sq]
    exact le_add_of_nonneg_right (sq_nonneg _)
  exact (sq_le_sq₀ (dist_nonneg _ _) (mul_nonneg left.norm_nonneg right.norm_nonneg)).mp squares

theorem norm_normalized_le_one (point : Coordinate ℝ) : point.normalized.norm ≤ 1 := by
  by_cases zero : point.norm = 0
  · rw [normalized_of_norm_eq_zero zero, zero]
    exact zero_le_one
  · exact (norm_normalized zero).le

/-- No two points are farther apart than the diameter of the sphere. -/
theorem chordalDistance_le_one (left right : Coordinate ℝ) :
    left.chordalDistance right ≤ 1 :=
  calc
    left.chordalDistance right ≤ left.normalized.norm * right.normalized.norm :=
      dist_le_norm_mul_norm _ _
    _ ≤ 1 := mul_le_one₀ left.norm_normalized_le_one right.normalized.norm_nonneg
      right.norm_normalized_le_one

/-- A point has no distance from itself. -/
theorem chordalDistance_self (point : Coordinate ℝ) : point.chordalDistance point = 0 := by
  rw [chordalDistance_eq_zero_iff, toComplex_separation]
  ring

/-! ## The conversion -/

/-- The unit directions that are not taken for the south pole. -/
def charted : Set (Vec3 ℝ) :=
  {direction | direction.dot direction = 1 ∧
    southPoleRadius ≤ (direction.sub ⟨0, 0, -1⟩).length}

theorem chordalDistance_ofDirection_of_charted {first second : Vec3 ℝ}
    (firstCharted : first ∈ charted) (secondCharted : second ∈ charted) :
    (ofDirection first).chordalDistance (ofDirection second) = (first.sub second).length / 2 :=
  chordalDistance_ofDirection firstCharted.1 secondCharted.1 (not_lt.mpr firstCharted.2)
    (not_lt.mpr secondCharted.2)

/-- Charted directions that show one point are one direction. -/
theorem injOn_ofDirection : Set.InjOn (ofDirection (α := ℝ)) charted := by
  intro first firstCharted second secondCharted same
  have half := chordalDistance_ofDirection_of_charted firstCharted secondCharted
  rw [same, chordalDistance_self] at half
  exact Vec3.length_sub_eq_zero_iff.mp (by linarith)

/-- Every direction shows a point with a coordinate of length one, and where the coordinate is
rescaled it has a length to be divided by.  Points under directions away from the south pole
are half as far apart as the directions, so different directions show different points.  All
chordal distances lie between zero and one. -/
theorem points_half_as_far_as_directions :
    (∀ direction : Vec3 ℝ, (ofDirection direction).norm = 1 ∧
      (southPoleRadius ≤ (direction.sub ⟨0, 0, -1⟩).length →
        (projected direction).norm ≠ 0 ∧
          ofDirection direction = (projected direction).stretch (projected direction).norm⁻¹)) ∧
    (∀ first ∈ charted, ∀ second ∈ charted,
      (ofDirection first).chordalDistance (ofDirection second) =
        (first.sub second).length / 2) ∧
    Set.InjOn (ofDirection (α := ℝ)) charted ∧
    ∀ left right : Coordinate ℝ, left.chordalDistance right ∈ Set.Icc 0 1 := by
  refine ⟨fun direction => ⟨norm_ofDirection direction, fun away => ?_⟩, ?_,
    injOn_ofDirection, ?_⟩
  · have nonzero := norm_projected_ne_zero (not_lt.mpr away)
    refine ⟨nonzero, ?_⟩
    rw [ofDirection_of_not_nearSouth (not_lt.mpr away), normalized_of_norm_ne_zero nonzero]
  · intro first firstCharted second secondCharted
    exact chordalDistance_ofDirection_of_charted firstCharted secondCharted
  · intro left right
    exact ⟨chordalDistance_nonneg left right, chordalDistance_le_one left right⟩

/-- The north pole and a direction that is just not taken for the south pole. -/
theorem points_half_as_far_as_directions_near_south :
    let lowest : Vec3 ℝ := ⟨200000 / (10 ^ 10 + 1), 0, -(10 ^ 10 - 1) / (10 ^ 10 + 1)⟩
    (⟨0, 0, 1⟩ ∈ charted ∧ lowest ∈ charted) ∧
      (projected lowest).norm ≠ 0 ∧
      (ofDirection ⟨0, 0, 1⟩).chordalDistance (ofDirection lowest) ^ 2 =
        10 ^ 10 / (10 ^ 10 + 1) ∧
      ofDirection ⟨0, 0, 1⟩ ≠ ofDirection lowest := by
  intro lowest
  have northCharted : (⟨0, 0, 1⟩ : Vec3 ℝ) ∈ charted := by
    have unit : Vec3.dot ⟨0, 0, 1⟩ (⟨0, 0, 1⟩ : Vec3 ℝ) = 1 := by norm_num [Vec3.dot]
    refine ⟨unit, not_lt.mp ((nearSouth_iff_height unit).not.mpr ?_)⟩
    norm_num [southPoleRadius]
  have lowestCharted : lowest ∈ charted := by
    have unit : lowest.dot lowest = 1 := by norm_num [lowest, Vec3.dot]
    refine ⟨unit, not_lt.mp ((nearSouth_iff_height unit).not.mpr ?_)⟩
    norm_num [lowest, southPoleRadius]
  obtain ⟨rescaled, halves, injective, -⟩ := points_half_as_far_as_directions
  refine ⟨⟨northCharted, lowestCharted⟩, ((rescaled lowest).2 lowestCharted.2).1, ?_, ?_⟩
  · rw [halves _ northCharted _ lowestCharted, div_pow, sq, Vec3.length_mul_self]
    norm_num [lowest, Vec3.sub, Vec3.dot]
  · intro same
    have equal := injective northCharted lowestCharted same
    norm_num [lowest] at equal

end Stereograph.Coordinate
