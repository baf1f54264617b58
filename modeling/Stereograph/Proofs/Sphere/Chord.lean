import Mathlib.Tactic.FieldSimp
import Stereograph.Proofs.Sphere.Rescaling
import Stereograph.Proofs.Sphere.Rotation

/-!
# Chordal distance

The chordal distance of two points is the length of the product difference of their
coordinates, up to the lengths of the coordinates.  It does not tell multiples apart, and
for points under directions of the unit sphere it is half the distance in space.
-/

namespace Stereograph

namespace Coordinate

variable {left right : Coordinate ℝ}

/-- Numerator and denominator as a vector. -/
def toVector (point : Coordinate ℝ) : Fin 2 → ℂ :=
  ![point.numerator.toComplex, point.denominator.toComplex]

theorem toVector_eq_zero_iff {point : Coordinate ℝ} : point.toVector = 0 ↔ point.norm = 0 := by
  simp [norm_eq_zero_iff, toVector, funext_iff, Fin.forall_fin_two]

theorem toVector_stretch (point : Coordinate ℝ) (factor : ℝ) :
    (point.stretch factor).toVector = (factor : ℂ) • point.toVector := by
  simp [toVector, ComplexNumber.toComplex_scale, mul_comm]

/-- A coordinate is a multiple of what it rescales to. -/
theorem exists_toVector_eq (point : Coordinate ℝ) :
    ∃ factor : ℂ, point.toVector = factor • point.normalized.toVector := by
  obtain ⟨factor, -, multiple⟩ := aligned_normalized point
  refine ⟨factor, ?_⟩
  rw [← toVector_stretch, ← multiple]

/-! ## Product difference -/

theorem toComplex_separation (left right : Coordinate ℝ) :
    (left.separation right).toComplex =
      left.numerator.toComplex * right.denominator.toComplex -
        left.denominator.toComplex * right.numerator.toComplex :=
  rfl

theorem separation_stretch (left right : Coordinate ℝ) (first second : ℝ) :
    ((left.stretch first).separation (right.stretch second)).toComplex =
      (left.separation right).toComplex * (first * second : ℝ) := by
  simp only [toComplex_separation, numerator_stretch, denominator_stretch,
    ComplexNumber.toComplex_scale, Complex.ofReal_mul]
  ring

/-- The product difference of a coordinate and a complex multiple of it is zero. -/
theorem separation_eq_zero_of_smul {factor : ℂ}
    (multiple : right.toVector = factor • left.toVector) :
    (left.separation right).toComplex = 0 := by
  have numerator := congrFun multiple 0
  have denominator := congrFun multiple 1
  simp only [toVector, Pi.smul_apply, Matrix.cons_val_zero, Matrix.cons_val_one,
    smul_eq_mul] at numerator denominator
  rw [toComplex_separation, numerator, denominator]
  ring

theorem dist_eq_norm (left right : Coordinate ℝ) :
    left.dist right = ‖(left.separation right).toComplex‖ :=
  rfl

theorem dist_nonneg (left right : Coordinate ℝ) : 0 ≤ left.dist right :=
  Real.sqrt_nonneg _

theorem dist_comm (left right : Coordinate ℝ) : left.dist right = right.dist left := by
  rw [dist_eq_norm, dist_eq_norm, toComplex_separation, toComplex_separation, norm_sub_rev,
    mul_comm left.denominator.toComplex, mul_comm left.numerator.toComplex]

theorem dist_stretch {first second : ℝ} (firstPositive : 0 < first)
    (secondPositive : 0 < second) :
    (left.stretch first).dist (right.stretch second) =
      left.dist right * (first * second) := by
  rw [dist_eq_norm, separation_stretch, norm_mul,
    Complex.norm_of_nonneg (mul_pos firstPositive secondPositive).le, dist_eq_norm]

/-! ## Distance of points -/

theorem chordalDistance_comm (left right : Coordinate ℝ) :
    left.chordalDistance right = right.chordalDistance left :=
  dist_comm _ _

theorem chordalDistance_nonneg (left right : Coordinate ℝ) : 0 ≤ left.chordalDistance right :=
  dist_nonneg _ _

@[simp] theorem chordalDistance_normalized_left (left right : Coordinate ℝ) :
    left.normalized.chordalDistance right = left.chordalDistance right := by
  rw [chordalDistance, normalized_normalized, chordalDistance]

@[simp] theorem chordalDistance_normalized_right (left right : Coordinate ℝ) :
    left.chordalDistance right.normalized = left.chordalDistance right := by
  rw [chordalDistance, normalized_normalized, chordalDistance]

/-- Two coordinates show one point if and only if their product difference is zero. -/
theorem chordalDistance_eq_zero_iff :
    left.chordalDistance right = 0 ↔ (left.separation right).toComplex = 0 := by
  obtain ⟨first, firstPositive, leftEq⟩ := aligned_normalized left
  obtain ⟨second, secondPositive, rightEq⟩ := aligned_normalized right
  have product : left.dist right = left.chordalDistance right * (first * second) := by
    conv_lhs => rw [leftEq, rightEq]
    exact dist_stretch firstPositive secondPositive
  have factor : first * second ≠ 0 := (mul_pos firstPositive secondPositive).ne'
  have length : left.dist right = 0 ↔ (left.separation right).toComplex = 0 := by
    rw [dist_eq_norm, norm_eq_zero]
  rw [← length, product, mul_eq_zero, or_iff_left factor]

/-- The distance of points times the lengths of their coordinates. -/
theorem chordalDistance_mul_norm (leftNonzero : left.norm ≠ 0) (rightNonzero : right.norm ≠ 0) :
    left.chordalDistance right * (left.norm * right.norm) = left.dist right := by
  have leftPositive : 0 < left.norm⁻¹ :=
    inv_pos.mpr (lt_of_le_of_ne left.norm_nonneg leftNonzero.symm)
  have rightPositive : 0 < right.norm⁻¹ :=
    inv_pos.mpr (lt_of_le_of_ne right.norm_nonneg rightNonzero.symm)
  rw [chordalDistance, normalized_of_norm_ne_zero leftNonzero,
    normalized_of_norm_ne_zero rightNonzero, dist_stretch leftPositive rightPositive]
  field_simp

/-- Points that are a distance apart are recognized without a division. -/
theorem le_chordalDistance_iff (leftNonzero : left.norm ≠ 0) (rightNonzero : right.norm ≠ 0)
    {bound : ℝ} :
    bound ≤ left.chordalDistance right ↔
      bound * (left.norm * right.norm) ≤ left.dist right := by
  have lengths : 0 < left.norm * right.norm :=
    mul_pos (lt_of_le_of_ne left.norm_nonneg leftNonzero.symm)
      (lt_of_le_of_ne right.norm_nonneg rightNonzero.symm)
  rw [← chordalDistance_mul_norm leftNonzero rightNonzero, mul_le_mul_iff_of_pos_right lengths]

/-! ## Directions of the unit sphere -/

/-- The coordinate of a direction by central projection from the south pole, where it is
no point. -/
def projected (direction : Vec3 ℝ) : Coordinate ℝ :=
  ⟨⟨direction.x, direction.y⟩, ⟨1 + direction.z, 0⟩⟩

variable {direction first second : Vec3 ℝ}

/-- Whether a direction is taken for the south pole. -/
def NearSouth (direction : Vec3 ℝ) : Prop :=
  (direction.sub ⟨0, 0, -1⟩).length < southPoleRadius

theorem nearSouth_iff : NearSouth direction ↔
    Vec3.length ⟨direction.x, direction.y, direction.z + 1⟩ < southPoleRadius := by
  simp [NearSouth, Vec3.sub]

theorem ofDirection_of_nearSouth (near : NearSouth direction) :
    ofDirection direction = infinity :=
  if_pos (nearSouth_iff.mp near)

theorem ofDirection_of_not_nearSouth (away : ¬ NearSouth direction) :
    ofDirection direction = (projected direction).normalized :=
  if_neg (mt nearSouth_iff.mpr away)

theorem norm_projected (direction : Vec3 ℝ) :
    (projected direction).norm = (direction.sub ⟨0, 0, -1⟩).length := by
  rw [norm, Vec3.length]
  congr 1
  simp only [projected, components, Vec4.dot, Vec3.sub, Vec3.dot]
  ring

theorem norm_projected_sq (unit : direction.dot direction = 1) :
    (projected direction).norm ^ 2 = 2 * (1 + direction.z) := by
  rw [norm_projected, sq, Vec3.length_mul_self]
  simp only [Vec3.sub, Vec3.dot] at unit ⊢
  linear_combination unit

theorem norm_projected_ne_zero (away : ¬ NearSouth direction) :
    (projected direction).norm ≠ 0 := by
  rw [NearSouth, ← norm_projected, not_lt] at away
  have radius : (0 : ℝ) < southPoleRadius := by norm_num [southPoleRadius]
  exact (radius.trans_le away).ne'

/-- Every direction shows a point, rescaled. -/
theorem norm_ofDirection (direction : Vec3 ℝ) : (ofDirection direction).norm = 1 := by
  by_cases near : NearSouth direction
  · rw [ofDirection_of_nearSouth near, norm_infinity]
  · rw [ofDirection_of_not_nearSouth near]
    exact norm_normalized (norm_projected_ne_zero near)

theorem dist_projected_sq (firstUnit : first.dot first = 1) (secondUnit : second.dot second = 1) :
    (projected first).dist (projected second) ^ 2 =
      (1 + first.z) * (1 + second.z) * (first.sub second).dot (first.sub second) := by
  have firstSphere : first.x * first.x + first.y * first.y + first.z * first.z = 1 :=
    firstUnit
  have secondSphere : second.x * second.x + second.y * second.y + second.z * second.z = 1 :=
    secondUnit
  rw [dist_eq_norm, Complex.sq_norm, Complex.normSq_apply]
  simp only [projected, separation, ComplexNumber.toComplex, ComplexNumber.sub,
    ComplexNumber.mul, Vec3.sub, Vec3.dot]
  grind

/-- Among unit directions those near the south pole are the lowest. -/
theorem nearSouth_iff_height (unit : direction.dot direction = 1) :
    NearSouth direction ↔ 2 * (1 + direction.z) < southPoleRadius ^ 2 := by
  have radius : (0 : ℝ) ≤ southPoleRadius := by norm_num [southPoleRadius]
  rw [NearSouth, ← norm_projected, ← norm_projected_sq unit,
    sq_lt_sq₀ (norm_nonneg _) radius]

theorem norm_zero_point : (zero : Coordinate ℝ).norm = 1 := by
  simp [norm, zero, components, Vec4.dot, Scalar.sqrt]

/-- The north pole shows zero. -/
theorem ofDirection_north : ofDirection (⟨0, 0, 1⟩ : Vec3 ℝ) = zero := by
  have unit : Vec3.dot ⟨0, 0, 1⟩ (⟨0, 0, 1⟩ : Vec3 ℝ) = 1 := by
    simp [Vec3.dot]
  have away : ¬ NearSouth (⟨0, 0, 1⟩ : Vec3 ℝ) := by
    rw [nearSouth_iff_height unit]
    norm_num [southPoleRadius]
  have double : projected (⟨0, 0, 1⟩ : Vec3 ℝ) = (zero : Coordinate ℝ).stretch 2 := by
    norm_num [projected, stretch, zero, ComplexNumber.scale]
  rw [ofDirection_of_not_nearSouth away, double, normalized_stretch _ two_pos,
    normalized_of_norm_eq_one norm_zero_point]

/-- The south pole shows infinity. -/
theorem ofDirection_south : ofDirection (⟨0, 0, -1⟩ : Vec3 ℝ) = infinity := by
  have unit : Vec3.dot ⟨0, 0, -1⟩ (⟨0, 0, -1⟩ : Vec3 ℝ) = 1 := by
    simp [Vec3.dot]
  apply ofDirection_of_nearSouth
  rw [nearSouth_iff_height unit]
  norm_num [southPoleRadius]

theorem height_pos (unit : direction.dot direction = 1) (away : ¬ NearSouth direction) :
    0 < 1 + direction.z := by
  have square := pow_pos (lt_of_le_of_ne (norm_nonneg _) (norm_projected_ne_zero away).symm) 2
  rw [norm_projected_sq unit] at square
  linarith

/-- Points under directions away from the south pole are half as far apart as the
directions. -/
theorem chordalDistance_ofDirection (firstUnit : first.dot first = 1)
    (secondUnit : second.dot second = 1) (firstAway : ¬ NearSouth first)
    (secondAway : ¬ NearSouth second) :
    (ofDirection first).chordalDistance (ofDirection second) = (first.sub second).length / 2 := by
  rw [ofDirection_of_not_nearSouth firstAway, ofDirection_of_not_nearSouth secondAway,
    chordalDistance_normalized_left, chordalDistance_normalized_right]
  have product := chordalDistance_mul_norm (norm_projected_ne_zero firstAway)
    (norm_projected_ne_zero secondAway)
  have squares : ((projected first).chordalDistance (projected second)) ^ 2 =
      ((first.sub second).length / 2) ^ 2 := by
    have heights : (1 + first.z) * (1 + second.z) ≠ 0 :=
      (mul_pos (height_pos firstUnit firstAway) (height_pos secondUnit secondAway)).ne'
    apply mul_right_cancel₀ heights
    have dist := dist_projected_sq firstUnit secondUnit
    rw [← product, mul_pow, mul_pow, norm_projected_sq firstUnit,
      norm_projected_sq secondUnit] at dist
    rw [div_pow, sq (first.sub second).length, Vec3.length_mul_self]
    linear_combination dist / 4
  have halfNonneg : 0 ≤ (first.sub second).length / 2 :=
    div_nonneg (Vec3.length_nonneg _) zero_le_two
  exact (sq_eq_sq₀ (chordalDistance_nonneg _ _) halfNonneg).mp squares

theorem dist_infinity_projected (direction : Vec3 ℝ) :
    infinity.dist (projected direction) = |1 + direction.z| := by
  have difference : (infinity.separation (projected direction)).toComplex =
      ((1 + direction.z : ℝ) : ℂ) := by
    apply Complex.ext
    · simp [separation, infinity, projected, ComplexNumber.mul, ComplexNumber.sub,
        ComplexNumber.toComplex]
    · simp [separation, infinity, projected, ComplexNumber.mul, ComplexNumber.sub,
        ComplexNumber.toComplex]
  rw [dist_eq_norm, difference, Complex.norm_real, Real.norm_eq_abs]

/-- The distance from infinity depends on the height alone. -/
theorem chordalDistance_infinity_sq (unit : direction.dot direction = 1)
    (away : ¬ NearSouth direction) :
    infinity.chordalDistance (ofDirection direction) ^ 2 = (1 + direction.z) / 2 := by
  have infinityNonzero : (infinity : Coordinate ℝ).norm ≠ 0 := by
    rw [norm_infinity]
    exact one_ne_zero
  have product := chordalDistance_mul_norm infinityNonzero (norm_projected_ne_zero away)
  have square : infinity.chordalDistance (projected direction) ^ 2 *
      (2 * (1 + direction.z)) = (1 + direction.z) ^ 2 := by
    rw [← norm_projected_sq unit, ← mul_pow, ← sq_abs (1 + direction.z),
      ← dist_infinity_projected, ← product, norm_infinity, one_mul]
  rw [ofDirection_of_not_nearSouth away, chordalDistance_normalized_right]
  have height := height_pos unit away
  apply mul_right_cancel₀ height.ne'
  linear_combination square / 2

/-- A direction opposite to one near the south pole is high up. -/
theorem not_nearSouth_opposite (unit : direction.dot direction = 1)
    (near : NearSouth direction) :
    ¬ NearSouth direction.opposite ∧
      1 - southPoleRadius ^ 2 / 4 ≤ (1 + direction.opposite.z) / 2 := by
  have oppositeUnit : direction.opposite.dot direction.opposite = 1 := by
    rw [Vec3.dot_opposite, unit]
  rw [nearSouth_iff_height unit] at near
  rw [nearSouth_iff_height oppositeUnit]
  have radius : (southPoleRadius : ℝ) ^ 2 < 1 := by norm_num [southPoleRadius]
  have height : direction.opposite.z = -direction.z := rfl
  constructor
  · rw [height]
    linarith
  · rw [height]
    linarith

/-- The point under a direction near the south pole is almost opposite to the point under the
opposite direction. -/
theorem le_sq_chordalDistance_of_nearSouth (unit : direction.dot direction = 1)
    (near : NearSouth direction) :
    1 - southPoleRadius ^ 2 / 4 ≤
      (ofDirection direction).chordalDistance (ofDirection direction.opposite) ^ 2 := by
  have oppositeUnit : direction.opposite.dot direction.opposite = 1 := by
    rw [Vec3.dot_opposite, unit]
  obtain ⟨away, height⟩ := not_nearSouth_opposite unit near
  rw [ofDirection_of_nearSouth near, chordalDistance_infinity_sq oppositeUnit away]
  exact height

/-- Points under opposite directions are almost opposite, also where one of the directions is
taken for the south pole. -/
theorem le_sq_chordalDistance_opposite (unit : direction.dot direction = 1) :
    1 - southPoleRadius ^ 2 / 4 ≤
      (ofDirection direction).chordalDistance (ofDirection direction.opposite) ^ 2 := by
  have oppositeUnit : direction.opposite.dot direction.opposite = 1 := by
    rw [Vec3.dot_opposite, unit]
  by_cases near : NearSouth direction
  · exact le_sq_chordalDistance_of_nearSouth unit near
  · by_cases oppositeNear : NearSouth direction.opposite
    · rw [chordalDistance_comm]
      have far := le_sq_chordalDistance_of_nearSouth oppositeUnit oppositeNear
      rwa [Vec3.opposite_opposite] at far
    · rw [chordalDistance_ofDirection unit oppositeUnit near oppositeNear]
      have length : (direction.sub direction.opposite).length ^ 2 = 4 := by
        rw [sq, Vec3.length_mul_self]
        simp only [Vec3.sub, Vec3.dot, Vec3.opposite] at unit ⊢
        linear_combination 4 * unit
      rw [div_pow, length]
      linarith [sq_nonneg (southPoleRadius : ℝ)]

/-- Points under opposite directions are far apart. -/
theorem half_le_chordalDistance_opposite (unit : direction.dot direction = 1) :
    1 / 2 ≤ (ofDirection direction).chordalDistance (ofDirection direction.opposite) := by
  have almost := le_sq_chordalDistance_opposite unit
  have radius : (southPoleRadius : ℝ) ^ 2 < 1 := by norm_num [southPoleRadius]
  nlinarith [(ofDirection direction).chordalDistance_nonneg (ofDirection direction.opposite)]

end Coordinate

end Stereograph
