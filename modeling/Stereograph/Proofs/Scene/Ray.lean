import Stereograph.Proofs.Sphere.Exact
import Stereograph.Scene.Pointing

/-!
# Where a ray leaves a sphere

A ray goes forward through the pointer, so the multiples of it that lie on a unit sphere are
the roots of a quadratic equation with a positive leading coefficient.  The equation has a
root exactly when its discriminant is not negative, and the point where the ray leaves the
sphere belongs to the greatest root, wherever the sphere stands.
-/

namespace Stereograph

variable {projection : Matrix4 ℝ} {center point : Vec3 ℝ} {pointer : Vec2 ℝ}

/-- The factors that take a ray to the unit sphere about a center. -/
def meetings (center ray : Vec3 ℝ) : Set ℝ :=
  {factor | ((ray.scale factor).sub center).dot ((ray.scale factor).sub center) = 1}

/-- A ray goes forward, whatever the projection. -/
theorem rayThrough_dot_pos (projection : Matrix4 ℝ) (pointer : Vec2 ℝ) :
    0 < (rayThrough projection pointer).dot (rayThrough projection pointer) := by
  simp only [rayThrough, Vec3.dot]
  nlinarith [mul_self_nonneg (pointer.x / projection.row₀.x),
    mul_self_nonneg (pointer.y / projection.row₁.y)]

/-! ## The quadratic equation -/

/-- Squared distance of a point on a ray from a center. -/
theorem dot_sub_scale (ray center : Vec3 ℝ) (factor : ℝ) :
    ((ray.scale factor).sub center).dot ((ray.scale factor).sub center) =
      ray.dot ray * (factor * factor) + -2 * ray.dot center * factor + center.dot center := by
  simp only [Vec3.sub, Vec3.scale, Vec3.dot]
  ring

theorem mem_meetings_iff {ray : Vec3 ℝ} {factor : ℝ} :
    factor ∈ meetings center ray ↔
      ray.dot ray * (factor * factor) + -2 * ray.dot center * factor +
        (center.dot center - 1) = 0 := by
  rw [meetings, Set.mem_ofPred_eq, dot_sub_scale, ← sub_eq_zero, add_sub_assoc]

/-- A quarter of the discriminant of the equation for the meetings of a ray and a sphere. -/
noncomputable def meetingDiscriminant (center ray : Vec3 ℝ) : ℝ :=
  ray.dot center * ray.dot center - ray.dot ray * (center.dot center - 1)

/-- The root that belongs to the positive square root of the discriminant. -/
noncomputable def farMeeting (center ray : Vec3 ℝ) : ℝ :=
  (ray.dot center + √(meetingDiscriminant center ray)) / ray.dot ray

/-- The exit is computed from the whole discriminant and twice the leading coefficient. -/
theorem rayExit?_eq (projection : Matrix4 ℝ) (center : Vec3 ℝ) (pointer : Vec2 ℝ) :
    rayExit? projection center pointer =
      if meetingDiscriminant center (rayThrough projection pointer) < 0 then none
      else some ((rayThrough projection pointer).scale
        (farMeeting center (rayThrough projection pointer))) := by
  have two : (2.0 : ℝ) = 2 := by norm_num
  have four : (4.0 : ℝ) = 2 ^ 2 := by norm_num
  have positive : (0 : ℝ) < 2 ^ 2 := by norm_num
  have whole : ∀ ray : Vec3 ℝ,
      -2 * ray.dot center * (-2 * ray.dot center) -
          2 ^ 2 * ray.dot ray * (center.dot center - 1) =
        2 ^ 2 * meetingDiscriminant center ray := by
    intro ray
    rw [meetingDiscriminant]
    ring
  have root : ∀ ray : Vec3 ℝ,
      (-(-2 * ray.dot center) + √(2 ^ 2 * meetingDiscriminant center ray)) /
          (2 * ray.dot ray) = farMeeting center ray := by
    intro ray
    rw [Real.sqrt_mul positive.le, Real.sqrt_sq zero_le_two, farMeeting, neg_mul, neg_neg,
      ← mul_add, mul_div_mul_left _ _ two_ne_zero]
  simp only [rayExit?, two, four, whole, mul_neg_iff, positive, positive.not_gt, true_and,
    false_and, or_false]
  exact if_congr Iff.rfl rfl (congrArg (fun factor => some (Vec3.scale _ factor)) (root _))

/-- The equation with its square completed. -/
theorem mem_meetings_iff_sq {ray : Vec3 ℝ} (forward : 0 < ray.dot ray) {factor : ℝ} :
    factor ∈ meetings center ray ↔
      (ray.dot ray * factor - ray.dot center) ^ 2 = meetingDiscriminant center ray := by
  rw [mem_meetings_iff, meetingDiscriminant]
  constructor
  · intro root
    linear_combination ray.dot ray * root
  · intro square
    refine mul_left_cancel₀ forward.ne' ?_
    linear_combination square

/-- A ray that meets the sphere has a discriminant that is not negative. -/
theorem meetingDiscriminant_nonneg {ray : Vec3 ℝ} (forward : 0 < ray.dot ray)
    (meets : (meetings center ray).Nonempty) : 0 ≤ meetingDiscriminant center ray := by
  obtain ⟨factor, member⟩ := meets
  rw [← (mem_meetings_iff_sq forward).mp member]
  exact sq_nonneg _

/-- Where the discriminant is not negative, the root with the positive square root is the
greatest meeting. -/
theorem isGreatest_farMeeting {ray : Vec3 ℝ} (forward : 0 < ray.dot ray)
    (nonneg : 0 ≤ meetingDiscriminant center ray) :
    IsGreatest (meetings center ray) (farMeeting center ray) := by
  constructor
  · rw [mem_meetings_iff_sq forward, farMeeting, mul_div_cancel₀ _ forward.ne', add_sub_cancel_left,
      Real.sq_sqrt nonneg]
  · intro factor member
    have square := (mem_meetings_iff_sq forward).mp member
    have bounded : ray.dot ray * factor - ray.dot center ≤ √(meetingDiscriminant center ray) :=
      Real.le_sqrt_of_sq_le square.le
    rw [farMeeting, le_div_iff₀ forward, mul_comm]
    exact sub_le_iff_le_add'.mp bounded

/-! ## The exit -/

/-- A ray leaves the sphere at its greatest meeting. -/
theorem rayExit?_eq_some_iff :
    rayExit? projection center pointer = some point ↔
      ∃ factor, IsGreatest (meetings center (rayThrough projection pointer)) factor ∧
        (rayThrough projection pointer).scale factor = point := by
  have forward := rayThrough_dot_pos projection pointer
  rw [rayExit?_eq]
  split
  next negative =>
    refine iff_of_false nofun ?_
    rintro ⟨factor, greatest, -⟩
    exact negative.not_ge (meetingDiscriminant_nonneg forward ⟨factor, greatest.1⟩)
  next nonneg =>
    have greatest := isGreatest_farMeeting forward (not_lt.mp nonneg)
    rw [Option.some_inj]
    constructor
    · intro same
      exact ⟨_, greatest, same⟩
    · rintro ⟨factor, other, same⟩
      rwa [other.unique greatest] at same

theorem exists_rayExit?_iff :
    (∃ point, rayExit? projection center pointer = some point) ↔
      (meetings center (rayThrough projection pointer)).Nonempty := by
  constructor
  · rintro ⟨point, found⟩
    obtain ⟨factor, greatest, -⟩ := rayExit?_eq_some_iff.mp found
    exact ⟨factor, greatest.1⟩
  · intro meets
    have forward := rayThrough_dot_pos projection pointer
    have greatest := isGreatest_farMeeting forward (meetingDiscriminant_nonneg forward meets)
    exact ⟨_, rayExit?_eq_some_iff.mpr ⟨_, greatest, rfl⟩⟩

/-- A ray leaves the sphere at a point of the sphere. -/
theorem dot_sub_of_rayExit? (found : rayExit? projection center pointer = some point) :
    (point.sub center).dot (point.sub center) = 1 := by
  obtain ⟨factor, greatest, rfl⟩ := rayExit?_eq_some_iff.mp found
  exact greatest.1

/-- The ray through the pointer leaves a sphere if and only if some multiple of it lies on the
sphere, and then at the greatest multiple that does.  No multiple is found by dividing by
zero. -/
theorem ray_leaves_at_greatest_meeting (horizontal : projection.row₀.x ≠ 0)
    (vertical : projection.row₁.y ≠ 0) (center : Vec3 ℝ) (pointer : Vec2 ℝ) :
    let ray : Vec3 ℝ := ⟨pointer.x / projection.row₀.x, pointer.y / projection.row₁.y, -1⟩
    (projection.row₀.x * ray.x = pointer.x ∧ projection.row₁.y * ray.y = pointer.y) ∧
      2 * ray.dot ray ≠ 0 ∧
      ((∃ point, rayExit? projection center pointer = some point) ↔
        (meetings center ray).Nonempty) ∧
      ∀ point, rayExit? projection center pointer = some point ↔
        ∃ factor, IsGreatest (meetings center ray) factor ∧ ray.scale factor = point := by
  intro ray
  refine ⟨⟨?_, ?_⟩, ?_, exists_rayExit?_iff, fun _ => rayExit?_eq_some_iff⟩
  · exact mul_div_cancel₀ pointer.x horizontal
  · exact mul_div_cancel₀ pointer.y vertical
  · exact mul_ne_zero two_ne_zero (rayThrough_dot_pos projection pointer).ne'

/-- A ray that touches a sphere, and a sphere about the camera, which a ray meets in front of
the camera and behind it. -/
theorem ray_leaves_at_greatest_meeting_touching :
    ((Matrix4.identity : Matrix4 ℝ).row₀.x ≠ 0 ∧ (Matrix4.identity : Matrix4 ℝ).row₁.y ≠ 0) ∧
      rayExit? .identity ⟨1, 0, -3⟩ ⟨0, 0⟩ = some (⟨0, 0, -3⟩ : Vec3 ℝ) ∧
      rayExit? .identity ⟨0, 0, 0⟩ ⟨3 / 4, 0⟩ = some (⟨3 / 5, 0, -4 / 5⟩ : Vec3 ℝ) := by
  have horizontal : (Matrix4.identity : Matrix4 ℝ).row₀.x ≠ 0 := one_ne_zero
  have vertical : (Matrix4.identity : Matrix4 ℝ).row₁.y ≠ 0 := one_ne_zero
  refine ⟨⟨horizontal, vertical⟩, ?_, ?_⟩
  · obtain ⟨-, -, -, exits⟩ :=
      ray_leaves_at_greatest_meeting horizontal vertical ⟨1, 0, -3⟩ ⟨0, 0⟩
    refine (exits _).mpr ⟨3, ⟨?_, fun factor member => ?_⟩, ?_⟩
    · norm_num [mem_meetings_iff, Matrix4.identity, Vec3.dot]
    · rw [mem_meetings_iff] at member
      norm_num [Matrix4.identity, Vec3.dot] at member
      nlinarith
    · norm_num [Matrix4.identity, Vec3.scale]
  · obtain ⟨-, -, -, exits⟩ :=
      ray_leaves_at_greatest_meeting horizontal vertical ⟨0, 0, 0⟩ ⟨3 / 4, 0⟩
    refine (exits _).mpr ⟨4 / 5, ⟨?_, fun factor member => ?_⟩, ?_⟩
    · norm_num [mem_meetings_iff, Matrix4.identity, Vec3.dot]
    · rw [mem_meetings_iff] at member
      norm_num [Matrix4.identity, Vec3.dot] at member
      nlinarith
    · norm_num [Matrix4.identity, Vec3.scale]

end Stereograph
