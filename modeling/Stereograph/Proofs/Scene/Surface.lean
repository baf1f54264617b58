import Stereograph.Proofs.Scene.Dragging
import Stereograph.Proofs.Scene.Ray
import Stereograph.Proofs.Scene.Zooming

/-!
# What the surface of a sphere shows

The ray through the pointer leaves a sphere at a point of its surface, which stands over one
direction of the mesh however the sphere is turned.  What is shown there is the image of that
direction under the transform of the surface, and the transform is invertible, so different
directions show different points.
-/

namespace Stereograph

namespace Navigation

/-! ## Points of the surface -/

/-- The point of the turned sphere in view space that stands over a direction of the mesh. -/
noncomputable def surfacePoint (navigation : Navigation ℝ) (direction : Vec3 ℝ) : Vec3 ℝ :=
  let turned := navigation.rotation.transformDirection direction
  let center := navigation.center
  ⟨turned.x + center.x, turned.y + center.y, turned.z + center.z⟩

variable {model : Matrix4 ℝ} {navigation : Navigation ℝ} {direction point : Vec3 ℝ}

theorem surfacePoint_eq_iff_sub :
    navigation.surfacePoint direction = point ↔
      navigation.rotation.transformDirection direction = point.sub navigation.center := by
  rw [surfacePoint]
  generalize navigation.rotation.transformDirection direction = turned
  cases turned
  cases point
  simp only [Vec3.sub, Vec3.mk.injEq, eq_sub_iff_add_eq]

/-- The point over a direction is a given one if and only if the direction is the one that is
found under that point. -/
theorem InStep.surfacePoint_eq_iff (inStep : InStep model navigation) :
    navigation.surfacePoint direction = point ↔ direction = navigation.meshDirection point := by
  rw [surfacePoint_eq_iff_sub, inStep.isRotation.transformDirection_eq_iff, ← inStep.transposed,
    meshDirection]

/-- The direction under a point of the surface has length one. -/
theorem InStep.dot_meshDirection (inStep : InStep model navigation) :
    (navigation.meshDirection point).dot (navigation.meshDirection point) =
      (point.sub navigation.center).dot (point.sub navigation.center) :=
  inStep.inverse_isRotation.dot_transformDirection _ _

/-! ## What is shown over a direction -/

theorem norm_shownAt (unimodular : navigation.mobius.IsUnimodular) (direction : Vec3 ℝ) :
    (navigation.shownAt direction).norm = 1 := by
  apply unimodular.norm_apply
  rw [Coordinate.norm_ofDirection]
  exact one_ne_zero

/-- Different directions away from the south pole show different points. -/
theorem chordalDistance_shownAt_ne_zero (unimodular : navigation.mobius.IsUnimodular)
    {first second : Vec3 ℝ} (firstUnit : first.dot first = 1)
    (secondUnit : second.dot second = 1) (firstAway : ¬ Coordinate.NearSouth first)
    (secondAway : ¬ Coordinate.NearSouth second) (different : first ≠ second) :
    (navigation.shownAt first).chordalDistance (navigation.shownAt second) ≠ 0 := by
  rw [shownAt, shownAt, unimodular.chordalDistance_apply_eq_zero_iff.ne,
    Coordinate.chordalDistance_ofDirection firstUnit secondUnit firstAway secondAway]
  have apart : (first.sub second).length ≠ 0 := by
    rw [Vec3.length_sub_eq_zero_iff.ne]
    exact different
  exact div_ne_zero apart two_ne_zero

end Navigation

namespace Scene

variable {scene : Scene ℝ}

/-- What a pointer finds on a sphere is shown over the direction that stands under the point
where the ray leaves the sphere. -/
theorem numberUnder?_eq_some_iff {position : Vec2 ℝ} {globe : Globe} {shown : Coordinate ℝ} :
    scene.numberUnder? position globe = some shown ↔
      ∃ point, scene.pointUnder? position globe = some point ∧
        (scene.navigation globe).shownAt ((scene.navigation globe).meshDirection point) = shown :=
  Option.map_eq_some_iff

/-- In every reachable scene, what a sphere shows under the pointer is a point of the Riemann
sphere, and it is the one that is shown over the only direction of the mesh that stands under
the point where the ray leaves the sphere.  Different directions that are not taken for the
south pole show different points. -/
theorem Reachable.surface_shows_points (reachable : scene.Reachable) (globe : Globe) :
    let navigation := scene.navigation globe
    (∀ (position : Vec2 ℝ) (shown : Coordinate ℝ),
      scene.numberUnder? position globe = some shown →
        shown.norm = 1 ∧
          ∃ point direction, scene.pointUnder? position globe = some point ∧
            direction.dot direction = 1 ∧
            (∀ other, navigation.surfacePoint other = point ↔ other = direction) ∧
            shown = navigation.shownAt direction) ∧
      ∀ first second : Vec3 ℝ, first.dot first = 1 → second.dot second = 1 →
        Coordinate.southPoleRadius ≤ (first.sub ⟨0, 0, -1⟩).length →
        Coordinate.southPoleRadius ≤ (second.sub ⟨0, 0, -1⟩).length → first ≠ second →
          (navigation.shownAt first).norm = 1 ∧ (navigation.shownAt second).norm = 1 ∧
            (navigation.shownAt first).chordalDistance (navigation.shownAt second) ≠ 0 := by
  intro navigation
  obtain ⟨model, inStep⟩ := reachable.exists_inStep globe
  have unimodular : navigation.mobius.IsUnimodular := reachable.isUnimodular globe
  constructor
  · intro position shown found
    obtain ⟨point, pointFound, rfl⟩ := numberUnder?_eq_some_iff.mp found
    refine ⟨Navigation.norm_shownAt unimodular _, point, _, pointFound, ?_, ?_, rfl⟩
    · rw [inStep.dot_meshDirection, dot_sub_of_rayExit? pointFound]
    · intro other
      exact inStep.surfacePoint_eq_iff
  · intro first second firstUnit secondUnit firstAway secondAway different
    refine ⟨Navigation.norm_shownAt unimodular _, Navigation.norm_shownAt unimodular _, ?_⟩
    exact Navigation.chordalDistance_shownAt_ne_zero unimodular firstUnit secondUnit
      (not_lt.mpr firstAway) (not_lt.mpr secondAway) different

/-- A drag that starts over a sphere and is not too short turns it, and a step of the wheel over
the same position zooms the turned sphere. -/
theorem Reachable.exists_turned_and_zoomed (reachable : scene.Reachable)
    {first : Vec2 ℝ} {globe : Globe} (inside : scene.pick first = some globe) (last : Vec2 ℝ)
    (delta : ℝ) (long : 1e-12 ≤ √((last.x - first.x) ^ 2 + (last.y - first.y) ^ 2))
    (positive : 0 < scene.setup.wheelScale delta) (notOne : scene.setup.wheelScale delta ≠ 1) :
    let after := scene.replay [.press first, .move last, .release, .wheel first delta]
    ∃ turned,
      (scene.navigation globe).rotate? ⟨last.x - first.x, last.y - first.y⟩ = some turned ∧
        turned.zoom (scene.setup.wheelScale delta) = .ok (after.navigation globe) := by
  intro after
  obtain ⟨model, inStep⟩ := reachable.exists_inStep globe
  have directed : (scene.navigation globe).rotate? ⟨last.x - first.x, last.y - first.y⟩ ≠ none := by
    rw [Ne, inStep.rotate?_eq_none_iff]
    exact not_lt.mpr long
  obtain ⟨turned, rotated⟩ := Option.ne_none_iff_exists'.mp directed
  obtain ⟨next, zoomed⟩ := (inStep.rotate rotated).exists_zoom_iff.mpr positive
  refine ⟨turned, rotated, zoomed.trans (congrArg _ ?_)⟩
  let dragged := scene.replay [.press first, .move last, .release]
  have camera : SameCamera scene dragged := scene.sameCamera_replay (by simp)
  have turnedEq : dragged.navigation globe = turned := by
    rw [scene.navigation_replay_drag inside, Navigation.perform, rotated, Option.getD_some]
  rw [← turnedEq, ← camera.setup_eq] at zoomed
  have changes : (dragged.setup.wheelScale delta == 1) = false := by
    rw [camera.setup_eq, beq_real, decide_eq_false notOne]
  exact (navigation_perform_wheel ((camera.pick_eq first).trans inside) changes zoomed).symm

/-- Through the middle of the canvas the pointer sees the far side of a sphere in front of it. -/
theorem pointUnder?_start :
    (start (SceneSetup.standard : SceneSetup ℝ)).pointUnder? ⟨0, 0⟩ .parameter =
      some ⟨0, 0, -4⟩ := by
  have center : ((start (SceneSetup.standard : SceneSetup ℝ)).navigation .parameter).center =
      ⟨0, 0, -3⟩ := by
    norm_num [start, navigation, Navigation.start, Navigation.center, SceneSetup.standard,
      Placement.model, Matrix4.translation, Matrix4.transform, Vec4.dot, Vec4.spatial]
  have root : √(4 : ℝ) = 2 := (Real.sqrt_eq_iff_mul_self_eq_of_pos two_pos).mpr (by norm_num)
  rw [pointUnder?, center]
  norm_num [rayExit?, rayThrough, Vec3.dot, Vec3.scale, Scalar.sqrt, root]

/-- A sphere that was dragged and then zoomed by the wheel, with the pointer in the middle of the
canvas and two directions of the mesh. -/
theorem surface_shows_points_dragged :
    let fresh : Scene ℝ := start .standard
    let scene := fresh.replay [.press ⟨0, 0⟩, .move ⟨1, 0⟩, .release, .wheel ⟨0, 0⟩ 1000]
    let navigation := scene.navigation .parameter
    scene.Reachable ∧
      (∃ turned, (fresh.navigation .parameter).rotate? ⟨1, 0⟩ = some turned ∧
        turned.zoom 2 = .ok navigation) ∧
      (∃ shown direction, scene.numberUnder? ⟨0, 0⟩ .parameter = some shown ∧ shown.norm = 1 ∧
        navigation.surfacePoint direction = ⟨0, 0, -4⟩ ∧ shown = navigation.shownAt direction) ∧
      (navigation.shownAt ⟨0, 0, 1⟩).chordalDistance (navigation.shownAt ⟨1, 0, 0⟩) ≠ 0 := by
  intro fresh scene navigation
  have reachable : scene.Reachable := (Reachable.start _).replay (by simp)
  obtain ⟨shownUnder, apart⟩ := reachable.surface_shows_points .parameter
  refine ⟨reachable, ?_, ?_, ?_⟩
  · have scale : fresh.setup.wheelScale 1000 = 2 := by
      norm_num [fresh, start, SceneSetup.wheelScale, SceneSetup.standard, Scalar.maximum]
    have long : (1e-12 : ℝ) ≤ √((1 - 0) ^ 2 + (0 - 0) ^ 2) := by norm_num
    have changed := (Reachable.start .standard).exists_turned_and_zoomed pick_standard_middle
      ⟨1, 0⟩ 1000 long (scale ▸ two_pos) (scale ▸ OfNat.ofNat_ne_one 2)
    rw [scale, sub_zero, sub_zero] at changed
    exact changed
  · have found : scene.pointUnder? ⟨0, 0⟩ .parameter = some ⟨0, 0, -4⟩ :=
      (fresh.pointUnder?_replay (by simp) (by simp) ⟨0, 0⟩ .parameter).trans pointUnder?_start
    have shown := numberUnder?_eq_some_iff.mpr ⟨_, found, rfl⟩
    obtain ⟨unit, point, direction, pointFound, -, stands, shownEq⟩ := shownUnder _ _ shown
    cases found.symm.trans pointFound
    exact ⟨_, direction, shown, unit, (stands direction).mpr rfl, shownEq⟩
  · have northAway : ¬ Coordinate.NearSouth (⟨0, 0, 1⟩ : Vec3 ℝ) := by
      rw [Coordinate.nearSouth_iff_height (by norm_num [Vec3.dot])]
      norm_num [Coordinate.southPoleRadius]
    have equatorAway : ¬ Coordinate.NearSouth (⟨1, 0, 0⟩ : Vec3 ℝ) := by
      rw [Coordinate.nearSouth_iff_height (by norm_num [Vec3.dot])]
      norm_num [Coordinate.southPoleRadius]
    exact (apart ⟨0, 0, 1⟩ ⟨1, 0, 0⟩ (by norm_num [Vec3.dot]) (by norm_num [Vec3.dot])
      (not_lt.mp northAway) (not_lt.mp equatorAway) (by norm_num)).2.2

end Scene

end Stereograph
