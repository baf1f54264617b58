import Stereograph.Proofs.Scene.Turning
import Stereograph.Proofs.Sphere.Mobius

/-!
# Zooming a sphere

What the surface of a sphere shows is a transform in block form, rescaled to determinant
one after every zoom.  Each zoom is about the point that faces the camera and the point
opposite to it.  They are far apart however the sphere is turned, so every positive scale
zooms, and neither of the two directions shows another number afterwards.
-/

namespace Stereograph

namespace Navigation

variable {navigation next : Navigation ℝ} {scale : ℝ}

/-! ## The transform of the surface -/

section Step

variable {increment : Mobius ℝ} (unimodular : navigation.mobius.IsUnimodular)
  (defined : Mobius.zoom navigation.nearPole navigation.farPole scale = .ok increment)

include unimodular defined

/-- Composing with a zoom gives the determinant the value of its scale. -/
theorem determinant_compose_zoom :
    (navigation.mobius.compose increment).determinant = .real scale := by
  apply ComplexNumber.toComplex_injective
  rw [unimodular.isComplex.determinant_compose (Mobius.isComplex_of_zoom defined),
    unimodular.determinant_eq, Mobius.determinant_of_zoom defined,
    ComplexNumber.toComplex_mul, ComplexNumber.toComplex_one, one_mul]

theorem determinant_compose_zoom_ne_zero :
    (navigation.mobius.compose increment).determinant ≠ .zero := by
  rw [determinant_compose_zoom unimodular defined, ← ComplexNumber.toComplex_eq_zero_iff.ne,
    ComplexNumber.toComplex_real]
  exact Complex.ofReal_ne_zero.mpr (Mobius.scale_pos_of_zoom defined).ne'

/-- A point that the increment stretches is shown where it was before. -/
theorem agreeAt_compose_zoom {point : Coordinate ℝ} {factor : ℂ}
    (stretched : increment.toMatrix.mulVec point.toVector = factor • point.toVector) :
    navigation.mobius.AgreeAt (navigation.mobius.compose increment).normalized point := by
  refine ⟨(navigation.mobius.compose increment).determinant.sqrt.toComplex⁻¹ * factor, ?_⟩
  rw [Mobius.toMatrix_normalized (determinant_compose_zoom_ne_zero unimodular defined),
    unimodular.isComplex.toMatrix_compose (Mobius.isComplex_of_zoom defined),
    Matrix.smul_mulVec, ← Matrix.mulVec_mulVec, stretched, Matrix.mulVec_smul, smul_smul]

end Step

theorem isUnimodular_start (model : Matrix4 ℝ) : (start model).mobius.IsUnimodular :=
  Mobius.isUnimodular_identity

theorem isUnimodular_rotate {drag : Vec2 ℝ} (unimodular : navigation.mobius.IsUnimodular)
    (rotated : navigation.rotate? drag = some next) : next.mobius.IsUnimodular := by
  rw [rotate?_frame rotated]
  exact unimodular

theorem isUnimodular_zoom (unimodular : navigation.mobius.IsUnimodular)
    (zoomed : navigation.zoom scale = .ok next) : next.mobius.IsUnimodular := by
  obtain ⟨increment, defined, rfl⟩ := zoom_eq_ok_iff.mp zoomed
  exact Mobius.isUnimodular_normalized (determinant_compose_zoom_ne_zero unimodular defined)

/-- Every history of a sphere leaves a transform of determinant one. -/
theorem isUnimodular_replay (model : Matrix4 ℝ) (motions : List (Motion ℝ)) :
    ((start model).replay motions).mobius.IsUnimodular :=
  replay_induction (fun navigation => navigation.mobius.IsUnimodular) isUnimodular_rotate
    isUnimodular_zoom (fun _ => isUnimodular_start _) (isUnimodular_start model) motions

end Navigation

namespace Scene.Reachable

variable {scene : Scene ℝ}

/-- Every sphere of a reachable scene is in step with its turning. -/
theorem exists_inStep (reachable : scene.Reachable) (globe : Globe) :
    ∃ model, Navigation.InStep model (scene.navigation globe) := by
  obtain ⟨model, motions, history⟩ := reachable.exists_replay globe
  rw [history]
  exact ⟨model, Navigation.InStep.replay model motions⟩

theorem isUnimodular (reachable : scene.Reachable) (globe : Globe) :
    (scene.navigation globe).mobius.IsUnimodular := by
  obtain ⟨model, motions, history⟩ := reachable.exists_replay globe
  rw [history]
  exact Navigation.isUnimodular_replay model motions

end Scene.Reachable

/-- In every reachable scene the surface of each sphere shows a transform in block form
with determinant one, which has an inverse. -/
theorem Scene.Reachable.mobius_unimodular {scene : Scene ℝ} (reachable : scene.Reachable)
    (globe : Globe) :
    let transform := (scene.navigation globe).mobius
    Mobius.ofBlocks transform.blocks = transform ∧ transform.determinant = .one ∧
      ∃ inverse, transform.matrix.inverse? = some inverse ∧
        transform.matrix.multiply inverse = .identity ∧
        inverse.multiply transform.matrix = .identity := by
  intro transform
  have unimodular : transform.IsUnimodular := reachable.isUnimodular globe
  refine ⟨unimodular.isComplex, unimodular.determinant_eq, ?_⟩
  exact unimodular.isComplex.exists_inverse? unimodular.determinant_ne_zero

/-- The pointer in the middle of the canvas is over the parameter sphere. -/
theorem Scene.pick_standard_middle :
    (start (SceneSetup.standard : SceneSetup ℝ)).pick ⟨0, 0⟩ = some .parameter := by
  norm_num [pick, SceneSetup.pick, Globe.all, SceneSetup.consider, SceneSetup.placement,
    Placement.distanceSq, SceneSetup.standard, start, closer]

/-- A sphere that was zoomed in another scene and taken over from there. -/
theorem Scene.mobius_unimodular_restored :
    let zoomed := (Scene.start SceneSetup.standard).perform (.wheel ⟨0, 0⟩ (120 : ℝ))
    let scene := (Scene.start SceneSetup.standard).perform (.restore zoomed.snapshot)
    let transform := (scene.navigation .parameter).mobius
    scene.Reachable ∧ Mobius.ofBlocks transform.blocks = transform ∧
      transform.determinant = .one ∧
      ∃ inverse, transform.matrix.inverse? = some inverse ∧
        transform.matrix.multiply inverse = .identity ∧
        inverse.multiply transform.matrix = .identity := by
  intro zoomed scene transform
  have start : (Scene.start (SceneSetup.standard : SceneSetup ℝ)).Reachable := .start _
  have zoomedReachable : zoomed.Reachable := by
    apply start.perform
    intro snapshot impossible
    cases impossible
  have reachable : scene.Reachable := start.restore zoomedReachable
  exact ⟨reachable, reachable.mobius_unimodular .parameter⟩

namespace Navigation

variable {navigation next : Navigation ℝ} {scale : ℝ}

/-! ## The poles -/

/-- The poles of a turned sphere are the points under a direction and its opposite. -/
theorem InStep.exists_poles_eq {model : Matrix4 ℝ} (inStep : InStep model navigation) :
    ∃ direction : Vec3 ℝ, direction.dot direction = 1 ∧
      navigation.nearPole = .ofDirection direction ∧
      navigation.farPole = .ofDirection direction.opposite := by
  have unit : Vec3.dot ⟨0, 0, 1⟩ (⟨0, 0, 1⟩ : Vec3 ℝ) = 1 := by
    simp [Vec3.dot]
  have opposite : (⟨0, 0, -1⟩ : Vec3 ℝ) = Vec3.opposite ⟨0, 0, 1⟩ := by
    simp [Vec3.opposite]
  refine ⟨navigation.inverseRotation.transformDirection ⟨0, 0, 1⟩, ?_, rfl, ?_⟩
  · rw [inStep.inverse_isRotation.dot_transformDirection, unit]
  · rw [← Matrix4.transformDirection_opposite, ← opposite]
    rfl

/-- The poles of a turned sphere are far apart. -/
theorem InStep.half_le_chordalDistance {model : Matrix4 ℝ} (inStep : InStep model navigation) :
    1 / 2 ≤ navigation.nearPole.chordalDistance navigation.farPole := by
  obtain ⟨direction, unit, nearEq, farEq⟩ := inStep.exists_poles_eq
  rw [nearEq, farEq]
  exact Coordinate.half_le_chordalDistance_opposite unit

theorem InStep.minimumSeparation_le {model : Matrix4 ℝ} (inStep : InStep model navigation) :
    Mobius.minimumSeparation ≤ navigation.nearPole.chordalDistance navigation.farPole := by
  have small : (Mobius.minimumSeparation : ℝ) ≤ 1 / 2 := by
    norm_num [Mobius.minimumSeparation]
  exact small.trans inStep.half_le_chordalDistance

/-- Every positive scale zooms a sphere, however it is turned. -/
theorem InStep.exists_zoom_iff {model : Matrix4 ℝ} (inStep : InStep model navigation) :
    (∃ next, navigation.zoom scale = .ok next) ↔ 0 < scale := by
  constructor
  · rintro ⟨next, zoomed⟩
    obtain ⟨increment, defined, -⟩ := zoom_eq_ok_iff.mp zoomed
    exact Mobius.scale_pos_of_zoom defined
  · intro positive
    have defined := Mobius.zoom_eq_ok_iff.mpr ⟨positive, inStep.minimumSeparation_le, rfl⟩
    exact ⟨_, zoom_eq_ok_iff.mpr ⟨_, defined, rfl⟩⟩

/-! ## A sphere that was never moved -/

theorem nearPole_start (model : Matrix4 ℝ) : (start model).nearPole = .zero := by
  rw [← Coordinate.ofDirection_north]
  simp [nearPole, pullBack, start, Matrix4.identity, Matrix4.transform, Vec4.dot, Vec4.spatial]

theorem farPole_start (model : Matrix4 ℝ) : (start model).farPole = .infinity := by
  rw [← Coordinate.ofDirection_south]
  simp [farPole, pullBack, start, Matrix4.identity, Matrix4.transform, Vec4.dot, Vec4.spatial]

/-- The first zoom multiplies what the sphere shows by its scale. -/
theorem zoom_start (model : Matrix4 ℝ) (positive : 0 < scale) :
    (start model).zoom scale = .ok { start model with
      mobius := .ofBlocks ⟨.real √scale, .zero, .zero, .real (√scale)⁻¹⟩ } := by
  have increment : Mobius.zoom (start model).nearPole (start model).farPole scale =
      .ok (.ofBlocks ⟨.real scale, .zero, .zero, .one⟩) := by
    apply Mobius.zoom_eq_ok_iff.mpr ⟨positive, (InStep.start model).minimumSeparation_le, _⟩
    rw [nearPole_start, farPole_start,
      Coordinate.normalized_of_norm_eq_one Coordinate.norm_zero_point,
      Coordinate.normalized_of_norm_eq_one Coordinate.norm_infinity,
      Mobius.zoomBlocks_zero_infinity]
  have composed : (start model).mobius.compose (.ofBlocks ⟨.real scale, .zero, .zero, .one⟩) =
      .ofBlocks ⟨.real scale, .zero, .zero, .one⟩ := by
    rw [Mobius.compose]
    exact congrArg Mobius.mk (Matrix4.identity_multiply _)
  have square : √scale * √scale = scale := Real.mul_self_sqrt positive.le
  have quotient : scale * √scale / scale = √scale := mul_div_cancel_left₀ _ positive.ne'
  apply zoom_eq_ok_iff.mpr ⟨_, increment, _⟩
  rw [Mobius.normalized_eq (determinant_compose_zoom_ne_zero (isUnimodular_start model) increment),
    determinant_compose_zoom (isUnimodular_start model) increment,
    ComplexNumber.sqrt_real positive.le, composed]
  congr 2
  simp [Mobius.blocks, Mobius.ofBlocks, Blocks.realRows, Blocks.map, ComplexNumber.div,
    ComplexNumber.normSq, ComplexNumber.real, ComplexNumber.zero, ComplexNumber.one, square,
    quotient, Real.sqrt_div_self]

/-! ## Zooms after each other -/

/-- What some zooms keep of a sphere. -/
structure ZoomedFrom (navigation next : Navigation ℝ) : Prop where
  isUnimodular : next.mobius.IsUnimodular
  frame : next = { navigation with mobius := next.mobius }
  near : navigation.mobius.AgreeAt next.mobius navigation.nearPole
  far : navigation.mobius.AgreeAt next.mobius navigation.farPole

theorem ZoomedFrom.of_zoom (unimodular : navigation.mobius.IsUnimodular)
    (zoomed : navigation.zoom scale = .ok next) : ZoomedFrom navigation next := by
  obtain ⟨increment, defined, rfl⟩ := zoom_eq_ok_iff.mp zoomed
  have kept : increment.toMatrix.mulVec navigation.nearPole.toVector =
      (1 : ℂ) • navigation.nearPole.toVector := by
    rw [Mobius.mulVec_near_of_zoom defined, one_smul]
  exact
    { isUnimodular := isUnimodular_zoom unimodular zoomed
      frame := rfl
      near := agreeAt_compose_zoom unimodular defined kept
      far := agreeAt_compose_zoom unimodular defined (Mobius.mulVec_far_of_zoom defined) }

theorem ZoomedFrom.trans {middle : Navigation ℝ} (first : ZoomedFrom navigation middle)
    (second : ZoomedFrom middle next) : ZoomedFrom navigation next := by
  obtain ⟨-, middleFrame, middleNear, middleFar⟩ := first
  obtain ⟨unimodular, frame, near, far⟩ := second
  rw [middleFrame] at frame near far
  exact ⟨unimodular, frame, middleNear.trans near, middleFar.trans far⟩

theorem ZoomedFrom.of_foldlM {scales : List ℝ} (unimodular : navigation.mobius.IsUnimodular)
    (zoomed : scales.foldlM zoom navigation = .ok next) : ZoomedFrom navigation next := by
  induction scales generalizing navigation with
  | nil =>
      cases zoomed
      exact ⟨unimodular, rfl, .refl _ _, .refl _ _⟩
  | cons scale scales hypothesis =>
      rw [List.foldlM_cons] at zoomed
      cases step : navigation.zoom scale with
      | error degeneracy =>
          rw [step] at zoomed
          cases zoomed
      | ok middle =>
          rw [step] at zoomed
          have first := ZoomedFrom.of_zoom unimodular step
          exact first.trans (hypothesis first.isUnimodular zoomed)

/-- Directions whose points agree show one point. -/
theorem ZoomedFrom.shownAt_eq {direction : Vec3 ℝ} (unimodular : navigation.mobius.IsUnimodular)
    (zoomed : ZoomedFrom navigation next)
    (agree : navigation.mobius.AgreeAt next.mobius (.ofDirection direction)) :
    (navigation.shownAt direction).norm = 1 ∧ (next.shownAt direction).norm = 1 ∧
      (navigation.shownAt direction).chordalDistance (next.shownAt direction) = 0 := by
  have nonzero : (Coordinate.ofDirection direction).norm ≠ 0 := by
    rw [Coordinate.norm_ofDirection]
    exact one_ne_zero
  refine ⟨unimodular.norm_apply nonzero, zoomed.isUnimodular.norm_apply nonzero, ?_⟩
  exact agree.chordalDistance_eq_zero unimodular.isComplex zoomed.isUnimodular.isComplex

/-- A scale that is no finite number is refused over every kind of arithmetic. -/
theorem zoom_of_not_isFinite {α : Type} [Scalar α] (navigation : Navigation α) {scale : α}
    (infinite : Scalar.isFinite scale = false) :
    navigation.zoom scale = .error (.invalidScale scale) := by
  simp [zoom, Mobius.zoom, infinite]
  rfl

/-- After every history of a sphere exactly the positive finite scales zoom it, since its
poles are apart.  However often it is zoomed after that, the direction that faces the camera
and the one opposite to it show the points that they showed before. -/
theorem zoom_pivots_on_axis (model : Matrix4 ℝ) (motions : List (Motion ℝ)) :
    let navigation := (start model).replay motions
    (∀ scale : ℝ, (∃ next, navigation.zoom scale = .ok next) ↔
      Scalar.isFinite scale = true ∧ 0 < scale) ∧
    (∀ (α : Type) [Scalar α] (other : Navigation α) (scale : α),
      Scalar.isFinite scale = false → other.zoom scale = .error (.invalidScale scale)) ∧
    Mobius.minimumSeparation ≤ navigation.nearPole.chordalDistance navigation.farPole ∧
    ∀ (scales : List ℝ) (next : Navigation ℝ), scales.foldlM zoom navigation = .ok next →
      ∀ axis ∈ [(⟨0, 0, 1⟩ : Vec3 ℝ), ⟨0, 0, -1⟩],
        let before := navigation.shownAt (navigation.inverseRotation.transformDirection axis)
        let after := next.shownAt (next.inverseRotation.transformDirection axis)
        before.norm = 1 ∧ after.norm = 1 ∧ before.chordalDistance after = 0 := by
  intro navigation
  have inStep : InStep model navigation := InStep.replay model motions
  have unimodular : navigation.mobius.IsUnimodular := isUnimodular_replay model motions
  refine ⟨?_, ?_, inStep.minimumSeparation_le, ?_⟩
  · intro scale
    rw [inStep.exists_zoom_iff]
    exact (and_iff_right rfl).symm
  · intro α arithmetic other scale infinite
    exact zoom_of_not_isFinite other infinite
  · intro scales next zooms axis member
    have zoomed := ZoomedFrom.of_foldlM unimodular zooms
    have unturned : next.inverseRotation = navigation.inverseRotation := by
      rw [zoomed.frame]
    rw [unturned]
    rcases List.mem_pair.mp member with rfl | rfl
    · exact zoomed.shownAt_eq unimodular zoomed.near
    · exact zoomed.shownAt_eq unimodular zoomed.far

/-- A sphere is turned by a drag, and then zoomed by two about the point in front. -/
theorem zoom_pivots_on_axis_turned :
    let navigation : Navigation ℝ := (start .identity).replay [.rotate ⟨1, 0⟩]
    let front : Vec3 ℝ := ⟨0, 0, 1⟩
    ∃ next, [(2 : ℝ)].foldlM zoom navigation = .ok next ∧
      (navigation.shownAt (navigation.inverseRotation.transformDirection front)).chordalDistance
        (next.shownAt (next.inverseRotation.transformDirection front)) = 0 := by
  intro navigation front
  obtain ⟨positive, -, -, pivots⟩ := zoom_pivots_on_axis .identity [.rotate ⟨1, 0⟩]
  obtain ⟨next, zoomed⟩ := (positive 2).mpr ⟨rfl, two_pos⟩
  have zooms : [(2 : ℝ)].foldlM zoom navigation = .ok next := by
    rw [List.foldlM_cons, zoomed]
    rfl
  exact ⟨next, zooms, (pivots [2] next zooms front List.mem_cons_self).2.2⟩

end Navigation

end Stereograph
