import Stereograph.Proofs.Scene.Dragging
import Stereograph.Proofs.Scene.Zooming
import Stereograph.Proofs.Sphere.Growth

/-!
# How far the wheel stretches a sphere

A zoom raises the energy of what a sphere shows by little more than the gain of its scale.
The gains of all steps of the wheel since the sphere was last reset, multiplied together,
bound the energy after every history.  Neither turning the sphere between the steps nor the
number of the steps matters.
-/

namespace Stereograph

namespace Navigation

variable {model : Matrix4 ℝ} {navigation next : Navigation ℝ} {scale : ℝ}

/-- The poles of a turned sphere are as far apart as the growth exponent asks for. -/
theorem InStep.one_le_dist_poles (inStep : InStep model navigation) :
    1 ≤ Mobius.growthExponent * navigation.nearPole.dist navigation.farPole ^ 2 := by
  obtain ⟨direction, unit, nearEq, farEq⟩ := inStep.exists_poles_eq
  have far := Coordinate.le_sq_chordalDistance_opposite unit
  rw [Coordinate.chordalDistance,
    Coordinate.normalized_of_norm_eq_one (Coordinate.norm_ofDirection _),
    Coordinate.normalized_of_norm_eq_one (Coordinate.norm_ofDirection _), ← nearEq, ← farEq]
    at far
  have radius : 20 / 21 ≤ 1 - (Coordinate.southPoleRadius : ℝ) ^ 2 / 4 := by
    norm_num [Coordinate.southPoleRadius]
  rw [Mobius.growthExponent]
  linarith

theorem energy_zoom_le (inStep : InStep model navigation)
    (unimodular : navigation.mobius.IsUnimodular) (zoomed : navigation.zoom scale = .ok next) :
    energy next.mobius.toMatrix ≤
      gain scale ^ Mobius.growthExponent * energy navigation.mobius.toMatrix := by
  obtain ⟨increment, defined, rfl⟩ := zoom_eq_ok_iff.mp zoomed
  obtain ⟨positive, -, increment_eq⟩ := Mobius.zoom_eq_ok_iff.mp defined
  obtain ⟨direction, -, nearEq, farEq⟩ := inStep.exists_poles_eq
  have nearUnit : navigation.nearPole.norm = 1 := nearEq ▸ Coordinate.norm_ofDirection _
  have farUnit : navigation.farPole.norm = 1 := farEq ▸ Coordinate.norm_ofDirection _
  rw [Coordinate.normalized_of_norm_eq_one nearUnit, Coordinate.normalized_of_norm_eq_one farUnit]
    at increment_eq
  have square := (ComplexNumber.real scale).toComplex_sqrt_mul_self
  rw [ComplexNumber.toComplex_real] at square
  rw [Mobius.toMatrix_normalized (determinant_compose_zoom_ne_zero unimodular defined),
    determinant_compose_zoom unimodular defined,
    unimodular.isComplex.toMatrix_compose (Mobius.isComplex_of_zoom defined),
    ← increment_eq, Mobius.toMatrix_ofBlocks, ← Matrix.mul_smul]
  exact Mobius.energy_mul_rescaled_zoomBlocks_le square positive nearUnit farUnit
    inStep.one_le_dist_poles _

theorem energy_start (model : Matrix4 ℝ) : energy (start model).mobius.toMatrix = 2 := by
  change energy (Mobius.identity : Mobius ℝ).toMatrix = 2
  rw [Mobius.toMatrix_identity]
  norm_num [energy]

end Navigation

/-! ## Histories -/

namespace Gesture

/-- How far the wheel has stretched a sphere at most, given what it was before a gesture. -/
noncomputable def stretch (setup : SceneSetup ℝ) (globe : Globe) (before : ℝ) : Gesture ℝ → ℝ
  | .wheel _ delta => before * gain (setup.wheelScale delta)
  | .reset other => if other = globe then 1 else before
  | .resetBoth => 1
  | .reshape _ | .press _ | .release | .move _ | .restore _ => before

/-- How far the wheel has stretched a sphere at most since it was last reset. -/
noncomputable def totalStretch (setup : SceneSetup ℝ) (globe : Globe)
    (gestures : List (Gesture ℝ)) : ℝ :=
  gestures.foldl (stretch setup globe) 1

theorem one_le_stretch (setup : SceneSetup ℝ) (globe : Globe) {before : ℝ} (one_le : 1 ≤ before)
    (gesture : Gesture ℝ) : 1 ≤ gesture.stretch setup globe before := by
  cases gesture with
  | wheel position delta =>
      exact one_le_mul_of_one_le_of_one_le one_le (one_le_gain _)
  | reset other =>
      rw [stretch]
      split
      · exact le_rfl
      · exact one_le
  | resetBoth => exact le_rfl
  | _ => exact one_le

end Gesture

namespace Scene

variable {setup : SceneSetup ℝ} {globe : Globe} {total : ℝ} {scene : Scene ℝ}

/-- A reachable scene of a setup in which a sphere has no more energy than a stretch gives
it. -/
structure Stretched (setup : SceneSetup ℝ) (globe : Globe) (total : ℝ) (scene : Scene ℝ) :
    Prop where
  setup_eq : scene.setup = setup
  reachable : scene.Reachable
  one_le : 1 ≤ total
  energy_le : energy (scene.navigation globe).mobius.toMatrix ≤
    2 * total ^ Mobius.growthExponent

theorem Stretched.start (setup : SceneSetup ℝ) (globe : Globe) :
    Stretched setup globe 1 (start setup) where
  setup_eq := rfl
  reachable := .start setup
  one_le := le_rfl
  energy_le := by
    rw [Real.one_rpow, mul_one]
    cases globe <;> exact (Navigation.energy_start _).le

/-- A step of the wheel raises the energy of each sphere by little more than its gain. -/
theorem energy_perform_wheel_le (reachable : scene.Reachable) (globe : Globe) (position : Vec2 ℝ)
    (delta : ℝ) :
    energy ((scene.perform (.wheel position delta)).navigation globe).mobius.toMatrix ≤
      gain (scene.setup.wheelScale delta) ^ Mobius.growthExponent *
        energy (scene.navigation globe).mobius.toMatrix := by
  have growth : 1 ≤ gain (scene.setup.wheelScale delta) ^ Mobius.growthExponent :=
    Real.one_le_rpow (one_le_gain _) (by norm_num [Mobius.growthExponent])
  have kept : energy (scene.navigation globe).mobius.toMatrix ≤
      gain (scene.setup.wheelScale delta) ^ Mobius.growthExponent *
        energy (scene.navigation globe).mobius.toMatrix :=
    le_mul_of_one_le_left (energy_nonneg _) growth
  have same := congrFun (scene.navigation_pointTo position) globe
  obtain ⟨outcome, after, turned, wheels⟩ := scene.exists_wheels position delta
  rw [perform, turned]
  cases wheels with
  | missed outside =>
      rw [same]
      exact kept
  | neutral inside one =>
      rw [same]
      exact kept
  | refused inside notOne refusal =>
      rw [same]
      exact kept
  | @updated picked next inside notOne zoomed =>
      by_cases hit : globe = picked
      · subst hit
        obtain ⟨model, inStep⟩ := reachable.exists_inStep globe
        rw [same] at zoomed
        rw [navigation_withNavigation]
        exact Navigation.energy_zoom_le inStep (reachable.isUnimodular globe) zoomed
      · rw [navigation_withNavigation_of_ne _ hit, same]
        exact kept

/-- A movement of the pointer keeps what the spheres show. -/
theorem mobius_perform_move (scene : Scene ℝ) (position : Vec2 ℝ) (globe : Globe) :
    ((scene.perform (.move position)).navigation globe).mobius =
      (scene.navigation globe).mobius := by
  have touches := (scene.touches_movePointer position).1
  rw [perform]
  cases outcome : (scene.movePointer position).1 with
  | missed =>
      rw [outcome] at touches
      rw [show (scene.movePointer position).2.navigation = scene.navigation from touches]
  | unchanged held =>
      rw [outcome] at touches
      rw [show (scene.movePointer position).2.navigation = scene.navigation from touches]
  | updated held =>
      rw [outcome] at touches
      by_cases same : globe = held
      · subst same
        rw [touches.changed]
      · rw [touches.kept globe same]

theorem Stretched.perform (stretched : Stretched setup globe total scene) {gesture : Gesture ℝ}
    (live : ∀ snapshot, gesture ≠ .restore snapshot) :
    Stretched setup globe (gesture.stretch setup globe total) (scene.perform gesture) where
  setup_eq := (scene.setup_perform gesture).trans stretched.setup_eq
  reachable := stretched.reachable.perform live
  one_le := gesture.one_le_stretch setup globe stretched.one_le
  energy_le := by
    have touches := scene.touches_perform gesture
    have fresh : (2 : ℝ) ≤ 2 * 1 ^ Mobius.growthExponent := by
      rw [Real.one_rpow, mul_one]
    cases gesture with
    | reshape aspect =>
        rw [touches]
        exact stretched.energy_le
    | press position =>
        rw [touches]
        exact stretched.energy_le
    | release =>
        rw [touches]
        exact stretched.energy_le
    | move position =>
        rw [mobius_perform_move]
        exact stretched.energy_le
    | wheel position delta =>
        have growth := energy_perform_wheel_le stretched.reachable globe position delta
        rw [stretched.setup_eq] at growth
        have gain_nonneg : 0 ≤ gain (setup.wheelScale delta) :=
          zero_le_one.trans (one_le_gain _)
        calc
          energy ((scene.perform (.wheel position delta)).navigation globe).mobius.toMatrix ≤
              gain (setup.wheelScale delta) ^ Mobius.growthExponent *
                energy (scene.navigation globe).mobius.toMatrix := growth
          _ ≤ gain (setup.wheelScale delta) ^ Mobius.growthExponent *
                (2 * total ^ Mobius.growthExponent) :=
            mul_le_mul_of_nonneg_left stretched.energy_le (Real.rpow_nonneg gain_nonneg _)
          _ = 2 * (total * gain (setup.wheelScale delta)) ^ Mobius.growthExponent := by
            rw [Real.mul_rpow (zero_le_one.trans stretched.one_le) gain_nonneg]
            ring
    | reset other =>
        rw [Gesture.stretch]
        split
        next same =>
          subst same
          rw [touches.changed, Navigation.energy_start]
          exact fresh
        next different =>
          rw [touches.kept globe (Ne.symm different)]
          exact stretched.energy_le
    | resetBoth =>
        rw [touches globe, Navigation.energy_start]
        exact fresh
    | restore snapshot => exact absurd rfl (live snapshot)

/-- After every history that takes nothing over, the stretch since the last reset bounds the
energy of what a sphere shows. -/
theorem Stretched.replay (setup : SceneSetup ℝ) (globe : Globe) {gestures : List (Gesture ℝ)}
    (live : ∀ snapshot, .restore snapshot ∉ gestures) :
    Stretched setup globe (Gesture.totalStretch setup globe gestures)
      ((Scene.start setup).replay gestures) := by
  induction gestures using List.reverseRecOn with
  | nil => exact Stretched.start setup globe
  | append_singleton gestures gesture hypothesis =>
      have before := hypothesis fun snapshot member =>
        live snapshot (List.mem_append_left [gesture] member)
      rw [replay_concat, Gesture.totalStretch, List.foldl_append]
      apply before.perform
      rintro snapshot rfl
      exact live snapshot (List.mem_append_right gestures List.mem_cons_self)

end Scene

end Stereograph
