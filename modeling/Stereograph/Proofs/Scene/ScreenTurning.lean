import Stereograph.Proofs.Scene.Turning
import Stereograph.Proofs.Sphere.Conjugation

/-!
# Turning about an axis of the screen

The axis of a drag is taken to the frame of the mesh, and the sphere is turned there before its
old turning.  That is the same as a turning about the axis in the frame of the screen after the
old turning.  So a drag does the same on the screen whatever turned the sphere before it.
-/

namespace Stereograph.Navigation

/-! ## One drag -/

/-- The axis that a drag turns about, in the frame of the screen. -/
def screenAxis (drag : Vec2 ℝ) : Vec3 ℝ :=
  ⟨-drag.y, drag.x, 0⟩

theorem length_screenAxis (drag : Vec2 ℝ) :
    (screenAxis drag).length = √(drag.x ^ 2 + drag.y ^ 2) := by
  rw [screenAxis, Vec3.length, Vec3.dot]
  congr 1
  ring

namespace InStep

variable {model : Matrix4 ℝ} {navigation : Navigation ℝ} {drag : Vec2 ℝ}

/-- A sphere with a rotation and its inverse is in step. -/
theorem of_multiply_eq_identity (isRotation : navigation.rotation.IsRotation)
    (isInverse : navigation.rotation.multiply navigation.inverseRotation = .identity) :
    InStep navigation.model navigation where
  inPlace := rfl
  isRotation := isRotation
  transposed := by
    have found := Matrix4.inverse?_eq_some_iff.mpr isInverse
    rw [isRotation.inverse?_eq] at found
    exact (Option.some.inj found).symm

/-- The axis in the frame of the mesh is the one of the screen before the turning. -/
theorem transformDirection_dragAxis (inStep : InStep model navigation) :
    navigation.rotation.transformDirection (navigation.dragAxis drag) = screenAxis drag := by
  rw [dragAxis, inStep.transposed]
  exact inStep.isRotation.transformDirection_transpose (screenAxis drag)

/-- A drag turns about the axis of the screen, after the turning so far. -/
theorem rotate?_eq_screen (inStep : InStep model navigation) (drag : Vec2 ℝ) :
    navigation.rotate? drag =
      (Matrix4.rotation? (√(drag.x ^ 2 + drag.y ^ 2)) (screenAxis drag)).map fun turning =>
        { navigation with
          rotation := turning.multiply navigation.rotation
          inverseRotation := (turning.multiply navigation.rotation).transpose } := by
  let turnedTo (turned : Matrix4 ℝ) : Navigation ℝ :=
    { navigation with rotation := turned, inverseRotation := turned.transpose }
  calc navigation.rotate? drag
      = ((Matrix4.rotation? (√(drag.x ^ 2 + drag.y ^ 2)) (navigation.dragAxis drag)).map
          (navigation.rotation.multiply ·)).map turnedTo := by
        rw [inStep.rotate?_eq, inStep.length_dragAxis, Option.map_map]
        rfl
    _ = ((Matrix4.rotation? (√(drag.x ^ 2 + drag.y ^ 2)) (screenAxis drag)).map
          (·.multiply navigation.rotation)).map turnedTo := by
        rw [inStep.isRotation.map_multiply_rotation?, inStep.transformDirection_dragAxis]
    _ = _ := by
        rw [Option.map_map]
        rfl

end InStep

/-- A drag that is not too short turns a sphere about the axis of the screen at a right angle to
it, by the length of the drag, after everything that turned the sphere before.  Of the old turning
it is asked that it is orthonormal with determinant one on the components in space, that it keeps
the fourth component, and that it stands beside its inverse.  The new turning moves what is shown
of a direction of the mesh by the formula of Rodrigues: it keeps the part along the axis and turns
the part across it. -/
theorem drag_turns_about_screen_axis {navigation : Navigation ℝ} {drag : Vec2 ℝ}
    (isRotation : navigation.rotation.IsRotation)
    (isInverse : navigation.rotation.multiply navigation.inverseRotation = .identity)
    (long : 1e-12 ≤ √(drag.x ^ 2 + drag.y ^ 2)) :
    let angle := √(drag.x ^ 2 + drag.y ^ 2)
    let axis : Vec3 ℝ := ⟨-drag.y, drag.x, 0⟩
    ∃ turning next, Matrix4.rotation? angle axis = some turning ∧
      navigation.rotate? drag = some next ∧
      next.rotation = turning.multiply navigation.rotation ∧
      next.rotation.multiply next.inverseRotation = .identity ∧
      ∀ direction : Vec3 ℝ,
        let unit := (axis.shrink angle).entries
        let shown := (navigation.rotation.transformDirection direction).entries
        (next.rotation.transformDirection direction).entries =
          Real.cos angle • shown + Real.sin angle • crossProduct unit shown +
            ((1 - Real.cos angle) * (unit ⬝ᵥ shown)) • unit := by
  intro angle axis
  have length : axis.length = angle := length_screenAxis drag
  have rotated := (InStep.of_multiply_eq_identity isRotation isInverse).rotate?_eq_screen drag
  cases defined : Matrix4.rotation? angle axis with
  | none =>
      have short := Matrix4.rotation?_eq_none_iff.mp defined
      rw [length] at short
      exact absurd short (not_lt.mpr long)
  | some turning =>
      have turns := Matrix4.isRotation_of_rotation? defined
      refine ⟨turning, _, rfl, rotated.trans (congrArg _ defined), rfl,
        (turns.multiply isRotation).multiply_transpose, ?_⟩
      intro direction
      rw [turns.transformDirection_multiply isRotation,
        Matrix4.entries_transformDirection_of_rotation? defined, length]

/-- A drag of length five over a sphere that was turned before. -/
theorem drag_turns_about_screen_axis_turned :
    let navigation : Navigation ℝ := (start .identity).replay [.rotate ⟨1, 0⟩]
    (navigation.rotation.IsRotation ∧
        navigation.rotation.multiply navigation.inverseRotation = .identity ∧
        (1e-12 : ℝ) ≤ √(3 ^ 2 + 4 ^ 2)) ∧
      ∃ turning next, Matrix4.rotation? 5 ⟨-4, 3, 0⟩ = some turning ∧
        navigation.rotate? ⟨3, 4⟩ = some next ∧
        next.rotation = turning.multiply navigation.rotation := by
  intro navigation
  have inStep : InStep .identity navigation := InStep.replay .identity [.rotate ⟨1, 0⟩]
  have isInverse : navigation.rotation.multiply navigation.inverseRotation = .identity := by
    rw [inStep.transposed]
    exact inStep.isRotation.multiply_transpose
  have length : √((3 : ℝ) ^ 2 + 4 ^ 2) = 5 := by
    rw [Real.sqrt_eq_iff_mul_self_eq (by norm_num) (by norm_num)]
    norm_num
  have long : (1e-12 : ℝ) ≤ √(3 ^ 2 + 4 ^ 2) := by
    rw [length]
    norm_num
  obtain ⟨turning, next, defined, rotated, turned, -⟩ :=
    @drag_turns_about_screen_axis navigation ⟨3, 4⟩ inStep.isRotation isInverse long
  rw [length] at defined
  exact ⟨⟨inStep.isRotation, isInverse, long⟩, turning, next, defined, rotated, turned⟩

/-! ## Histories -/

/-- What a motion makes of the turning, without its inverse. -/
noncomputable def screenTurned (turned : Matrix4 ℝ) : Motion ℝ → Matrix4 ℝ
  | .rotate drag =>
      ((Matrix4.rotation? (√(drag.x ^ 2 + drag.y ^ 2)) (screenAxis drag)).map
        (·.multiply turned)).getD turned
  | .zoom _ => turned
  | .reset => .identity

theorem InStep.rotation_perform {model : Matrix4 ℝ} {navigation : Navigation ℝ}
    (inStep : InStep model navigation) (motion : Motion ℝ) :
    (navigation.perform motion).rotation = screenTurned navigation.rotation motion := by
  cases motion with
  | rotate drag =>
      rw [perform, inStep.rotate?_eq_screen, screenTurned]
      cases Matrix4.rotation? (√(drag.x ^ 2 + drag.y ^ 2)) (screenAxis drag) <;> rfl
  | zoom scale =>
      rw [perform, screenTurned]
      cases zoomed : navigation.zoom scale with
      | error degeneracy => rfl
      | ok next =>
          rw [zoom_frame zoomed]
          rfl
  | reset => rfl

/-- Through every history a sphere is turned about axes of the screen, from the last reset on. -/
theorem rotation_replay (model : Matrix4 ℝ) (motions : List (Motion ℝ)) :
    ((start model).replay motions).rotation = motions.foldl screenTurned .identity := by
  suffices general : ∀ navigation, InStep model navigation →
      (navigation.replay motions).rotation = motions.foldl screenTurned navigation.rotation from
    general (start model) (InStep.start model)
  induction motions with
  | nil =>
      intro navigation inStep
      rfl
  | cons motion motions hypothesis =>
      intro navigation inStep
      have next : InStep model (navigation.perform motion) :=
        replay_induction (InStep model) InStep.rotate InStep.zoom InStep.reset inStep [motion]
      rw [replay, List.foldl_cons, List.foldl_cons, ← inStep.rotation_perform]
      exact hypothesis _ next

end Stereograph.Navigation
