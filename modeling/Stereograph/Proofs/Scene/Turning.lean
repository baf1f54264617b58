import Stereograph.Proofs.Sphere.Rotation
import Stereograph.Proofs.Scene.History

/-!
# Turning a sphere

The turning of a sphere is kept together with its inverse.  Over exact arithmetic the two
stay inverse to each other through every history, and the turning stays a rotation.  A drag
turns the sphere unless it is too short to have a direction.
-/

namespace Stereograph.Navigation

/-! ## The turning and its inverse -/

/-- A sphere in its place whose turning is a rotation and is kept with its transpose. -/
structure InStep (model : Matrix4 ℝ) (navigation : Navigation ℝ) : Prop where
  inPlace : navigation.model = model
  isRotation : navigation.rotation.IsRotation
  transposed : navigation.inverseRotation = navigation.rotation.transpose

/-- The axis that a drag turns about, in the frame of the mesh. -/
noncomputable def dragAxis (navigation : Navigation ℝ) (drag : Vec2 ℝ) : Vec3 ℝ :=
  navigation.inverseRotation.transformDirection ⟨-drag.y, drag.x, 0⟩

namespace InStep

variable {model : Matrix4 ℝ} {navigation next : Navigation ℝ} {drag : Vec2 ℝ} {scale : ℝ}

theorem start (model : Matrix4 ℝ) : InStep model (Navigation.start model) where
  inPlace := rfl
  isRotation := Matrix4.isRotation_identity
  transposed := rfl

theorem inverse_isRotation (inStep : InStep model navigation) :
    navigation.inverseRotation.IsRotation := by
  rw [inStep.transposed]
  exact inStep.isRotation.transpose

/-- The axis is as long as the drag. -/
theorem length_dragAxis (inStep : InStep model navigation) :
    (navigation.dragAxis drag).length = √(drag.x ^ 2 + drag.y ^ 2) := by
  rw [dragAxis, inStep.inverse_isRotation.length_transformDirection, Vec3.length, Vec3.dot]
  congr 1
  ring

/-- A turning by a drag succeeds whenever the axis has a direction. -/
theorem rotate?_eq (inStep : InStep model navigation) :
    navigation.rotate? drag =
      (Matrix4.rotation? (navigation.dragAxis drag).length (navigation.dragAxis drag)).map
        fun step => { navigation with
          rotation := navigation.rotation.multiply step
          inverseRotation := (navigation.rotation.multiply step).transpose } := by
  rw [rotate?, ← dragAxis]
  cases defined : Matrix4.rotation? (navigation.dragAxis drag).length
    (navigation.dragAxis drag) with
  | none => rfl
  | some step =>
      have turned : (navigation.rotation.multiply step).IsRotation :=
        inStep.isRotation.multiply (Matrix4.isRotation_of_rotation? defined)
      simp [turned.inverse?_eq]

theorem rotate?_eq_none_iff (inStep : InStep model navigation) :
    navigation.rotate? drag = none ↔ √(drag.x ^ 2 + drag.y ^ 2) < 1e-12 := by
  rw [inStep.rotate?_eq, Option.map_eq_none_iff, Matrix4.rotation?_eq_none_iff,
    inStep.length_dragAxis]
  exact Iff.rfl

theorem rotate (inStep : InStep model navigation)
    (rotated : navigation.rotate? drag = some next) : InStep model next := by
  rw [inStep.rotate?_eq, Option.map_eq_some_iff] at rotated
  obtain ⟨step, defined, rfl⟩ := rotated
  exact
    { inPlace := inStep.inPlace
      isRotation := inStep.isRotation.multiply (Matrix4.isRotation_of_rotation? defined)
      transposed := rfl }

theorem zoom (inStep : InStep model navigation)
    (zoomed : navigation.zoom scale = .ok next) : InStep model next := by
  rw [zoom_frame zoomed]
  exact ⟨inStep.inPlace, inStep.isRotation, inStep.transposed⟩

theorem reset (inStep : InStep model navigation) : InStep model navigation.reset := by
  rw [Navigation.reset, inStep.inPlace]
  exact InStep.start model

/-- Every history of a sphere keeps the turning in step with its inverse. -/
theorem replay (model : Matrix4 ℝ) (motions : List (Motion ℝ)) :
    InStep model ((Navigation.start model).replay motions) :=
  replay_induction (InStep model) rotate zoom reset (start model) motions

end InStep

/-- After every history of a sphere its turning is a rotation, the inverse that is kept
with it is its inverse and its transpose, and the sphere is in its place.  The next drag
turns nothing if and only if it is too short. -/
theorem turning_in_step (model : Matrix4 ℝ) (motions : List (Motion ℝ)) :
    let navigation := (start model).replay motions
    navigation.rotation.IsRotation ∧
      navigation.rotation.multiply navigation.inverseRotation = .identity ∧
      navigation.inverseRotation.multiply navigation.rotation = .identity ∧
      navigation.inverseRotation = navigation.rotation.transpose ∧
      navigation.model = model ∧
      ∀ drag : Vec2 ℝ,
        navigation.rotate? drag = none ↔ √(drag.x ^ 2 + drag.y ^ 2) < 1e-12 := by
  intro navigation
  have inStep : InStep model navigation := InStep.replay model motions
  refine ⟨inStep.isRotation, ?_, ?_, inStep.transposed, inStep.inPlace, ?_⟩
  · rw [inStep.transposed]
    exact inStep.isRotation.multiply_transpose
  · rw [inStep.transposed]
    exact inStep.isRotation.transpose_multiply
  · intro drag
    exact inStep.rotate?_eq_none_iff

end Stereograph.Navigation
