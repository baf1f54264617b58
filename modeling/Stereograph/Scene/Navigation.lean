import Stereograph.Scene.Setup
import Stereograph.Sphere.Mobius

/-!
# Navigation of one sphere

A sphere is turned by drags and zoomed by the wheel.  Turning moves the mesh of the
sphere and zooming moves the numbers that its surface shows, always about the
point that faces the camera.
-/

namespace Stereograph

/-- How a sphere has been turned and zoomed so far. -/
structure Navigation (α : Type) where
  /-- Accumulated zoom of the numbers that the surface shows. -/
  mobius : Mobius α
  /-- Accumulated turning of the mesh. -/
  rotation : Matrix4 α
  /-- Inverse of the turning. -/
  inverseRotation : Matrix4 α
  /-- Place of the sphere in view space. -/
  model : Matrix4 α
  deriving DecidableEq, Repr

namespace Navigation

variable {α : Type} [Scalar α]

/-- A sphere in its place, neither turned nor zoomed. -/
def start (model : Matrix4 α) : Navigation α :=
  ⟨.identity, .identity, .identity, model⟩

/-- Center of the sphere in view space. -/
def center (navigation : Navigation α) : Vec3 α :=
  (navigation.model.transform ⟨0, 0, 0, 1⟩).spatial

/-- The number shown, before any zoom, where a direction in view space meets the
turned surface. -/
def pullBack (navigation : Navigation α) (direction : Vec4 α) : Coordinate α :=
  .ofDirection (navigation.inverseRotation.transform direction).spatial

/-- The point that faces the camera. -/
def nearPole (navigation : Navigation α) : Coordinate α :=
  navigation.pullBack ⟨0, 0, 1, 0⟩

/-- The point opposite to the one that faces the camera. -/
def farPole (navigation : Navigation α) : Coordinate α :=
  navigation.pullBack ⟨0, 0, -1, 0⟩

/-- Zoom about the point that faces the camera. -/
def zoom (navigation : Navigation α) (scale : α) :
    Except (Degeneracy α) (Navigation α) := do
  let increment ← Mobius.zoom navigation.nearPole navigation.farPole scale
  .ok { navigation with
    mobius := (navigation.mobius.compose increment).normalized }

/-- Turn by a drag over the screen.  The axis is at a right angle to the drag and
the angle is the length of the drag.  A drag without a direction turns nothing. -/
def rotate? (navigation : Navigation α) (drag : Vec2 α) : Option (Navigation α) := do
  let axis := navigation.inverseRotation.transformDirection ⟨-drag.y, drag.x, 0⟩
  let step ← Matrix4.rotation? axis.length axis
  let rotation := navigation.rotation.multiply step
  let inverse ← rotation.inverse?
  some { navigation with rotation := rotation, inverseRotation := inverse }

/-- Direction from the center to a point in view space, in the frame of the mesh. -/
def meshDirection (navigation : Navigation α) (point : Vec3 α) : Vec3 α :=
  navigation.inverseRotation.transformDirection (point.sub navigation.center)

/-- The number shown at a direction of the mesh. -/
def shownAt (navigation : Navigation α) (direction : Vec3 α) : Coordinate α :=
  navigation.mobius.apply (.ofDirection direction)

/-- Forget all turning and zooming. -/
def reset (navigation : Navigation α) : Navigation α :=
  start navigation.model

end Navigation

end Stereograph
