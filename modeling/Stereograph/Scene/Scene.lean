import Stereograph.Scene.Navigation
import Stereograph.Scene.Pointing

/-!
# The scene and its gestures

A scene holds the navigation of both spheres, the pointer and the camera.  Each
gesture is a function from scenes to scenes and says what it did.  A drag turns the
sphere that was under the pointer when the button went down, wherever the pointer
is now.  The wheel zooms the sphere under the pointer.
-/

namespace Stereograph

/-- Where the pointer is and what it holds. -/
structure Pointer (α : Type) where
  position : Vec2 α
  previousPosition : Vec2 α
  isPressed : Bool
  /-- The sphere that was grabbed, if any. -/
  grabbed : Option Globe
  deriving DecidableEq, Repr

/-- What a gesture did. -/
inductive Outcome where
  /-- The gesture concerned no sphere. -/
  | missed
  /-- A sphere was concerned and stayed as it was. -/
  | unchanged (globe : Globe)
  /-- The navigation of a sphere changed. -/
  | updated (globe : Globe)
  deriving DecidableEq, Repr

/-- Whether a sphere changed. -/
def Outcome.isUpdate : Outcome → Bool
  | .updated _ => true
  | .missed => false
  | .unchanged _ => false

/-- Navigation of both spheres, as it is stored, with the version of its format. -/
structure Snapshot (α : Type) where
  parameter : Navigation α
  dynamical : Navigation α
  version : UInt32
  deriving DecidableEq, Repr

/-- The format that is written and read. -/
def Snapshot.format : UInt32 := 1

/-- A scene with two spheres. -/
structure Scene (α : Type) where
  setup : SceneSetup α
  parameter : Navigation α
  dynamical : Navigation α
  pointer : Pointer α
  /-- Ratio of canvas width to height. -/
  aspect : α
  projection : Matrix4 α
  deriving DecidableEq, Repr

variable {α : Type} [Scalar α]

namespace Pointer

/-- A pointer at the origin that holds nothing. -/
def start : Pointer α := ⟨⟨0, 0⟩, ⟨0, 0⟩, false, none⟩

/-- Record a new position. -/
def moved (pointer : Pointer α) (position : Vec2 α) : Pointer α :=
  { pointer with position := position, previousPosition := pointer.position }

/-- Way from the last position to the present one. -/
def drag (pointer : Pointer α) : Vec2 α :=
  ⟨pointer.position.x - pointer.previousPosition.x,
    pointer.position.y - pointer.previousPosition.y⟩

/-- The sphere that a movement of the pointer turns. -/
def held (pointer : Pointer α) : Option Globe :=
  if pointer.isPressed then pointer.grabbed else none

end Pointer

namespace Scene

/-- A scene at its start, on a square canvas. -/
def start (setup : SceneSetup α) : Scene α where
  setup := setup
  parameter := .start setup.parameter.model
  dynamical := .start setup.dynamical.model
  pointer := .start
  aspect := 1
  projection := setup.projection 1

/-- Navigation of one sphere. -/
def navigation (scene : Scene α) : Globe → Navigation α
  | .parameter => scene.parameter
  | .dynamical => scene.dynamical

/-- Replace the navigation of one sphere. -/
def withNavigation (scene : Scene α) (globe : Globe) (navigation : Navigation α) :
    Scene α :=
  match globe with
  | .parameter => { scene with parameter := navigation }
  | .dynamical => { scene with dynamical := navigation }

/-- Move the pointer with no other effect. -/
def pointTo (scene : Scene α) (position : Vec2 α) : Scene α :=
  { scene with pointer := scene.pointer.moved position }

/-- Take over a new aspect ratio.  One that is not a positive finite number is
ignored. -/
def reshape (scene : Scene α) (aspect : α) : Scene α :=
  if !Scalar.isFinite aspect || decide (aspect ≤ 0) then scene
  else { scene with aspect := aspect, projection := scene.setup.projection aspect }

/-- The sphere at a position. -/
def pick (scene : Scene α) (position : Vec2 α) : Option Globe :=
  scene.setup.pick scene.aspect position

/-- Press the button at a position and grab the sphere there. -/
def press (scene : Scene α) (position : Vec2 α) : Option Globe × Scene α :=
  let scene := scene.pointTo position
  let globe := scene.pick position
  (globe, { scene with
    pointer := { scene.pointer with isPressed := true, grabbed := globe } })

/-- Release the button and whatever was held. -/
def release (scene : Scene α) : Scene α :=
  { scene with pointer := { scene.pointer with isPressed := false, grabbed := none } }

/-- Move the pointer and turn the sphere that it holds. -/
def movePointer (scene : Scene α) (position : Vec2 α) : Outcome × Scene α :=
  let scene := scene.pointTo position
  match scene.pointer.held with
  | none => (.missed, scene)
  | some globe =>
      match (scene.navigation globe).rotate? scene.pointer.drag with
      | some navigation => (.updated globe, scene.withNavigation globe navigation)
      | none => (.unchanged globe, scene)

/-- Turn the wheel over a position, which zooms the sphere there.  A step that does
not change the scale, or that defines no transform, leaves the sphere as it is. -/
def turnWheel (scene : Scene α) (position : Vec2 α) (delta : α) : Outcome × Scene α :=
  let scene := scene.pointTo position
  match scene.pick position with
  | none => (.missed, scene)
  | some globe =>
      let scale := scene.setup.wheelScale delta
      if scale == 1 then (.unchanged globe, scene)
      else
        match (scene.navigation globe).zoom scale with
        | .ok navigation => (.updated globe, scene.withNavigation globe navigation)
        | .error _ => (.unchanged globe, scene)

/-- Forget the navigation of one sphere. -/
def reset (scene : Scene α) (globe : Globe) : Scene α :=
  scene.withNavigation globe (scene.navigation globe).reset

/-- Forget the navigation of both spheres. -/
def resetBoth (scene : Scene α) : Scene α :=
  Globe.all.foldl reset scene

/-- The point of a sphere under a position. -/
def pointUnder? (scene : Scene α) (position : Vec2 α) (globe : Globe) : Option (Vec3 α) :=
  rayExit? scene.projection (scene.navigation globe).center position

/-- The number that a sphere shows under a position. -/
def numberUnder? (scene : Scene α) (position : Vec2 α) (globe : Globe) :
    Option (Coordinate α) :=
  let navigation := scene.navigation globe
  (scene.pointUnder? position globe).map fun point =>
    navigation.shownAt (navigation.meshDirection point)

/-- What is stored of a scene. -/
def snapshot (scene : Scene α) : Snapshot α :=
  ⟨scene.parameter, scene.dynamical, Snapshot.format⟩

/-- Take over stored navigation. -/
def restore (scene : Scene α) (snapshot : Snapshot α) : Scene α :=
  { scene with parameter := snapshot.parameter, dynamical := snapshot.dynamical }

end Scene

/-- Everything that can happen to a scene. -/
inductive Gesture (α : Type) where
  | reshape (aspect : α)
  | press (position : Vec2 α)
  | release
  | move (position : Vec2 α)
  | wheel (position : Vec2 α) (delta : α)
  | reset (globe : Globe)
  | resetBoth
  | restore (snapshot : Snapshot α)
  deriving DecidableEq, Repr

namespace Scene

/-- The scene after a gesture. -/
def perform (scene : Scene α) : Gesture α → Scene α
  | .reshape aspect => scene.reshape aspect
  | .press position => (scene.press position).2
  | .release => scene.release
  | .move position => (scene.movePointer position).2
  | .wheel position delta => (scene.turnWheel position delta).2
  | .reset globe => scene.reset globe
  | .resetBoth => scene.resetBoth
  | .restore snapshot => scene.restore snapshot

/-- The scene after some gestures, from the first to the last. -/
def replay (scene : Scene α) (gestures : List (Gesture α)) : Scene α :=
  gestures.foldl perform scene

end Scene

end Stereograph
