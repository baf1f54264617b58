import Stereograph.Sphere.Matrix4

/-!
# Setup of the scene

The scene shows two spheres.  Where they stand, where the pointer finds them and
how the camera sees them are given numbers, not derived from what is drawn.
-/

namespace Stereograph

/-- The two spheres that can be navigated. -/
inductive Globe where
  /-- The parameter varies over the sphere. -/
  | parameter
  /-- The starting point varies over the sphere. -/
  | dynamical
  deriving DecidableEq, Repr

namespace Globe

/-- Both spheres, in the order in which they are picked. -/
def all : List Globe := [.parameter, .dynamical]

def name : Globe → String
  | .parameter => "parameter"
  | .dynamical => "dynamical"

/-- The sphere with a name. -/
def named? (name : String) : Option Globe :=
  all.find? fun globe => globe.name == name

end Globe

/-- Where a sphere stands and where the pointer finds it. -/
structure Placement (α : Type) where
  /-- Position of the unit sphere in view space. -/
  translation : Vec3 α
  /-- Center of the disc of pointer positions that pick the sphere. -/
  discCenter : Vec2 α
  /-- Square of the radius of that disc. -/
  discRadiusSq : α
  deriving DecidableEq, Repr

/-- The numbers that fix a scene. -/
structure SceneSetup (α : Type) where
  /-- Angle in radians between the lower and the upper edge of the picture. -/
  fieldOfView : α
  near : α
  far : α
  parameter : Placement α
  dynamical : Placement α
  /-- Change of scale for one unit of wheel movement. -/
  wheelSensitivity : α
  /-- Smallest scale of one wheel step. -/
  minimumWheelScale : α
  deriving DecidableEq, Repr

variable {α : Type} [Scalar α]

/-- The matrix that puts the sphere in its place. -/
def Placement.model (placement : Placement α) : Matrix4 α :=
  .translation placement.translation

namespace SceneSetup

def placement (setup : SceneSetup α) : Globe → Placement α
  | .parameter => setup.parameter
  | .dynamical => setup.dynamical

/-- Scale of one wheel step. -/
def wheelScale (setup : SceneSetup α) (delta : α) : α :=
  Scalar.maximum (1 + delta * setup.wheelSensitivity) setup.minimumWheelScale

/-- The camera's projection for a ratio of canvas width to height. -/
def projection (setup : SceneSetup α) (aspect : α) : Matrix4 α :=
  .perspective setup.fieldOfView aspect setup.near setup.far

/-- The parameter sphere stands in the middle, and the dynamical sphere farther away,
below it and to its right.  The camera takes in an eighth of a turn. -/
def standard : SceneSetup α where
  fieldOfView := 0.7853981633974483
  near := 1
  far := 20.0
  parameter :=
    { translation := ⟨0, 0, -3.0⟩, discCenter := ⟨0, 0⟩, discRadiusSq := 0.73 }
  dynamical :=
    { translation := ⟨2.2, -1.2, -6.0⟩, discCenter := ⟨0.885, -0.483⟩
      discRadiusSq := 0.14 }
  wheelSensitivity := 0.001
  minimumWheelScale := 0.05

end SceneSetup

end Stereograph
