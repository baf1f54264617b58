import Stereograph.Scalar

/-!
# Vectors

Positions on the screen, points and directions in space, and homogeneous vectors
with four components.
-/

namespace Stereograph

/-- A position or displacement in the plane of the screen. -/
structure Vec2 (α : Type) where
  x : α
  y : α
  deriving DecidableEq, Repr

/-- A point or direction in space. -/
structure Vec3 (α : Type) where
  x : α
  y : α
  z : α
  deriving DecidableEq, Repr

/-- A vector on which matrices with four rows act. -/
structure Vec4 (α : Type) where
  x : α
  y : α
  z : α
  w : α
  deriving DecidableEq, Repr

variable {α : Type} [Scalar α]

namespace Vec3

def dot (left right : Vec3 α) : α :=
  left.x * right.x + left.y * right.y + left.z * right.z

def sub (left right : Vec3 α) : Vec3 α :=
  ⟨left.x - right.x, left.y - right.y, left.z - right.z⟩

/-- Multiply every component by a factor. -/
def scale (vector : Vec3 α) (factor : α) : Vec3 α :=
  ⟨vector.x * factor, vector.y * factor, vector.z * factor⟩

/-- Divide every component by a divisor. -/
def shrink (vector : Vec3 α) (divisor : α) : Vec3 α :=
  ⟨vector.x / divisor, vector.y / divisor, vector.z / divisor⟩

/-- Euclidean length. -/
def length (vector : Vec3 α) : α :=
  Scalar.sqrt (vector.dot vector)

/-- The homogeneous vector of a direction. -/
def direction (vector : Vec3 α) : Vec4 α :=
  ⟨vector.x, vector.y, vector.z, 0⟩

end Vec3

namespace Vec4

def dot (left right : Vec4 α) : α :=
  left.x * right.x + left.y * right.y + left.z * right.z + left.w * right.w

/-- The components in space. -/
def spatial (vector : Vec4 α) : Vec3 α :=
  ⟨vector.x, vector.y, vector.z⟩

/-- Apply a function to every component. -/
def map {β : Type} (image : α → β) (vector : Vec4 α) : Vec4 β :=
  ⟨image vector.x, image vector.y, image vector.z, image vector.w⟩

/-- Combine two vectors component by component. -/
def zipWith {β γ : Type} (combine : α → β → γ) (left : Vec4 α) (right : Vec4 β) :
    Vec4 γ :=
  ⟨combine left.x right.x, combine left.y right.y, combine left.z right.z,
    combine left.w right.w⟩

/-- The components in order. -/
def toList (vector : Vec4 α) : List α :=
  [vector.x, vector.y, vector.z, vector.w]

end Vec4

end Stereograph
