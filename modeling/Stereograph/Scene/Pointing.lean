import Stereograph.Scene.Setup

/-!
# From the pointer to a sphere

Pointer positions are in clip space, where both axes run from minus one to one and
the second points up.
-/

namespace Stereograph

variable {α : Type} [Scalar α]

/-- Bounding rectangle of the canvas on the page. -/
structure Canvas (α : Type) where
  left : α
  top : α
  width : α
  height : α
  deriving DecidableEq, Repr

/-- Position on the page in the clip space of a canvas. -/
def Canvas.toClip (canvas : Canvas α) (position : Vec2 α) : Vec2 α :=
  let x := (position.x - canvas.left) / canvas.width
  let y := (position.y - canvas.top) / canvas.height
  ⟨x * 2.0 - 1, y * -2.0 + 1⟩

/-- Squared distance of the pointer from the center of a pick disc.  The aspect
ratio puts both axes into one unit. -/
def Placement.distanceSq (placement : Placement α) (aspect : α) (pointer : Vec2 α) : α :=
  let dx := pointer.x * aspect - placement.discCenter.x
  let dy := pointer.y - placement.discCenter.y
  dx * dx + dy * dy

/-- Keep the closer of two candidates, the earlier one if neither is closer. -/
def closer (best : Option (Globe × α)) (globe : Globe) (distanceSq : α) :
    Option (Globe × α) :=
  match best with
  | some (_, bestSq) => if bestSq ≤ distanceSq then best else some (globe, distanceSq)
  | none => some (globe, distanceSq)

namespace SceneSetup

/-- Let a sphere compete if the pointer is not outside its pick disc. -/
def consider (setup : SceneSetup α) (aspect : α) (pointer : Vec2 α)
    (best : Option (Globe × α)) (globe : Globe) : Option (Globe × α) :=
  let placement := setup.placement globe
  let distanceSq := placement.distanceSq aspect pointer
  if placement.discRadiusSq ≤ distanceSq then best else closer best globe distanceSq

/-- The sphere that the pointer is over.  Where both pick discs overlap it is the
one whose center is closer. -/
def pick (setup : SceneSetup α) (aspect : α) (pointer : Vec2 α) : Option Globe :=
  (Globe.all.foldl (setup.consider aspect pointer) none).map Prod.fst

end SceneSetup

/-- Direction in space from the camera through the pointer. -/
def rayThrough (projection : Matrix4 α) (pointer : Vec2 α) : Vec3 α :=
  ⟨pointer.x / projection.row₀.x, pointer.y / projection.row₁.y, -1⟩

/-- The point where the ray through the pointer leaves the unit sphere about a
center.  It belongs to the larger root of a quadratic equation.  A ray that misses
the sphere has none. -/
def rayExit? (projection : Matrix4 α) (center : Vec3 α) (pointer : Vec2 α) :
    Option (Vec3 α) :=
  let ray := rayThrough projection pointer
  let a := ray.dot ray
  let b := -2.0 * ray.dot center
  let c := center.dot center - 1
  let discriminant := b * b - 4.0 * a * c
  if discriminant < 0 then none
  else some (ray.scale ((-b + Scalar.sqrt discriminant) / (2.0 * a)))

end Stereograph
