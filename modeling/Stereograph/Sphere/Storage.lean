import Stereograph.Json.Stored
import Stereograph.Sphere.Orbit
import Stereograph.Sphere.Mobius

/-!
# Stored numbers, points and transforms

Vectors and points are stored as bare arrays of their components, and everything
else as records.
-/

namespace Stereograph

instance {α : Type} [Stored α] : Stored (Vec2 α) where
  toJson vector := .array [Stored.toJson vector.x, Stored.toJson vector.y]
  ofJson?
    | .array [x, y] => do
        some ⟨← Stored.ofJson? x, ← Stored.ofJson? y⟩
    | _ => none

instance {α : Type} [Stored α] : Stored (Vec4 α) where
  toJson vector := .array (vector.toList.map Stored.toJson)
  ofJson?
    | .array [x, y, z, w] => do
        some ⟨← Stored.ofJson? x, ← Stored.ofJson? y, ← Stored.ofJson? z,
          ← Stored.ofJson? w⟩
    | _ => none

instance {α : Type} [Stored α] : Stored (ComplexNumber α) where
  toJson number :=
    .ofMembers [Json.member "re" number.re, Json.member "im" number.im]
  ofJson? := Json.record₂? "re" "im" ComplexNumber.mk

instance {α : Type} [Stored α] : Stored (Coordinate α) where
  toJson point := Stored.toJson point.components
  ofJson? json := (Stored.ofJson? json).map Coordinate.ofComponents

/-- The rows of a matrix are stored as an array of arrays. -/
def Matrix4.rows {α : Type} (matrix : Matrix4 α) : Vec4 (Vec4 α) :=
  ⟨matrix.row₀, matrix.row₁, matrix.row₂, matrix.row₃⟩

/-- The matrix with given rows. -/
def Matrix4.ofRows {α : Type} (rows : Vec4 (Vec4 α)) : Matrix4 α :=
  ⟨rows.x, rows.y, rows.z, rows.w⟩

instance {α : Type} [Stored α] : Stored (Matrix4 α) where
  toJson matrix := .ofMembers [Json.member "data" matrix.rows]
  ofJson? := Json.record₁? "data" Matrix4.ofRows

instance {α : Type} [Stored α] : Stored (Mobius α) where
  toJson transform := .ofMembers [Json.member "matrix" transform.matrix]
  ofJson? := Json.record₁? "matrix" Mobius.mk

instance {α : Type} [Stored α] : Stored (OrbitFate α) where
  toJson fate :=
    .ofMembers
      [Json.member "iterations" fate.iterations, Json.member "escaped" fate.escaped,
        Json.member "depth" fate.shade]
  ofJson? := Json.record₃? "iterations" "escaped" "depth" OrbitFate.mk

end Stereograph
