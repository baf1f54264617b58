import Stereograph.Decimal.Single
import Stereograph.Sphere.Vector

/-!
# Matrices with four rows

A matrix acts on column vectors.  In a product the right factor acts first.
-/

namespace Stereograph

/-- A matrix by its rows. -/
structure Matrix4 (α : Type) where
  row₀ : Vec4 α
  row₁ : Vec4 α
  row₂ : Vec4 α
  row₃ : Vec4 α
  deriving DecidableEq, Repr

namespace Matrix4

variable {α : Type}

/-- Apply a function to every entry. -/
def map {β : Type} (image : α → β) (matrix : Matrix4 α) : Matrix4 β :=
  ⟨matrix.row₀.map image, matrix.row₁.map image, matrix.row₂.map image,
    matrix.row₃.map image⟩

/-- Rows become columns. -/
def transpose (matrix : Matrix4 α) : Matrix4 α :=
  ⟨⟨matrix.row₀.x, matrix.row₁.x, matrix.row₂.x, matrix.row₃.x⟩,
    ⟨matrix.row₀.y, matrix.row₁.y, matrix.row₂.y, matrix.row₃.y⟩,
    ⟨matrix.row₀.z, matrix.row₁.z, matrix.row₂.z, matrix.row₃.z⟩,
    ⟨matrix.row₀.w, matrix.row₁.w, matrix.row₂.w, matrix.row₃.w⟩⟩

/-- The entries, row by row. -/
def toList (matrix : Matrix4 α) : List α :=
  matrix.row₀.toList ++ matrix.row₁.toList ++ matrix.row₂.toList ++ matrix.row₃.toList

variable [Scalar α]

def identity : Matrix4 α :=
  ⟨⟨1, 0, 0, 0⟩, ⟨0, 1, 0, 0⟩, ⟨0, 0, 1, 0⟩, ⟨0, 0, 0, 1⟩⟩

/-- Move by a vector. -/
def translation (offset : Vec3 α) : Matrix4 α :=
  ⟨⟨1, 0, 0, offset.x⟩, ⟨0, 1, 0, offset.y⟩, ⟨0, 0, 1, offset.z⟩, ⟨0, 0, 0, 1⟩⟩

/-- Axes shorter than this define no direction. -/
def minimumAxisLength : α := 1e-12

/-- Counterclockwise rotation about an axis by an angle in radians. -/
def rotation? (angle : α) (axis : Vec3 α) : Option (Matrix4 α) :=
  let length := axis.length
  if length < minimumAxisLength then none
  else
    let ⟨x, y, z⟩ := axis.shrink length
    let sine := Scalar.sin angle
    let cosine := Scalar.cos angle
    let versine := 1 - cosine
    some
      ⟨⟨versine * x * x + cosine, versine * x * y - sine * z,
          versine * x * z + sine * y, 0⟩,
        ⟨versine * x * y + sine * z, versine * y * y + cosine,
          versine * y * z - sine * x, 0⟩,
        ⟨versine * x * z - sine * y, versine * y * z + sine * x,
          versine * z * z + cosine, 0⟩,
        ⟨0, 0, 0, 1⟩⟩

/-- Perspective projection of a camera that looks down the negative third axis. -/
def perspective (fieldOfView aspect near far : α) : Matrix4 α :=
  let focal := 1 / Scalar.tan (fieldOfView / 2.0)
  let depth := 1 / (near - far)
  ⟨⟨focal / aspect, 0, 0, 0⟩, ⟨0, focal, 0, 0⟩,
    ⟨0, 0, (far + near) * depth, 2.0 * far * near * depth⟩, ⟨0, 0, -1, 0⟩⟩

/-- Image of a column vector. -/
def transform (matrix : Matrix4 α) (vector : Vec4 α) : Vec4 α :=
  ⟨matrix.row₀.dot vector, matrix.row₁.dot vector, matrix.row₂.dot vector,
    matrix.row₃.dot vector⟩

/-- Image of a direction under the linear part. -/
def transformDirection (matrix : Matrix4 α) (direction : Vec3 α) : Vec3 α :=
  (matrix.transform direction.direction).spatial

/-- Matrix product. -/
def multiply (left right : Matrix4 α) : Matrix4 α :=
  let columns := right.transpose
  ⟨columns.transform left.row₀, columns.transform left.row₁,
    columns.transform left.row₂, columns.transform left.row₃⟩

/-- Determinants of two rows of columns taken in pairs. -/
structure PairMinors (α : Type) where
  xy : α
  xz : α
  xw : α
  yz : α
  yw : α
  zw : α

/-- The six determinants of two rows. -/
def PairMinors.ofRows (upper lower : Vec4 α) : PairMinors α where
  xy := upper.x * lower.y - upper.y * lower.x
  xz := upper.x * lower.z - upper.z * lower.x
  xw := upper.x * lower.w - upper.w * lower.x
  yz := upper.y * lower.z - upper.z * lower.y
  yw := upper.y * lower.w - upper.w * lower.y
  zw := upper.z * lower.w - upper.w * lower.z

/-- Expansion of the determinant along the upper pair of rows. -/
def PairMinors.pairing (upper lower : PairMinors α) : α :=
  upper.xy * lower.zw - upper.xz * lower.yw + upper.xw * lower.yz +
    upper.yz * lower.xw - upper.yw * lower.xz + upper.zw * lower.xy

def determinant (matrix : Matrix4 α) : α :=
  (PairMinors.ofRows matrix.row₀ matrix.row₁).pairing
    (.ofRows matrix.row₂ matrix.row₃)

/-- Matrix of cofactors, transposed. -/
def adjugate (matrix : Matrix4 α) : Matrix4 α :=
  let ⟨first, second, third, fourth⟩ := matrix
  let upper := PairMinors.ofRows first second
  let lower := PairMinors.ofRows third fourth
  ⟨⟨second.y * lower.zw - second.z * lower.yw + second.w * lower.yz,
      first.z * lower.yw - first.y * lower.zw - first.w * lower.yz,
      fourth.y * upper.zw - fourth.z * upper.yw + fourth.w * upper.yz,
      third.z * upper.yw - third.y * upper.zw - third.w * upper.yz⟩,
    ⟨second.z * lower.xw - second.x * lower.zw - second.w * lower.xz,
      first.x * lower.zw - first.z * lower.xw + first.w * lower.xz,
      fourth.z * upper.xw - fourth.x * upper.zw - fourth.w * upper.xz,
      third.x * upper.zw - third.z * upper.xw + third.w * upper.xz⟩,
    ⟨second.x * lower.yw - second.y * lower.xw + second.w * lower.xy,
      first.y * lower.xw - first.x * lower.yw - first.w * lower.xy,
      fourth.x * upper.yw - fourth.y * upper.xw + fourth.w * upper.xy,
      third.y * upper.xw - third.x * upper.yw - third.w * upper.xy⟩,
    ⟨second.y * lower.xz - second.x * lower.yz - second.z * lower.xy,
      first.x * lower.yz - first.y * lower.xz + first.z * lower.xy,
      fourth.y * upper.xz - fourth.x * upper.yz - fourth.z * upper.xy,
      third.x * upper.yz - third.y * upper.xz + third.z * upper.xy⟩⟩

/-- The inverse.  A matrix without a finite nonzero determinant has none. -/
def inverse? (matrix : Matrix4 α) : Option (Matrix4 α) :=
  let determinant := matrix.determinant
  if determinant == 0 || !Scalar.isFinite determinant then none
  else
    let reciprocal := 1 / determinant
    some (matrix.adjugate.map (· * reciprocal))

/-- Largest absolute difference between entries.  Differences that are no numbers
are passed over. -/
def greatestDifference (left right : Matrix4 α) : α :=
  (List.zipWith (fun a b => Scalar.abs (a - b)) left.toList right.toList).foldl
    Scalar.maximum 0

/-- Whether no entries differ by more than a tolerance. -/
def isNear (left right : Matrix4 α) (tolerance : α) : Bool :=
  left.greatestDifference right ≤ tolerance

/-- The entries in single precision, column by column, as a renderer takes them. -/
def columnMajor (matrix : Matrix4 Float) : List Float32 :=
  matrix.transpose.toList.map Decimal.toSingle

end Matrix4

end Stereograph
