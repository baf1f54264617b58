import Stereograph.Decimal.Layout
import Stereograph.Sphere.Coordinate
import Stereograph.Sphere.Matrix4

/-!
# Möbius transforms

A complex matrix with two rows acts on numerator and denominator of a point.  Each
complex entry `p + q * i` is stored as the real block with rows `p, -q` and `q, p`,
which makes the transform a real matrix with four rows that a renderer can apply.

A zoom about two poles `u` and `v` fixes both and stretches by its scale from one
to the other.  With `P` and `Q` the two cross products of numerators and
denominators, its complex matrix is

```text
(P - s Q) / (P - Q)             ((s - 1) u.num v.num) / (P - Q)
((1 - s) u.den v.den) / (P - Q)             (s P - Q) / (P - Q)
```

which has determinant `s` and is the identity for `s = 1`.
-/

namespace Stereograph

/-- A transform of the Riemann sphere, by its real matrix. -/
structure Mobius (α : Type) where
  matrix : Matrix4 α
  deriving DecidableEq, Repr

/-- Why two poles and a scale define no transform. -/
inductive Degeneracy (α : Type) where
  | coincidentPoles (separation : α)
  | invalidScale (scale : α)
  | nonFinitePole
  deriving DecidableEq, Repr

/-- Wording of a degeneracy. -/
def Degeneracy.message : Degeneracy Float → String
  | .coincidentPoles separation =>
      "poles coincide (separation " ++ Decimal.exponential separation ++ ")"
  | .invalidScale scale =>
      "scale factor " ++ Decimal.display scale ++ " is not a positive finite number"
  | .nonFinitePole => "pole is not a finite homogeneous coordinate"

/-- The entries of a complex matrix with two rows. -/
structure Blocks (α : Type) where
  upperLeft : ComplexNumber α
  upperRight : ComplexNumber α
  lowerLeft : ComplexNumber α
  lowerRight : ComplexNumber α
  deriving DecidableEq, Repr

namespace Blocks

variable {α : Type} [Scalar α]

/-- Apply a function to every entry. -/
def map (image : ComplexNumber α → ComplexNumber α) (blocks : Blocks α) : Blocks α :=
  ⟨image blocks.upperLeft, image blocks.upperRight, image blocks.lowerLeft,
    image blocks.lowerRight⟩

def determinant (blocks : Blocks α) : ComplexNumber α :=
  (blocks.upperLeft.mul blocks.lowerRight).sub
    (blocks.upperRight.mul blocks.lowerLeft)

/-- The upper and the lower row of the real blocks of a row of entries. -/
def realRows (left right : ComplexNumber α) : Vec4 α × Vec4 α :=
  (⟨left.re, -left.im, right.re, -right.im⟩, ⟨left.im, left.re, right.im, right.re⟩)

end Blocks

namespace Mobius

variable {α : Type} [Scalar α]

def identity : Mobius α := ⟨.identity⟩

/-- The transform of a complex matrix. -/
def ofBlocks (blocks : Blocks α) : Mobius α :=
  let upper := Blocks.realRows blocks.upperLeft blocks.upperRight
  let lower := Blocks.realRows blocks.lowerLeft blocks.lowerRight
  ⟨⟨upper.1, upper.2, lower.1, lower.2⟩⟩

/-- The complex matrix, read from the first column of every real block. -/
def blocks (transform : Mobius α) : Blocks α :=
  let ⟨first, second, third, fourth⟩ := transform.matrix
  ⟨⟨first.x, second.x⟩, ⟨first.z, second.z⟩, ⟨third.x, fourth.x⟩, ⟨third.z, fourth.z⟩⟩

/-- Determinant of the complex matrix. -/
def determinant (transform : Mobius α) : ComplexNumber α :=
  transform.blocks.determinant

/-- The blocks divided by a root of their determinant, which makes it one.  A matrix whose
determinant has no root to divide by is kept. -/
def normalized (transform : Mobius α) : Mobius α :=
  let root := transform.determinant.sqrt
  if !root.isFinite || root.normSq == 0 then transform
  else ofBlocks (transform.blocks.map (·.div root))

/-- Image of a point. -/
def apply (transform : Mobius α) (point : Coordinate α) : Coordinate α :=
  (Coordinate.ofComponents (transform.matrix.transform point.components)).normalized

/-- The map that applies `increment` first and `accumulated` after it. -/
def compose (accumulated increment : Mobius α) : Mobius α :=
  ⟨accumulated.matrix.multiply increment.matrix⟩

/-- Whether no entries differ by more than a tolerance. -/
def isNear (left right : Mobius α) (tolerance : α) : Bool :=
  left.matrix.isNear right.matrix tolerance

/-- Poles closer than this count as one point. -/
def minimumSeparation : α := 1e-9

/-- The zoom by a scale from a near to a far pole. -/
def zoom (near far : Coordinate α) (scale : α) : Except (Degeneracy α) (Mobius α) :=
  if !Scalar.isFinite scale || decide (scale ≤ 0) then .error (.invalidScale scale)
  else if !near.isFinite || !far.isFinite then .error .nonFinitePole
  else
    let near := near.normalized
    let far := far.normalized
    let straight := near.numerator.mul far.denominator
    let crossed := near.denominator.mul far.numerator
    let difference := straight.sub crossed
    let separation := difference.norm
    if separation < minimumSeparation then .error (.coincidentPoles separation)
    else
      .ok <| ofBlocks <| Blocks.map (·.div difference)
        { upperLeft := straight.sub (crossed.scale scale)
          upperRight := (near.numerator.mul far.numerator).scale (scale - 1)
          lowerLeft := (near.denominator.mul far.denominator).scale (1 - scale)
          lowerRight := (straight.scale scale).sub crossed }

end Mobius

end Stereograph
