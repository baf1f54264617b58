import Stereograph.Sphere.ComplexNumber
import Stereograph.Sphere.Vector

/-!
# Points of the Riemann sphere

A point is a ratio of two complex numbers, so that infinity is a point like any
other.  Two pairs that differ by a complex factor are the same point.  Arithmetic
on points rescales its results to length one over all four components, which keeps
iterated values bounded however close they come to infinity.  The pair of zeros is
no point.  It stands for the value of an indeterminate form.
-/

namespace Stereograph

/-- The ratio of a numerator to a denominator. -/
structure Coordinate (α : Type) where
  numerator : ComplexNumber α
  denominator : ComplexNumber α
  deriving DecidableEq, Repr

namespace Coordinate

variable {α : Type} [Scalar α]

/-- The point at infinity. -/
def infinity : Coordinate α := ⟨⟨1, 0⟩, ⟨0, 0⟩⟩

def zero : Coordinate α := ⟨⟨0, 0⟩, ⟨1, 0⟩⟩

def imaginaryUnit : Coordinate α := ⟨⟨0, 1⟩, ⟨1, 0⟩⟩

/-- The ratio of a real number to one, not rescaled. -/
def constant (value : α) : Coordinate α := ⟨⟨value, 0⟩, ⟨1, 0⟩⟩

/-- The components, numerator first. -/
def components (point : Coordinate α) : Vec4 α :=
  ⟨point.numerator.re, point.numerator.im, point.denominator.re, point.denominator.im⟩

/-- The ratio with given components. -/
def ofComponents (vector : Vec4 α) : Coordinate α :=
  ⟨⟨vector.x, vector.y⟩, ⟨vector.z, vector.w⟩⟩

/-- Euclidean length over all four components. -/
def norm (point : Coordinate α) : α :=
  Scalar.sqrt (point.components.dot point.components)

/-- Rescale to length one.  The pair of zeros has no direction and stays as it is. -/
def normalized (point : Coordinate α) : Coordinate α :=
  let norm := point.norm
  if norm == 0 then point
  else ofComponents (point.components.map (· / norm))

/-- The point of a complex number. -/
def ofComplex (number : ComplexNumber α) : Coordinate α :=
  normalized ⟨number, .one⟩

/-- The point of a real number. -/
def ofReal (value : α) : Coordinate α :=
  ofComplex (.real value)

/-- The complex number of a point.  Points too close to infinity have none. -/
def toComplex? (point : Coordinate α) : Option (ComplexNumber α) :=
  let point := point.normalized
  if point.denominator.norm < 2.220446049250313e-16 then none
  else some (point.numerator.div point.denominator)

/-- Whether every component is finite. -/
def isFinite (point : Coordinate α) : Bool :=
  point.numerator.isFinite && point.denominator.isFinite

/-! ## Distance -/

/-- The product difference whose length is the distance of two rescaled points. -/
def separation (left right : Coordinate α) : ComplexNumber α :=
  (left.numerator.mul right.denominator).sub (left.denominator.mul right.numerator)

/-- Chordal distance of two points that are already rescaled. -/
def dist (left right : Coordinate α) : α :=
  (left.separation right).norm

/-- Chordal distance on the sphere of diameter one. -/
def chordalDistance (left right : Coordinate α) : α :=
  left.normalized.dist right.normalized

/-! ## Directions -/

/-- Directions closer than this to the south pole are taken for it. -/
def southPoleRadius : α := 1e-5

/-- The point under a direction of the unit sphere.  The north pole shows zero.
The south pole, where the ratio degenerates, shows infinity. -/
def ofDirection (direction : Vec3 α) : Coordinate α :=
  let offset : Vec3 α := ⟨direction.x, direction.y, direction.z + 1⟩
  if offset.length < southPoleRadius then infinity
  else normalized ⟨⟨direction.x, direction.y⟩, ⟨1 + direction.z, 0⟩⟩

/-! ## Arithmetic -/

def add (left right : Coordinate α) : Coordinate α :=
  normalized
    ⟨(left.numerator.mul right.denominator).add (left.denominator.mul right.numerator),
      left.denominator.mul right.denominator⟩

def sub (left right : Coordinate α) : Coordinate α :=
  normalized
    ⟨(left.numerator.mul right.denominator).sub (left.denominator.mul right.numerator),
      left.denominator.mul right.denominator⟩

/-- Additive inverse, which has the length of its argument. -/
def neg (point : Coordinate α) : Coordinate α :=
  ⟨point.numerator.neg, point.denominator⟩

def mul (left right : Coordinate α) : Coordinate α :=
  normalized
    ⟨left.numerator.mul right.numerator, left.denominator.mul right.denominator⟩

def div (left right : Coordinate α) : Coordinate α :=
  normalized
    ⟨left.numerator.mul right.denominator, left.denominator.mul right.numerator⟩

/-- Multiplicative inverse. -/
def inv (point : Coordinate α) : Coordinate α :=
  ⟨point.denominator, point.numerator⟩

/-- Principal power.  Only the real part of the exponent counts.  A negative
exponent is applied to the inverse, so zero and infinity stay exact. -/
def pow (base exponent : Coordinate α) : Coordinate α :=
  let exponent := exponent.numerator.div exponent.denominator
  if exponent.re < 0 then
    let exponent := exponent.neg
    normalized ⟨base.denominator.pow exponent, base.numerator.pow exponent⟩
  else
    normalized ⟨base.numerator.pow exponent, base.denominator.pow exponent⟩

/-- A square root, taken of numerator and denominator. -/
def sqrt (point : Coordinate α) : Coordinate α :=
  normalized ⟨point.numerator.sqrt, point.denominator.sqrt⟩

/-- Relative size below which a component pair counts as zero. -/
def negligibleShare : α := 1e-6

/-- Whether the denominator counts as zero. -/
def nearInfinity (point : Coordinate α) : Bool :=
  point.denominator.norm < negligibleShare * point.norm

/-- Whether the numerator counts as zero. -/
def nearZero (point : Coordinate α) : Bool :=
  point.numerator.norm < negligibleShare * point.norm

/-- Apply a function of complex numbers.  Infinity is its own image. -/
def throughComplex (function : ComplexNumber α → ComplexNumber α)
    (point : Coordinate α) : Coordinate α :=
  if point.nearInfinity then infinity
  else ofComplex (function (point.numerator.div point.denominator))

def exp (point : Coordinate α) : Coordinate α :=
  point.throughComplex ComplexNumber.exp

/-- Principal logarithm, infinite at zero and at infinity. -/
def log (point : Coordinate α) : Coordinate α :=
  if point.nearZero then infinity else point.throughComplex ComplexNumber.log

def sin (point : Coordinate α) : Coordinate α :=
  point.throughComplex ComplexNumber.sin

def cos (point : Coordinate α) : Coordinate α :=
  point.throughComplex ComplexNumber.cos

end Coordinate

end Stereograph
