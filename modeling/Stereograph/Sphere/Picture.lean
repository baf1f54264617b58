import Stereograph.Sphere.Orbit

/-!
# Fates of orbits in the picture

The program that draws a sphere follows the orbit of every pixel in a loop of its own.
Its start is not rescaled, and it rescales the point before every test, but not the
point that it goes on with.  What `Orbit.fate` reports is meant to be what this loop
reports.
-/

namespace Stereograph

variable {α : Type} [Scalar α]

/-- Whether a point is so close to infinity that its orbit has escaped.  The point is
taken as it is, rescaled or not. -/
def Coordinate.hasEscaped (point : Coordinate α) : Bool :=
  point.dist .infinity < Orbit.escapeDistance

namespace Orbit

/-- Index of the first point that has escaped when it is rescaled, among the next
`count` points of an orbit. -/
def firstEscapeInPicture (step : Coordinate α → Coordinate α) :
    (count index : Nat) → Coordinate α → Option Nat
  | 0, _, _ => none
  | count + 1, index, point =>
      if point.normalized.hasEscaped then some index
      else firstEscapeInPicture step count (index + 1) (step point)

/-- How a loop over at most `bound` points counts its iterations and whether it saw an
escape. -/
def report (bound : UInt32) (escape : Option Nat) : UInt32 × Bool :=
  match escape with
  | some index => (index.toUInt32, true)
  | none => (bound, false)

/-- Iterations and escape of an orbit, as the picture shows it. -/
def fateInPicture (map : Coordinate α → Coordinate α → Coordinate α)
    (start parameter : Coordinate α) (bound : UInt32) : UInt32 × Bool :=
  report bound (firstEscapeInPicture (map · parameter) bound.toNat 0 start)

end Orbit

end Stereograph
