import Stereograph.Sphere.Coordinate

/-!
# Fates of orbits

An orbit escapes when it comes close to infinity.  The count of steps until then,
smoothed by how close it came, chooses a color from a cyclic palette.
-/

namespace Stereograph

/-- What became of an orbit. -/
structure OrbitFate (α : Type) where
  /-- Index of the first escaped point, or the bound on the iterations. -/
  iterations : UInt32
  escaped : Bool
  /-- Position in the palette, zero for an orbit that stays. -/
  shade : α
  deriving DecidableEq, Repr

namespace Orbit

variable {α : Type} [Scalar α]

/-- A point closer to infinity than this has escaped. -/
def escapeDistance : α := 1e-3

/-- Iterations for one cycle through the palette. -/
def cycleLength : α := 64.0

/-- Number of entries of the palette. -/
def paletteEntries : Nat := 512

/-- Smallest distance that is told apart from infinity itself, the least normal
floating-point number. -/
def minimumDistance : α := 2.2250738585072014e-308

/-- Smoothed position in the palette of an orbit that came within a distance of
infinity. -/
def shade (iterations : Nat) (distance : α) : α :=
  let distance := Scalar.maximum distance minimumDistance
  let smooth := (iterations : α) - Scalar.log2 (-Scalar.log distance)
  Scalar.fract (smooth / cycleLength)

/-- Coordinate of a palette position in the palette's texture, in the middle of a
texel. -/
def textureCoordinate (shade : α) : α :=
  let size := (paletteEntries : α)
  ((size - 1) * shade + 0.5) / size

/-- Index and distance of the first escaped point among the next `count` points of
an orbit, whose first point has the given index. -/
def firstEscape (step : Coordinate α → Coordinate α) :
    (count index : Nat) → Coordinate α → Option (Nat × α)
  | 0, _, _ => none
  | count + 1, index, point =>
      let reached := point.dist .infinity
      if reached < escapeDistance then some (index, reached)
      else firstEscape step count (index + 1) (step point)

/-- The point of an orbit with a given index. -/
def point (step : Coordinate α → Coordinate α) (start : Coordinate α) :
    (index : Nat) → Coordinate α
  | 0 => start
  | index + 1 => step (point step start index)

/-- Follow an orbit until it escapes or has made as many steps as it may. -/
def fate (map : Coordinate α → Coordinate α → Coordinate α)
    (start parameter : Coordinate α) (bound : UInt32) : OrbitFate α :=
  match firstEscape (map · parameter) bound.toNat 0 start.normalized with
  | some (index, reached) => ⟨index.toUInt32, true, shade index reached⟩
  | none => ⟨bound, false, 0⟩

end Orbit

end Stereograph
