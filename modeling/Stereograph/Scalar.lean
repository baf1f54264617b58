/-!
# Scalars

Every geometric definition of the library is written over one class of scalars.
It names the operations that sphere navigation needs and fixes nothing about how
they round, so the same definitions run on binary floating-point numbers and can
be read over exact arithmetic.

The comparisons follow the order of the carrier.  A floating-point carrier has
values that compare with nothing, so `¬ a < b` is weaker than `b ≤ a`, and the
definitions of the library are careful to ask the question they mean.
-/

namespace Stereograph

/-- Arithmetic, comparison and the elementary functions on one carrier. -/
class Scalar (α : Type) extends Add α, Sub α, Mul α, Div α, Neg α, Zero α, One α,
    LT α, LE α, BEq α, NatCast α, OfScientific α where
  decidableLT : DecidableLT α
  decidableLE : DecidableLE α
  /-- Whether a value is a number rather than an infinity or the result of an
  undefined operation. -/
  isFinite : α → Bool
  /-- The scalar denoted by a constant of a formula. -/
  ofFloat : Float → α
  abs : α → α
  sqrt : α → α
  sin : α → α
  cos : α → α
  tan : α → α
  sinh : α → α
  cosh : α → α
  exp : α → α
  /-- Natural logarithm. -/
  log : α → α
  /-- Logarithm to base two. -/
  log2 : α → α
  /-- The base raised to a real exponent. -/
  power : α → α → α
  /-- Angle of the point `(x, y)` seen from the origin; the ordinate comes
  first. -/
  angle : α → α → α
  /-- Distance from the largest integer that is not above the value. -/
  fract : α → α

attribute [reducible, instance] Scalar.decidableLT Scalar.decidableLE

namespace Scalar

/-- The larger of two scalars.  An operand that differs from itself is not a
number and is passed over. -/
def maximum {α : Type} [Scalar α] (left right : α) : α :=
  if right ≤ left then left
  else if right == right then right
  else left

end Scalar

/-- Distance of a floating-point number from the integer below it.  A negative
remainder is moved up by one, and a whole number keeps its sign on the zero. -/
def fractionalPart (value : Float) : Float :=
  let whole := if value < 0 then value.ceil else value.floor
  let remainder := value - whole
  if remainder < 0 then remainder + 1
  else if remainder == 0 then value * 0
  else remainder

instance : Scalar Float where
  zero := 0
  one := 1
  natCast := Float.ofNat
  decidableLT := inferInstance
  decidableLE := inferInstance
  isFinite := Float.isFinite
  ofFloat := id
  abs := Float.abs
  sqrt := Float.sqrt
  sin := Float.sin
  cos := Float.cos
  tan := Float.tan
  sinh := Float.sinh
  cosh := Float.cosh
  exp := Float.exp
  log := Float.log
  log2 := Float.log2
  power := Float.pow
  angle := Float.atan2
  fract := fractionalPart

end Stereograph
