/-!
# Finite binary numbers

A finite floating-point number is a signed integer multiple of a power of two.
This module reads that pair from the stored bits, so decimal text is chosen by
integer arithmetic alone.  Around a number lies the interval of reals that round
to it; its ends are half a step away, and a quarter of a step below the smallest
mantissa, where the next lower numbers lie twice as dense.
-/

namespace Stereograph.Decimal

/-- The number `mantissa * 2 ^ exponent`, negated when `negative` holds. -/
structure Binary where
  negative : Bool
  mantissa : Nat
  exponent : Int
  deriving DecidableEq, Repr

/-- A nonnegative fraction with an explicit denominator. -/
structure Ratio where
  numerator : Nat
  denominator : Nat
  deriving DecidableEq, Repr

/-- The fraction measured in units of a power of ten. -/
def Ratio.inTens (ratio : Ratio) : (power : Int) → Ratio
  | .ofNat power => ⟨ratio.numerator, ratio.denominator * Nat.pow 10 power⟩
  | .negSucc power => ⟨ratio.numerator * Nat.pow 10 (power + 1), ratio.denominator⟩

namespace Binary

/-- Sign, mantissa and exponent of a finite value.  Infinities and the undefined
value have none. -/
def ofFloat? (value : Float) : Option Binary :=
  let bits : Nat := value.toBits.toNat
  let negative := bits.testBit 63
  let stored : Nat := bits / Nat.pow 2 52 % Nat.pow 2 11
  let fraction : Nat := bits % Nat.pow 2 52
  if stored = 2047 then none
  else if stored = 0 then some ⟨negative, fraction, -1074⟩
  else some ⟨negative, fraction + Nat.pow 2 52, stored - (1075 : Int)⟩

/-- The magnitude as a natural number, when it is one. -/
def natural? (number : Binary) : Option Nat :=
  match number.exponent with
  | .ofNat exponent => some (number.mantissa * Nat.pow 2 exponent)
  | .negSucc exponent =>
      if number.mantissa % Nat.pow 2 (exponent + 1) = 0 then
        some (number.mantissa / Nat.pow 2 (exponent + 1))
      else
        none

/-- A quarter of the step between the number and its successor. -/
def quarterStep (number : Binary) : Ratio :=
  match number.exponent - (2 : Int) with
  | .ofNat exponent => ⟨Nat.pow 2 exponent, 1⟩
  | .negSucc exponent => ⟨1, Nat.pow 2 (exponent + 1)⟩

/-- Distance, in quarter steps, to the lower end of the reals that round to the
number.  The smallest mantissa of a binade has a closer lower neighbour. -/
def lowerReach (number : Binary) : Nat :=
  if number.mantissa = Nat.pow 2 52 ∧ number.exponent ≠ -1074 then 1 else 2

/-- Whether the ends of the interval of reals that round to the number belong to
it.  Halfway cases round to the even mantissa. -/
def closed (number : Binary) : Bool :=
  number.mantissa % 2 == 0

/-- A power of ten that is above the magnitude by at most a factor of a
thousand. -/
def powerAbove (number : Binary) : Int :=
  (((number.mantissa.log2 : Int) + 1 + number.exponent) * 30103).fdiv 100000 + 2

end Binary

end Stereograph.Decimal
