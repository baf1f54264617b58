import Stereograph.Decimal.Binary

/-!
# Decimal numerals

A numeral is a natural number times a power of ten.  Three questions about it are
answered here by exact integer arithmetic: which numeral is the shortest that
reads back as a given number, which is the nearest with a fixed count of digits,
and which number a numeral denotes.

The shortest numeral comes from the coarsest grid of multiples of a power of ten
that has a point among the reals rounding to the number.  If any point of a grid
lies there, so does one of the number's two neighbours on that grid, and of two
such neighbours the nearer is taken.
-/

namespace Stereograph.Decimal

/-- The number `coefficient * 10 ^ exponent`. -/
structure Numeral where
  coefficient : Nat
  exponent : Int
  deriving DecidableEq, Repr

/-- Which of two equally near neighbours is taken. -/
inductive Tie where
  | toEven
  | upward
  deriving DecidableEq, Repr

/-- Whether a remainder of `twice / whole` halves is rounded up from `below`. -/
def Tie.roundsUp (tie : Tie) (below twice whole : Nat) : Bool :=
  if twice = whole then
    match tie with
    | .toEven => below % 2 = 1
    | .upward => true
  else
    whole < twice

namespace Binary

/-- The neighbour of a number on the grid of multiples of `10 ^ power` that rounds
to the number, the nearer one if both do. -/
def onGrid? (tie : Tie) (number : Binary) (power : Int) : Option Nat :=
  let quarter := number.quarterStep.inTens power
  let position := 4 * number.mantissa * quarter.numerator
  let lowest := (4 * number.mantissa - number.lowerReach) * quarter.numerator
  let highest := (4 * number.mantissa + 2) * quarter.numerator
  let below := position / quarter.denominator
  let within := fun (point : Nat) =>
    let position := point * quarter.denominator
    if number.closed then lowest ≤ position ∧ position ≤ highest
    else lowest < position ∧ position < highest
  let remainder := position % quarter.denominator
  if within below then
    if within (below + 1) ∧
        tie.roundsUp below (2 * remainder) quarter.denominator = true then
      some (below + 1)
    else
      some below
  else if within (below + 1) then
    some (below + 1)
  else
    none

/-- Try finer and finer grids.  A grid with eighteen significant digits always has
a point close enough, so the bound on the number of grids is never met. -/
def firstOnGrid (tie : Tie) (number : Binary) : (grids : Nat) → (power : Int) → Numeral
  | 0, power => ⟨0, power⟩
  | grids + 1, power =>
      match number.onGrid? tie power with
      | some coefficient => ⟨coefficient, power⟩
      | none => firstOnGrid tie number grids (power - 1)

/-- The numeral with the fewest digits that reads back as the number. -/
def shortest (tie : Tie) (number : Binary) : Numeral :=
  firstOnGrid tie number 24 number.powerAbove

/-- Round to the coarsest grid on which the number has at least `count` digits. -/
def nearestOnGrid (count : Nat) (number : Binary) :
    (grids : Nat) → (power : Int) → Numeral
  | 0, power => ⟨0, power⟩
  | grids + 1, power =>
      let quarter := number.quarterStep.inTens power
      let position := 4 * number.mantissa * quarter.numerator
      let below := position / quarter.denominator
      let remainder := position % quarter.denominator
      if below < Nat.pow 10 (count - 1) then
        nearestOnGrid count number grids (power - 1)
      else if Tie.toEven.roundsUp below (2 * remainder) quarter.denominator then
        ⟨below + 1, power⟩
      else
        ⟨below, power⟩

/-- The nearest numeral with `count` significant digits, halfway cases going to
the even coefficient. -/
def nearest (count : Nat) (number : Binary) : Numeral :=
  nearestOnGrid count number (count + 8) number.powerAbove

end Binary

namespace Numeral

/-- The number of decimal digits of the coefficient. -/
def digitCount (numeral : Numeral) : Nat :=
  (Nat.toDigits 10 numeral.coefficient).length

/-- The floating-point number nearest to the numeral, infinite when the numeral is
past the largest one.  A numeral whose leading digit stands beyond every finite
number, or below half of the smallest, is settled by its position. -/
def toFloat (numeral : Numeral) : Float :=
  let leading := numeral.exponent + numeral.digitCount
  if numeral.coefficient = 0 then 0
  else if 310 < leading then 1 / 0
  else if leading < -325 then 0
  else
    match numeral.exponent with
    | .ofNat exponent => Float.ofScientific numeral.coefficient false exponent
    | .negSucc exponent => Float.ofScientific numeral.coefficient true (exponent + 1)

/-- The natural number that a list of decimal digits writes. -/
def ofDigits (digits : List Char) : Nat :=
  digits.foldl (fun value digit => 10 * value + (digit.toNat - '0'.toNat)) 0

end Numeral

end Stereograph.Decimal
