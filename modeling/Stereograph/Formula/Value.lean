import Stereograph.Formula.Evaluator
import Stereograph.Sphere.Coordinate

/-!
# Numbers as values of formulas

Formulas are evaluated in homogeneous coordinates, where both symbols are bound, or
in complex numbers, where the iterated point has no value.
-/

namespace Stereograph

variable {α : Type} [Scalar α]

namespace Interpretation

/-- Meaning of formulas in homogeneous coordinates. -/
def projective (iterate parameter : Coordinate α) : Interpretation (Coordinate α) where
  constant value := .constant (Scalar.ofFloat value)
  symbol
    | .imaginaryUnit => .imaginaryUnit
    | .iterate => iterate
    | .parameter => parameter
  add := .add
  subtract := .sub
  negate := .neg
  multiply := .mul
  divide := .div
  power := .pow
  function
    | .sqrt => .sqrt
    | .exp => .exp
    | .log => .log
    | .sin => .sin
    | .cos => .cos

/-- Meaning of formulas in complex numbers.  No formula of affine arithmetic reads
the iterated point. -/
def affine (parameter : ComplexNumber α) : Interpretation (ComplexNumber α) where
  constant value := .real (Scalar.ofFloat value)
  symbol
    | .imaginaryUnit => .imaginaryUnit
    | .iterate => .zero
    | .parameter => parameter
  add := .add
  subtract := .sub
  negate := .neg
  multiply := .mul
  divide := .div
  power := .pow
  function
    | .sqrt => .sqrt
    | .exp => .exp
    | .log => .log
    | .sin => .sin
    | .cos => .cos

end Interpretation

namespace Formula

/-- Value of a formula at a point and a parameter. -/
def pointValue (formula : Formula) (iterate parameter : Coordinate α) :
    Except FormulaError (Coordinate α) :=
  formula.value .projective (.projective iterate parameter)

/-- Value of a formula at a complex parameter. -/
def numberValue (formula : Formula) (parameter : ComplexNumber α) :
    Except FormulaError (ComplexNumber α) :=
  formula.value .affine (.affine parameter)

/-- The map of a formula, with infinity where it has no value. -/
def toMap (formula : Formula) (iterate parameter : Coordinate α) : Coordinate α :=
  match formula.pointValue iterate parameter with
  | .ok value => value
  | .error _ => .infinity

/-- The points that a formula reaches from a starting point, unless one has no
value. -/
def orbit? (formula : Formula) (parameter : Coordinate α) :
    (count : Nat) → (start : Coordinate α) → Except FormulaError (List (Coordinate α))
  | 0, _ => .ok []
  | count + 1, start => do
      let next ← formula.pointValue start parameter
      let rest ← orbit? formula parameter count next
      .ok (next :: rest)

end Formula

end Stereograph
