import Stereograph.Formula.Value

/-!
# Cores of formulas

A negation changes the sign of a value and a first power changes nothing.  Neither
computes with the value, so a formula made of them takes over the value of its core.
-/

namespace Stereograph.Formula

/-- What is left of a formula without its negations and first powers. -/
def core : Formula → Formula
  | .operation operator arguments =>
      match operator, arguments with
      | .negate, [inner] => inner.core
      | .power, [base, exponent] =>
          match Exponent.ofFormula exponent with
          | .ok (.whole 1) => base.core
          | _ => .operation .power [base, exponent]
      | operator, arguments => .operation operator arguments
  | .call function argument => .call function argument
  | .symbol name => .symbol name
  | .constant value => .constant value
termination_by structural formula => formula

/-- The value, up to its sign, of a formula that takes over a constant or the parameter.
Nothing rescales it. -/
def fixedValue? {α : Type} [Scalar α] (parameter : Coordinate α) (formula : Formula) :
    Option (Coordinate α) :=
  match formula.core with
  | .constant value => some (.constant (Scalar.ofFloat value))
  | .symbol name =>
      match Arithmetic.projective.symbol? name with
      | some .parameter => some parameter
      | _ => none
  | _ => none

end Stereograph.Formula
