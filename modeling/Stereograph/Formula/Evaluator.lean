import Stereograph.Formula.Exponent

/-!
# Value of a formula

The value of a formula is computed under an interpretation of its constants,
symbols and primitives in any type of values.  Arguments are evaluated from left
to right and the first error is the answer.  An operator with a wrong number of
arguments is refused before any of them is looked at, and an exponent is
classified after its base has a value.
-/

namespace Stereograph

/-- Meaning of everything that a formula is built from. -/
structure Interpretation (ν : Type) where
  constant : Float → ν
  symbol : Symbol → ν
  add : ν → ν → ν
  subtract : ν → ν → ν
  negate : ν → ν
  multiply : ν → ν → ν
  divide : ν → ν → ν
  power : ν → ν → ν
  function : ElementaryFunction → ν → ν

namespace Formula

/-- Evaluate a tree.  The recursion does not look at its depth. -/
def eval {ν : Type} (arithmetic : Arithmetic) (meaning : Interpretation ν) :
    Formula → Except FormulaError ν
  | .operation operator arguments =>
      match operator, arguments with
      | .negate, [inner] => do
          let inner ← inner.eval arithmetic meaning
          .ok (meaning.negate inner)
      | .power, [base, exponent] => do
          let base ← base.eval arithmetic meaning
          match ← Exponent.ofFormula exponent with
          | .whole count =>
              .ok (wholePower meaning.multiply base (min count Exponent.maximumFactors))
          | .real value => .ok (meaning.power base (meaning.constant value))
      | .add, [left, right] => do
          let left ← left.eval arithmetic meaning
          let right ← right.eval arithmetic meaning
          .ok (meaning.add left right)
      | .subtract, [left, right] => do
          let left ← left.eval arithmetic meaning
          let right ← right.eval arithmetic meaning
          .ok (meaning.subtract left right)
      | .multiply, [left, right] => do
          let left ← left.eval arithmetic meaning
          let right ← right.eval arithmetic meaning
          .ok (meaning.multiply left right)
      | .divide, [left, right] => do
          let left ← left.eval arithmetic meaning
          let right ← right.eval arithmetic meaning
          .ok (meaning.divide left right)
      | operator, arguments => .error (.arity operator arguments.length)
  | .call function argument =>
      match ElementaryFunction.named? function with
      | none => .error (.unsupportedFunction function)
      | some function => do
          let argument ← argument.eval arithmetic meaning
          .ok (meaning.function function argument)
  | .symbol name =>
      match arithmetic.symbol? name with
      | some known => .ok (meaning.symbol known)
      | none => .error (.unknownSymbol name arithmetic)
  | .constant value =>
      if value.isFinite then .ok (meaning.constant value) else .error (.notFinite value)
termination_by structural formula => formula

/-- Evaluate a tree unless it is too deep. -/
def value {ν : Type} (arithmetic : Arithmetic) (meaning : Interpretation ν)
    (formula : Formula) : Except FormulaError ν :=
  if maximumNesting < formula.depth then .error .nestingTooDeep
  else formula.eval arithmetic meaning

end Formula

end Stereograph
