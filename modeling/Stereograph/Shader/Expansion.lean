import Stereograph.Shader.Expression

/-!
# Full expansion of a formula

The expression that a formula would become if code could be of any length.  A whole
power is the chain of all its factors, however many there are, so an expansion is
stated here and never built by a program.  The code generator deals in text and
refuses what is too long on the way; its output is the text of an expansion.
-/

namespace Stereograph.Shader

/-- The vector of a constant. -/
def constantExpression : Arithmetic → Float → Expression
  | .projective, value =>
      .call "vec4" [.ofFloat value, .number 0, .number 1, .number 0]
  | .affine, value => .call "vec2" [.ofFloat value, .number 0]

/-- The expression of a symbol.  In affine arithmetic the parameter is the quotient
of a homogeneous coordinate. -/
def symbolExpression : Arithmetic → Symbol → Expression
  | .projective, .imaginaryUnit =>
      .call "vec4" [.number 0, .number 1, .number 1, .number 0]
  | .affine, .imaginaryUnit => .call "vec2" [.number 0, .number 1]
  | .projective, .parameter => .reference "c"
  | .affine, .parameter =>
      .quotient (.components (.reference "c") "xy")
        (.sum (.components (.reference "c") "w") (.components (.reference "c") "z"))
  | _, .iterate => .reference "z"

/-- Multiply an expression by a base `count` more times, from the left. -/
def chainExpression (name : String) (base : Expression) :
    (count : Nat) → (product : Expression) → Expression
  | 0, product => product
  | count + 1, product =>
      chainExpression name base count (.call name [product, base])

/-- The expression of a tree, of whatever length. -/
def expand (arithmetic : Arithmetic) : Formula → Except FormulaError Expression
  | .operation operator arguments =>
      match operator, arguments with
      | .negate, [inner] => do
          let inner ← expand arithmetic inner
          .ok (.call (operatorName arithmetic .negate) [inner])
      | .negate, arguments => .error (.arity .negate arguments.length)
      | .power, [base, exponent] => do
          let base ← expand arithmetic base
          match ← Exponent.ofFormula exponent with
          | .whole count =>
              .ok (chainExpression (operatorName arithmetic .multiply) base (count - 1)
                base)
          | .real value =>
              .ok (.call (operatorName arithmetic .power)
                [base, constantExpression arithmetic value])
      | operator, [left, right] => do
          let left ← expand arithmetic left
          let right ← expand arithmetic right
          .ok (.call (operatorName arithmetic operator) [left, right])
      | operator, arguments => .error (.arity operator arguments.length)
  | .call function argument =>
      match ElementaryFunction.named? function with
      | none => .error (.unsupportedFunction function)
      | some function => do
          let argument ← expand arithmetic argument
          .ok (.call (functionName function) [argument])
  | .symbol name =>
      match arithmetic.symbol? name with
      | some known => .ok (symbolExpression arithmetic known)
      | none => .error (.unknownSymbol name arithmetic)
  | .constant value =>
      if value.isFinite then .ok (constantExpression arithmetic value)
      else .error (.notFinite value)
termination_by structural formula => formula

end Stereograph.Shader
