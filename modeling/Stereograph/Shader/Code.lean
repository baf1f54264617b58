import Stereograph.Formula.Exponent

/-!
# Shader code of a formula

A formula becomes one expression without side effects, made of calls to the
primitives of the shader library, vector literals and the symbols of its
arithmetic.  A whole power becomes a chain of multiplications in which the code of
its base stands once for every factor, so code gets long fast where powers nest.
Every piece has to keep to the length limit, and the length of a chain is known
before the chain is built.  It is counted in machine words, which stop at their
greatest value instead of starting again at zero.
-/

namespace Stereograph.Shader

/-- A number as a literal of the shading language, which needs a decimal point. -/
def literalText (value : Float) : String :=
  let text := Decimal.display value
  if text.any fun character => character == '.' || character == 'e' || character == 'E' then
    text
  else
    text ++ ".0"

/-- Start of the names of an arithmetic's operator primitives. -/
def stem : Arithmetic → String
  | .projective => "_p"
  | .affine => "_c"

/-- Code of a constant. -/
def constantCode (arithmetic : Arithmetic) (value : Float) : String :=
  match arithmetic with
  | .projective => "vec4(" ++ literalText value ++ ", 0.0, 1.0, 0.0)"
  | .affine => "vec2(" ++ literalText value ++ ", 0.0)"

/-- Code of a symbol.  The parameter is a homogeneous coordinate in the shader, so
affine code takes its quotient. -/
def symbolCode : Arithmetic → Symbol → String
  | .projective, .imaginaryUnit => "vec4(0.0, 1.0, 1.0, 0.0)"
  | .affine, .imaginaryUnit => "vec2(0.0, 1.0)"
  | .projective, .parameter => "c"
  | .affine, .parameter => "(c.xy / (c.w + c.z))"
  | _, .iterate => "z"

/-- Name of the primitive that implements an operator. -/
def operatorName (arithmetic : Arithmetic) (operator : Operator) : String :=
  stem arithmetic ++ operator.shaderName

/-- Name of the primitive that implements a function. -/
def functionName (function : ElementaryFunction) : String :=
  "_" ++ function.name

/-- Call of a primitive with one argument. -/
def callCode (name argument : String) : String :=
  name ++ "(" ++ argument ++ ")"

/-- Call of a primitive with two arguments. -/
def callCode₂ (name left right : String) : String :=
  name ++ "(" ++ left ++ ", " ++ right ++ ")"

/-- Accept a fragment unless it is too long. -/
def withinLimit (code : String) : Except FormulaError String :=
  if FormulaError.maximumCodeLength < code.utf8ByteSize then .error .codeTooLong
  else .ok code

/-- Multiply code by its base `count` more times, from the left. -/
def multiplyChain (name base : String) : (count : Nat) → (code : String) → String
  | 0, code => code
  | count + 1, code => multiplyChain name base count (callCode₂ name code base)

/-- The greatest word of 64 bits. -/
def maximumWord : Nat := Nat.pow 2 64 - 1

/-- Length of a chain that starts with a piece of a given size and gets longer `count`
times by the same step, counted in words.  A product or a sum that is no word is the
greatest word. -/
def chainLength (size step count : Nat) : Nat :=
  min (size + min (step * count) maximumWord) maximumWord

/-- Counting in words stops at the greatest word and is exact below it. -/
theorem chainLength_eq (size step count : Nat) (longer : 2 ≤ step) :
    chainLength size step (min count Exponent.maximumFactors - 1) =
      min (size + step * (count - 1)) maximumWord := by
  have same : Exponent.maximumFactors = maximumWord := rfl
  have several : 2 ≤ maximumWord := by decide
  rw [chainLength, same]
  generalize maximumWord = word at several
  rcases Nat.le_total count word with small | large
  · rw [Nat.min_eq_left small]
    omega
  · rw [Nat.min_eq_right large]
    have most : 2 * (word - 1) ≤ step * (word - 1) := Nat.mul_le_mul_right _ longer
    have more : step * (word - 1) ≤ step * (count - 1) :=
      Nat.mul_le_mul_left _ (Nat.sub_le_sub_right large 1)
    omega

/-- Product of `count` copies of a base, for a positive count that stops at its
greatest value as in an evaluation.  Each factor after the first adds the base, the name
of the product and four characters of punctuation. -/
def productCode (arithmetic : Arithmetic) (base : String) (count : Nat) :
    Except FormulaError String :=
  let name := operatorName arithmetic .multiply
  let step := name.utf8ByteSize + base.utf8ByteSize + 4
  let others := min count Exponent.maximumFactors - 1
  if FormulaError.maximumCodeLength < chainLength base.utf8ByteSize step others then
    .error .codeTooLong
  else
    .ok (multiplyChain name base others base)

/-- No chain passes the limit by being counted in words. -/
theorem productCode_eq (arithmetic : Arithmetic) (base : String) (count : Nat) :
    productCode arithmetic base count =
      if FormulaError.maximumCodeLength < base.utf8ByteSize +
          ((operatorName arithmetic .multiply).utf8ByteSize + base.utf8ByteSize + 4) *
            (count - 1) then
        .error .codeTooLong
      else
        .ok (multiplyChain (operatorName arithmetic .multiply) base (count - 1) base) := by
  have wide : FormulaError.maximumCodeLength + 1 < maximumWord := by decide
  have same : Exponent.maximumFactors = maximumWord := rfl
  have counted := chainLength_eq base.utf8ByteSize
    ((operatorName arithmetic .multiply).utf8ByteSize + base.utf8ByteSize + 4) count (by omega)
  rw [same] at counted
  simp only [productCode, same, counted]
  generalize maximumWord = word at wide
  have growth : count - 1 ≤ ((operatorName arithmetic .multiply).utf8ByteSize +
      base.utf8ByteSize + 4) * (count - 1) := Nat.le_mul_of_pos_left _ (by omega)
  generalize ((operatorName arithmetic .multiply).utf8ByteSize + base.utf8ByteSize + 4) *
    (count - 1) = added at *
  split
  · rw [if_pos (by omega)]
  · have small : min count word = count := by omega
    rw [if_neg (by omega), small]

/-- Code of a tree.  The recursion does not look at its depth. -/
def treeCode (arithmetic : Arithmetic) : Formula → Except FormulaError String
  | .operation operator arguments =>
      match operator, arguments with
      | .negate, [inner] => do
          let inner ← treeCode arithmetic inner
          withinLimit (callCode (operatorName arithmetic .negate) inner)
      | .negate, arguments => .error (.arity .negate arguments.length)
      | .power, [base, exponent] => do
          let base ← treeCode arithmetic base
          match ← Exponent.ofFormula exponent with
          | .whole count => productCode arithmetic base count
          | .real value =>
              withinLimit <| callCode₂ (operatorName arithmetic .power) base
                (constantCode arithmetic value)
      | operator, [left, right] => do
          let left ← treeCode arithmetic left
          let right ← treeCode arithmetic right
          withinLimit (callCode₂ (operatorName arithmetic operator) left right)
      | operator, arguments => .error (.arity operator arguments.length)
  | .call function argument =>
      match ElementaryFunction.named? function with
      | none => .error (.unsupportedFunction function)
      | some function => do
          let argument ← treeCode arithmetic argument
          withinLimit (callCode (functionName function) argument)
  | .symbol name =>
      match arithmetic.symbol? name with
      | some known => .ok (symbolCode arithmetic known)
      | none => .error (.unknownSymbol name arithmetic)
  | .constant value =>
      if value.isFinite then .ok (constantCode arithmetic value)
      else .error (.notFinite value)
termination_by structural formula => formula

/-- Code of a tree unless the tree is too deep. -/
def formulaCode (arithmetic : Arithmetic) (formula : Formula) :
    Except FormulaError String :=
  if Formula.maximumNesting < formula.depth then .error .nestingTooDeep
  else treeCode arithmetic formula

end Stereograph.Shader
