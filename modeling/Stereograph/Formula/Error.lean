import Stereograph.Formula.Printer

/-!
# Why a formula is refused

Each constructor is one cause and keeps the construct that is to blame.  The
wording of all of them is in `FormulaError.message`.
-/

namespace Stereograph

/-- What is wrong with a text at one of its positions. -/
inductive ParseFault where
  /-- An expression has to start here. -/
  | expression
  /-- The right operand of an operator has to start here. -/
  | operand
  /-- A complete formula ends here, but the text goes on with a character. -/
  | unexpected (found : Char)
  /-- Signs, exponents, parentheses or the tree nest too deeply. -/
  | nesting
  deriving DecidableEq, Repr

/-- Wording of a fault. -/
def ParseFault.message : ParseFault → String
  | .expression => "expected an expression"
  | .operand => "expected operand"
  | .unexpected found => "unexpected `" ++ found.toString ++ "`"
  | .nesting =>
      "expected at most " ++ toString Formula.maximumNesting ++ " levels of nesting"

/-- The formulas that make up a program. -/
inductive ProgramPart where
  /-- The iterated map. -/
  | iteration
  /-- The point from which parameter orbits start. -/
  | criticalPoint
  /-- The parameter of the dynamical sphere. -/
  | parameter
  deriving DecidableEq, Repr

/-- The name by which messages call a part. -/
def ProgramPart.name : ProgramPart → String
  | .iteration => "f"
  | .criticalPoint => "critical point"
  | .parameter => "c"

/-- Why a formula could not be read, generated or evaluated. -/
inductive FormulaError where
  /-- The text has a fault at a byte offset. -/
  | malformed (offset : Nat) (fault : ParseFault)
  | unsupportedFunction (name : String)
  | unknownSymbol (name : String) (arithmetic : Arithmetic)
  | arity (operator : Operator) (found : Nat)
  /-- An exponent is neither a constant nor a negated constant. -/
  | variableExponent (exponent : Formula)
  | zeroExponent
  | codeTooLong
  | nestingTooDeep
  | notFinite (value : Float)
  | iterationBound
  /-- The error arose in one part of a program. -/
  | within (part : ProgramPart) (error : FormulaError)
  deriving Repr

namespace FormulaError

/-- Longest code fragment that is generated, in bytes. -/
def maximumCodeLength : Nat := 64 * 1024

/-- Greatest iteration bound, the largest signed integer of 32 bits. -/
def maximumIterations : Nat := Nat.pow 2 31 - 1

/-- Wording of an error. -/
def message : FormulaError → String
  | .malformed offset fault =>
      "syntax error at offset " ++ toString offset ++ ": " ++ fault.message
  | .unsupportedFunction name => "unsupported function `" ++ name ++ "`"
  | .unknownSymbol name arithmetic =>
      "unknown symbol `" ++ name ++ "` in " ++ arithmetic.name ++ " arithmetic"
  | .arity operator found =>
      "`" ++ operator.symbol ++ "` takes " ++ toString operator.arity ++
        " argument(s) but was given " ++ toString found
  | .variableExponent exponent =>
      "exponent `" ++ exponent.display ++ "` is not a constant"
  | .zeroExponent => "exponent 0 is not supported"
  | .codeTooLong =>
      "generated code is longer than " ++ toString maximumCodeLength ++ " bytes"
  | .nestingTooDeep =>
      "expression nests deeper than " ++ toString Formula.maximumNesting ++ " levels"
  | .notFinite value =>
      "constant " ++ Decimal.display value ++ " is not a finite number"
  | .iterationBound =>
      "iteration bound must be between 1 and " ++ toString maximumIterations
  | .within part error => "in " ++ part.name ++ ": " ++ error.message

/-- The innermost error, with the parts around it removed. -/
def innermost : FormulaError → FormulaError
  | .within _ error => error.innermost
  | error => error

end FormulaError

end Stereograph
