import Stereograph.Formula.Evaluator
import Stereograph.Shader.Code

/-!
# Expressions of the shading language

The code of a formula is one expression of the shading language.  This module says
what such expressions are, how they are written and what they mean, without
reference to formulas.  An expression has a value where it consists of calls to
primitives, of vectors that stand for constants and of the symbols' code; any other
expression has none.
-/

namespace Stereograph.Shader

/-- An expression of the shading language. -/
inductive Expression where
  | reference (name : String)
  /-- A literal.  Literals carry no sign. -/
  | number (magnitude : Float)
  | opposite (operand : Expression)
  /-- Some components of a vector, each named by one letter. -/
  | components (vector : Expression) (letters : String)
  | sum (left right : Expression)
  | quotient (left right : Expression)
  | call (function : String) (arguments : List Expression)
  deriving Repr

namespace Expression

mutual
/-- Text of an expression.  Sums and quotients stand in parentheses. -/
def write : Expression → String
  | .reference name => name
  | .number magnitude => literalText magnitude
  | .opposite operand => "-" ++ operand.write
  | .components vector letters => vector.write ++ "." ++ letters
  | .sum left right => "(" ++ left.write ++ " + " ++ right.write ++ ")"
  | .quotient left right => "(" ++ left.write ++ " / " ++ right.write ++ ")"
  | .call function arguments =>
      function ++ "(" ++ ", ".intercalate (writeAll arguments) ++ ")"
termination_by structural expression => expression

/-- Texts of several expressions. -/
def writeAll : List Expression → List String
  | [] => []
  | expression :: rest => expression.write :: writeAll rest
termination_by structural expressions => expressions
end

mutual
/-- The variables that an expression reads. -/
def references : Expression → List String
  | .reference name => [name]
  | .number _ => []
  | .opposite operand => operand.references
  | .components vector _ => vector.references
  | .sum left right => left.references ++ right.references
  | .quotient left right => left.references ++ right.references
  | .call _ arguments => allReferences arguments
termination_by structural expression => expression

/-- The variables that several expressions read. -/
def allReferences : List Expression → List String
  | [] => []
  | expression :: rest => expression.references ++ allReferences rest
termination_by structural expressions => expressions
end

/-- The number of a literal with an optional sign. -/
def literal? : Expression → Option Float
  | .number magnitude => some magnitude
  | .opposite (.number magnitude) => some (-magnitude)
  | _ => none

/-- A number as a literal with an optional sign. -/
def ofFloat (value : Float) : Expression :=
  if value.toBits.toNat.testBit 63 then .opposite (.number (-value)) else .number value

/-- The constant or symbol that a vector with literal components stands for. -/
def vectorValue? {ν : Type} (arithmetic : Arithmetic) (meaning : Interpretation ν)
    (function : String) (literals : List Float) : Option ν :=
  match arithmetic, function, literals with
  | .projective, "vec4", [x, y, z, w] =>
      if y = 0 ∧ z = 1 ∧ w = 0 then some (meaning.constant x)
      else if x = 0 ∧ y = 1 ∧ z = 1 ∧ w = 0 then some (meaning.symbol .imaginaryUnit)
      else none
  | .affine, "vec2", [x, y] =>
      if y = 0 then some (meaning.constant x)
      else if x = 0 ∧ y = 1 then some (meaning.symbol .imaginaryUnit)
      else none
  | _, _, _ => none

/-- What a primitive of one argument computes. -/
def unary? {ν : Type} (arithmetic : Arithmetic) (meaning : Interpretation ν)
    (name : String) : Option (ν → ν) :=
  if name = operatorName arithmetic .negate then some meaning.negate
  else
    (ElementaryFunction.all.find? fun function => functionName function == name).map
      meaning.function

/-- What a primitive of two arguments computes. -/
def binary? {ν : Type} (arithmetic : Arithmetic) (meaning : Interpretation ν)
    (name : String) : Option (ν → ν → ν) :=
  if name = operatorName arithmetic .add then some meaning.add
  else if name = operatorName arithmetic .subtract then some meaning.subtract
  else if name = operatorName arithmetic .multiply then some meaning.multiply
  else if name = operatorName arithmetic .divide then some meaning.divide
  else if name = operatorName arithmetic .power then some meaning.power
  else none

/-- Value of an expression under an interpretation of constants, symbols and
primitives.  Affine code reads the parameter, a homogeneous coordinate, as a
quotient. -/
def denote {ν : Type} (arithmetic : Arithmetic) (meaning : Interpretation ν) :
    Expression → Option ν
  | .reference name =>
      match arithmetic, name with
      | .projective, "c" => some (meaning.symbol .parameter)
      | .projective, "z" => some (meaning.symbol .iterate)
      | _, _ => none
  | .quotient (.components (.reference "c") "xy")
      (.sum (.components (.reference "c") "w") (.components (.reference "c") "z")) =>
      match arithmetic with
      | .affine => some (meaning.symbol .parameter)
      | .projective => none
  | .call function arguments =>
      match arguments.mapM literal? with
      | some literals => vectorValue? arithmetic meaning function literals
      | none =>
          match arguments with
          | [argument] => do
              let operation ← unary? arithmetic meaning function
              some (operation (← argument.denote arithmetic meaning))
          | [left, right] => do
              let operation ← binary? arithmetic meaning function
              some (operation (← left.denote arithmetic meaning)
                (← right.denote arithmetic meaning))
          | _ => none
  | _ => none
termination_by structural expression => expression

end Expression

end Stereograph.Shader
