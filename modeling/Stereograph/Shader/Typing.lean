import Stereograph.Shader.Expression
import Stereograph.Shader.Primitives

/-!
# Types of shader expressions

An expression is well typed when every call in it fits a declaration of the library
or builds a vector from scalars.  A function may be declared once for complex numbers
and once for homogeneous coordinates, and the types of the arguments decide which
declaration is called.
-/

namespace Stereograph.Shader

/-- Type of the values that an arithmetic computes with. -/
def valueType : Arithmetic → ShaderType
  | .projective => .vec4
  | .affine => .vec2

/-- Result of a call with arguments of the given types. -/
def callType? (function : String) (arguments : List ShaderType) : Option ShaderType :=
  match function, arguments with
  | "vec2", [.scalar, .scalar] => some .vec2
  | "vec4", [.scalar, .scalar, .scalar, .scalar] => some .vec4
  | _, _ =>
      (declarations.find? fun declaration =>
        declaration.name == function &&
          declaration.parameters.map Parameter.type == arguments).map
        Declaration.result

/-- Type of some components of a homogeneous coordinate. -/
def componentsType? (letters : String) : Option ShaderType :=
  if letters.toList.all "xyzw".toList.contains then
    match letters.length with
    | 1 => some .scalar
    | 2 => some .vec2
    | 4 => some .vec4
    | _ => none
  else
    none

namespace Expression

mutual
/-- Type of an expression whose variables are homogeneous coordinates. -/
def type? : Expression → Option ShaderType
  | .reference _ => some .vec4
  | .number _ => some .scalar
  | .opposite operand => do
      let type ← operand.type?
      if type = .boolean then none else some type
  | .components vector letters => do
      match ← vector.type? with
      | .vec4 => componentsType? letters
      | _ => none
  | .sum left right => do
      let leftType ← left.type?
      let rightType ← right.type?
      if leftType = rightType ∧ leftType ≠ .boolean then some leftType else none
  | .quotient left right => do
      let leftType ← left.type?
      let rightType ← right.type?
      if leftType ≠ .boolean ∧ (rightType = leftType ∨ rightType = .scalar) then
        some leftType
      else
        none
  | .call function arguments => do callType? function (← types? arguments)
termination_by structural expression => expression

/-- Types of several expressions. -/
def types? : List Expression → Option (List ShaderType)
  | [] => some []
  | expression :: rest => do
      let type ← expression.type?
      let others ← types? rest
      some (type :: others)
termination_by structural expressions => expressions
end

end Expression

end Stereograph.Shader
