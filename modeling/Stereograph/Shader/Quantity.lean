import Stereograph.Formula.Value
import Stereograph.Shader.Typing

/-!
# Values of shader expressions

A shader computes with scalars and vectors.  Sums and quotients go component by
component, and a scalar divides every component of a vector.  The primitives compute on
pairs what they compute on complex numbers, and on quadruples what they compute on
homogeneous coordinates.  A quotient by zero has no value.
-/

namespace Stereograph.Shader

/-- A scalar, a pair or a quadruple. -/
inductive Quantity (α : Type) where
  | scalar (value : α)
  | vec2 (number : ComplexNumber α)
  | vec4 (point : Coordinate α)

namespace Quantity

variable {α : Type} [Scalar α]

/-- Apply an operation to every component. -/
def map (operation : α → α) : Quantity α → Quantity α
  | .scalar value => .scalar (operation value)
  | .vec2 number => .vec2 ⟨operation number.re, operation number.im⟩
  | .vec4 point => .vec4 (.ofComponents (point.components.map operation))

/-- Join two quantities of one type component by component. -/
def zip? (operation : α → α → Option α) : Quantity α → Quantity α → Option (Quantity α)
  | .scalar left, .scalar right => do
      let value ← operation left right
      some (.scalar value)
  | .vec2 left, .vec2 right => do
      let re ← operation left.re right.re
      let im ← operation left.im right.im
      some (.vec2 ⟨re, im⟩)
  | .vec4 left, .vec4 right => do
      let x ← operation left.components.x right.components.x
      let y ← operation left.components.y right.components.y
      let z ← operation left.components.z right.components.z
      let w ← operation left.components.w right.components.w
      some (.vec4 (.ofComponents ⟨x, y, z, w⟩))
  | _, _ => none

/-- Quotient of two quantities of one type, or of any quantity by a scalar. -/
def quotient? (left right : Quantity α) : Option (Quantity α) :=
  let divisor := match right with
    | .scalar value => left.map fun _ => value
    | vector => vector
  left.zip? (fun dividend divisor =>
    if divisor == 0 then none else some (dividend / divisor)) divisor

/-- The component that a letter names. -/
def component? (point : Coordinate α) : (letter : Char) → Option α
  | 'x' => some point.numerator.re
  | 'y' => some point.numerator.im
  | 'z' => some point.denominator.re
  | 'w' => some point.denominator.im
  | _ => none

/-- Some components of a quadruple. -/
def select? (point : Coordinate α) (letters : String) : Option (Quantity α) := do
  match ← letters.toList.mapM (component? point) with
  | [value] => some (.scalar value)
  | [x, y] => some (.vec2 ⟨x, y⟩)
  | [x, y, z, w] => some (.vec4 ⟨⟨x, y⟩, ⟨z, w⟩⟩)
  | _ => none

/-- Value of a call.  The types of the arguments decide which primitive is meant. -/
def call? (function : String) : (arguments : List (Quantity α)) → Option (Quantity α)
  | [.vec2 argument] => do
      let operation ← Expression.unary? .affine (.affine .zero) function
      some (.vec2 (operation argument))
  | [.vec4 argument] => do
      let operation ← Expression.unary? .projective (.projective .zero .zero) function
      some (.vec4 (operation argument))
  | [.vec2 left, .vec2 right] => do
      let operation ← Expression.binary? .affine (.affine .zero) function
      some (.vec2 (operation left right))
  | [.vec4 left, .vec4 right] => do
      let operation ← Expression.binary? .projective (.projective .zero .zero) function
      some (.vec4 (operation left right))
  | [.scalar x, .scalar y] => if function = "vec2" then some (.vec2 ⟨x, y⟩) else none
  | [.scalar x, .scalar y, .scalar z, .scalar w] =>
      if function = "vec4" then some (.vec4 ⟨⟨x, y⟩, ⟨z, w⟩⟩) else none
  | _ => none

end Quantity

namespace Expression

variable {α : Type} [Scalar α] (iterate parameter : Coordinate α)

mutual
/-- Value of an expression at a point and a parameter. -/
def quantity? : Expression → Option (Quantity α)
  | .reference name =>
      match name with
      | "z" => some (.vec4 iterate)
      | "c" => some (.vec4 parameter)
      | _ => none
  | .number magnitude => some (.scalar (Scalar.ofFloat magnitude))
  | .opposite operand => do
      let value ← operand.quantity?
      some (value.map (- ·))
  | .components vector letters => do
      match ← vector.quantity? with
      | .vec4 point => Quantity.select? point letters
      | _ => none
  | .sum left right => do
      let leftValue ← left.quantity?
      let rightValue ← right.quantity?
      leftValue.zip? (fun first second => some (first + second)) rightValue
  | .quotient left right => do
      let leftValue ← left.quantity?
      let rightValue ← right.quantity?
      leftValue.quotient? rightValue
  | .call function arguments => do Quantity.call? function (← quantities? arguments)
termination_by structural expression => expression

/-- Values of several expressions. -/
def quantities? : List Expression → Option (List (Quantity α))
  | [] => some []
  | expression :: rest => do
      let value ← expression.quantity?
      let others ← quantities? rest
      some (value :: others)
termination_by structural expressions => expressions
end

end Expression

end Stereograph.Shader
