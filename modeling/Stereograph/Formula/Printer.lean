import Stereograph.Decimal.Layout
import Stereograph.Formula.Basic

/-!
# Text of a formula

Every operator application is written in parentheses, so the text shows the tree
without a rule of precedence.  An operator with an unusual number of arguments is
written like a call of its primitive.
-/

namespace Stereograph.Formula

mutual
/-- The fully parenthesized text of a tree. -/
def display : Formula → String
  | .operation operator arguments =>
      match arguments with
      | [inner] => "(" ++ operator.symbol ++ inner.display ++ ")"
      | [left, right] =>
          "(" ++ left.display ++ " " ++ operator.symbol ++ " " ++ right.display ++ ")"
      | arguments =>
          operator.shaderName ++ "(" ++ ", ".intercalate (displays arguments) ++ ")"
  | .call function argument => function ++ "(" ++ argument.display ++ ")"
  | .symbol name => name
  | .constant value => Decimal.display value
termination_by structural formula => formula

/-- The texts of several trees. -/
def displays : List Formula → List String
  | [] => []
  | formula :: rest => formula.display :: displays rest
termination_by structural formulas => formulas
end

end Stereograph.Formula
