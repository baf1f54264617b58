import Stereograph.Formula.Token
import Stereograph.Shader.Expression

/-!
# Grammar of shader expressions

The part of the shading language's grammar that generated code uses, as a relation
between texts and expressions.  Quotients bind tighter than sums, a sign tighter
than both and the selection of components tightest.  Sums and quotients associate
to the left.  Blanks may stand in front of every phrase and after it.
-/

namespace Stereograph.Shader

/-- The kinds of phrases, loosest binding first. -/
inductive Phrase where
  | sum
  | quotient
  /-- A selection with any number of signs in front. -/
  | signed
  /-- A primary phrase with any number of selections after it. -/
  | selection
  | primary
  deriving DecidableEq, Repr

/-- The text of a literal with a decimal point and its value. -/
def IsLiteral (text : List Char) (value : Float) : Prop :=
  '.' ∈ text ∧ ∃ literal, Decimal.Literal.read? text = some literal ∧
    literal.length = text.length ∧ literal.numeral.toFloat = value

mutual
/-- The expressions that texts derive. -/
inductive Derives : Phrase → List Char → Expression → Prop where
  | blankBefore {phrase text expression} :
      Derives phrase text expression →
      Derives phrase (' ' :: text) expression
  | blankAfter {phrase text expression} :
      Derives phrase text expression →
      Derives phrase (text ++ [' ']) expression
  | quotient {text expression} :
      Derives .quotient text expression →
      Derives .sum text expression
  | add {leftText rightText left right} :
      Derives .sum leftText left →
      Derives .quotient rightText right →
      Derives .sum (leftText ++ '+' :: rightText) (.sum left right)
  | signed {text expression} :
      Derives .signed text expression →
      Derives .quotient text expression
  | divide {leftText rightText left right} :
      Derives .quotient leftText left →
      Derives .signed rightText right →
      Derives .quotient (leftText ++ '/' :: rightText) (.quotient left right)
  | selection {text expression} :
      Derives .selection text expression →
      Derives .signed text expression
  | opposite {text operand} :
      Derives .signed text operand →
      Derives .signed ('-' :: text) (.opposite operand)
  | primary {text expression} :
      Derives .primary text expression →
      Derives .selection text expression
  | select {text vector letters} :
      Derives .selection text vector →
      Formula.IsName letters →
      Derives .selection (text ++ '.' :: letters.toList) (.components vector letters)
  | reference {name} :
      Formula.IsName name →
      Derives .primary name.toList (.reference name)
  | number {text value} :
      IsLiteral text value →
      Derives .primary text (.number value)
  | parenthesized {text expression} :
      Derives .sum text expression →
      Derives .primary ('(' :: text ++ [')']) expression
  | call {name text arguments} :
      Formula.IsName name →
      DerivesAll text arguments →
      Derives .primary (name.toList ++ '(' :: text ++ [')']) (.call name arguments)

/-- The lists of expressions that texts derive, separated by commas. -/
inductive DerivesAll : List Char → List Expression → Prop where
  | one {text expression} :
      Derives .sum text expression →
      DerivesAll text [expression]
  | more {text rest expression others} :
      Derives .sum text expression →
      DerivesAll rest others →
      DerivesAll (text ++ ',' :: rest) (expression :: others)
end

end Stereograph.Shader
