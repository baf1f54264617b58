import Stereograph.Formula.Basic
import Stereograph.Formula.Token

/-!
# Grammar of formulas

The language of formulas as a relation between tokens and trees, without reference
to the way in which it is read.  The grammar has one derivation at most for each
list of tokens: a caret after a factor next to a number belongs to the factor, and a
name in front of a parenthesis is the function of a call.

Every phrase has a number of levels.  A sign, an exponent and a parenthesis use up
one level each on the way to the unary phrases that they enclose, and a unary phrase
needs a level for itself.
-/

namespace Stereograph.Formula

/-- The kinds of phrases, loosest binding first. -/
inductive Phrase where
  /-- Products joined by plus and minus signs. -/
  | sum
  /-- Unary phrases joined by multiplication and division signs. -/
  | product
  /-- A power with any number of signs in front. -/
  | unary
  /-- A base and perhaps an exponent, in which numbers are allowed. -/
  | power
  /-- A base and perhaps an exponent, as it may follow a number. -/
  | factor
  /-- A name, a call or a sum in parentheses. -/
  | primary
  deriving DecidableEq, Repr

/-- The trees that phrases derive.  Operators of one precedence associate to the
left and the exponent of a power is a unary phrase. -/
inductive Derives : (levels : Nat) → Phrase → List Token → Formula → Prop where
  | product {levels tokens formula} :
      Derives levels .product tokens formula →
      Derives levels .sum tokens formula
  | add {levels leftTokens rightTokens left right} :
      Derives levels .sum leftTokens left →
      Derives levels .product rightTokens right →
      Derives levels .sum (leftTokens ++ .plus :: rightTokens)
        (.operation .add [left, right])
  | subtract {levels leftTokens rightTokens left right} :
      Derives levels .sum leftTokens left →
      Derives levels .product rightTokens right →
      Derives levels .sum (leftTokens ++ .minus :: rightTokens)
        (.operation .subtract [left, right])
  | unary {levels tokens formula} :
      Derives levels .unary tokens formula →
      Derives levels .product tokens formula
  | multiply {levels leftTokens rightTokens left right} :
      Derives levels .product leftTokens left →
      Derives levels .unary rightTokens right →
      Derives levels .product (leftTokens ++ .times :: rightTokens)
        (.operation .multiply [left, right])
  | divide {levels leftTokens rightTokens left right} :
      Derives levels .product leftTokens left →
      Derives levels .unary rightTokens right →
      Derives levels .product (leftTokens ++ .over :: rightTokens)
        (.operation .divide [left, right])
  | negate {levels tokens formula} :
      Derives levels .unary tokens formula →
      Derives (levels + 1) .unary (.minus :: tokens) (.operation .negate [formula])
  | plus {levels tokens formula} :
      Derives levels .unary tokens formula →
      Derives (levels + 1) .unary (.plus :: tokens) formula
  | unsigned {levels tokens formula} :
      Derives levels .power tokens formula →
      Derives (levels + 1) .unary tokens formula
  | number {levels value} :
      Derives levels .power [.number value] (.constant value)
  | numberPower {levels value tokens exponent} :
      Derives levels .unary tokens exponent →
      Derives levels .power (.number value :: .caret :: tokens)
        (.operation .power [.constant value, exponent])
  | scaled {levels value tokens factor} :
      Derives levels .factor tokens factor →
      Derives levels .power (.number value :: tokens)
        (.operation .multiply [.constant value, factor])
  | unscaled {levels tokens formula} :
      Derives levels .factor tokens formula →
      Derives levels .power tokens formula
  | primary {levels tokens formula} :
      Derives levels .primary tokens formula →
      Derives levels .factor tokens formula
  | primaryPower {levels baseTokens exponentTokens base exponent} :
      Derives levels .primary baseTokens base →
      Derives levels .unary exponentTokens exponent →
      Derives levels .factor (baseTokens ++ .caret :: exponentTokens)
        (.operation .power [base, exponent])
  | symbol {levels name} :
      Derives levels .primary [.name name] (.symbol name)
  | call {levels name tokens argument} :
      Derives levels .sum tokens argument →
      Derives levels .primary (.name name :: .opening :: tokens ++ [.closing])
        (.call name argument)
  | parenthesized {levels tokens formula} :
      Derives levels .sum tokens formula →
      Derives levels .primary (.opening :: tokens ++ [.closing]) formula

end Stereograph.Formula
