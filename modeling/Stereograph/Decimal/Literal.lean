import Stereograph.Decimal.Numeral

/-!
# Unsigned decimal literals

A literal has digits with an optional point among or around them, at least one
digit on one side of it, and an optional exponent.  Reading takes the longest
literal at the front of a text.  An exponent mark that no digit follows is not
part of the literal.
-/

namespace Stereograph.Decimal

/-- A numeral read from the front of a text, and the number of characters that it
takes up. -/
structure Literal where
  numeral : Numeral
  length : Nat
  deriving DecidableEq, Repr

namespace Literal

/-- The exponent at the front of a text, with the number of characters it takes
up.  Without a digit there is none. -/
def exponentOf : List Char → Int × Nat
  | mark :: rest =>
      if mark = 'e' ∨ mark = 'E' then
        let (negative, unsigned) := match rest with
          | '-' :: rest => (true, rest)
          | '+' :: rest => (false, rest)
          | rest => (false, rest)
        let digits := unsigned.takeWhile Char.isDigit
        if digits.isEmpty then (0, 0)
        else
          let magnitude : Int := Numeral.ofDigits digits
          (if negative then -magnitude else magnitude,
            1 + (rest.length - unsigned.length) + digits.length)
      else
        (0, 0)
  | [] => (0, 0)

/-- The literal with the given digits before and after the point, `size`
characters long without the exponent that may open `rest`. -/
def assemble (whole fraction : List Char) (size : Nat) (rest : List Char) : Literal :=
  let (exponent, exponentSize) := exponentOf rest
  ⟨⟨Numeral.ofDigits (whole ++ fraction), exponent - fraction.length⟩,
    size + exponentSize⟩

/-- The longest literal at the front of a text. -/
def read? (text : List Char) : Option Literal :=
  let whole := text.takeWhile Char.isDigit
  match text.dropWhile Char.isDigit with
  | '.' :: rest =>
      let fraction := rest.takeWhile Char.isDigit
      if whole.isEmpty && fraction.isEmpty then none
      else some <| assemble whole fraction (whole.length + 1 + fraction.length)
        (rest.dropWhile Char.isDigit)
  | rest =>
      if whole.isEmpty then none
      else some <| assemble whole [] whole.length rest

end Literal

/-- The number nearest to a signed decimal text, or one of the names of the values
that are not numbers. -/
def read? (text : String) : Option Float :=
  let unsigned (text : List Char) : Option Float := do
    if String.ofList text = "inf" then return 1 / 0
    let literal ← Literal.read? text
    if literal.length = text.length then some literal.numeral.toFloat else none
  match text.toList with
  | ['n', 'a', 'n'] => some (0 / 0)
  | '-' :: rest => (unsigned rest).map (-·)
  | rest => unsigned rest

end Stereograph.Decimal
