import Stereograph.Decimal.Numeral

/-!
# Decimal text

The texts in which the library writes numbers.  All of them write the same digits
and differ in where the point stands and whether an exponent follows.

* `display` never uses an exponent.
* `exponential` always uses one.
* `significant` rounds to a fixed count of digits and always uses an exponent.
-/

namespace Stereograph.Decimal

/-- The digits of a positive number without trailing zeros.  The first digit
counts `10 ^ magnitude`. -/
structure Digits where
  digits : List Char
  magnitude : Int
  deriving DecidableEq, Repr

namespace Digits

/-- Digits of a numeral, its trailing zeros dropped. -/
def ofNumeral (numeral : Numeral) : Digits :=
  let digits := Nat.toDigits 10 numeral.coefficient
  ⟨(digits.reverse.dropWhile (· == '0')).reverse,
    numeral.exponent + digits.length - 1⟩

/-- The digits before and after the decimal point.  A number below one has no
digit before it. -/
def split (number : Digits) : List Char × List Char :=
  match number.magnitude with
  | .ofNat magnitude =>
      let whole := magnitude + 1
      (number.digits.take whole ++
          List.replicate (whole - number.digits.length) '0',
        number.digits.drop whole)
  | .negSucc zeros => ([], List.replicate zeros '0' ++ number.digits)

/-- Positional text.  A whole number has neither point nor fraction. -/
def positional (number : Digits) : String :=
  let (whole, fraction) := number.split
  let whole := if whole.isEmpty then ['0'] else whole
  if fraction.isEmpty then String.ofList whole
  else String.ofList (whole ++ '.' :: fraction)

/-- One digit, then the others after a point if there are any. -/
def mantissa (number : Digits) : String :=
  match number.digits with
  | [] => "0"
  | [digit] => String.ofList [digit]
  | digit :: others => String.ofList (digit :: '.' :: others)

/-- Mantissa and exponent of ten, the exponent signed only when negative. -/
def scientific (number : Digits) : String :=
  number.mantissa ++ "e" ++ toString number.magnitude

end Digits

/-- The sign of a number followed by the text of its magnitude. -/
def signed (number : Binary) (magnitude : String) : String :=
  if number.negative then "-" ++ magnitude else magnitude

/-- The shortest text without an exponent that reads back as the value. -/
def display (value : Float) : String :=
  match Binary.ofFloat? value with
  | some number =>
      signed number <|
        if number.mantissa = 0 then "0"
        else (Digits.ofNumeral (number.shortest .upward)).positional
  | none => if value.isNaN then "NaN" else if value < 0 then "-inf" else "inf"

/-- The shortest text with an exponent that reads back as the value. -/
def exponential (value : Float) : String :=
  match Binary.ofFloat? value with
  | some number =>
      signed number <|
        if number.mantissa = 0 then "0e0"
        else (Digits.ofNumeral (number.shortest .upward)).scientific
  | none => if value.isNaN then "NaN" else if value < 0 then "-inf" else "inf"

/-- The value rounded to `count` significant digits, with an exponent. -/
def significant (count : Nat) (value : Float) : String :=
  match Binary.ofFloat? value with
  | some number =>
      signed number <|
        if number.mantissa = 0 then "0"
        else (Digits.ofNumeral (number.nearest count)).scientific
  | none => if value.isNaN then "nan" else if value < 0 then "-inf" else "inf"

end Stereograph.Decimal
