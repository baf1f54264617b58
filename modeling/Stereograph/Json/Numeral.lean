import Stereograph.Decimal.Layout

/-!
# Number literals of stored values

Written numbers are the shortest that read back, positional for magnitudes from a
hundred-thousandth up to ten quadrillions and with an exponent outside.  They
always show a point or an exponent.

A literal is read in two roundings.  As many of its leading digits as fit a word of
64 bits make a whole number, which is rounded and then multiplied or divided by a
rounded power of ten.  A literal too large for a floating-point number is refused.
-/

namespace Stereograph.Json.Numeral

open Stereograph.Decimal

/-! ## Writing -/

/-- Text of the digits of a number. -/
def layout (number : Digits) : String :=
  if -5 ≤ number.magnitude ∧ number.magnitude < 16 then
    let (whole, fraction) := number.split
    let whole := if whole.isEmpty then ['0'] else whole
    let fraction := if fraction.isEmpty then ['0'] else fraction
    String.ofList (whole ++ '.' :: fraction)
  else
    let sign := if number.magnitude < 0 then "-" else "+"
    number.mantissa ++ "e" ++ sign ++ toString number.magnitude.natAbs

/-- Literal of a floating-point number.  Only finite numbers have one. -/
def write? (value : Float) : Option String :=
  (Binary.ofFloat? value).map fun number =>
    signed number <|
      if number.mantissa = 0 then "0.0"
      else layout (Digits.ofNumeral (number.shortest .toEven))

/-! ## Grammar -/

/-- Number of characters of the digits at the front of a text, at least one. -/
def digitsLength? (input : List Char) : Option Nat :=
  let count := (input.takeWhile Char.isDigit).length
  if count = 0 then none else some count

/-- Number of characters of the exponent at the front of a text. -/
def exponentLength? : List Char → Option Nat
  | mark :: rest =>
      if mark = 'e' ∨ mark = 'E' then
        match rest with
        | '+' :: rest => (digitsLength? rest).map (· + 2)
        | '-' :: rest => (digitsLength? rest).map (· + 2)
        | rest => (digitsLength? rest).map (· + 1)
      else
        some 0
  | [] => some 0

/-- Number of characters of the fraction at the front of a text. -/
def fractionLength? : List Char → Option Nat
  | '.' :: rest => (digitsLength? rest).map (· + 1)
  | _ => some 0

/-- Number of characters of an unsigned literal at the front of a text.  A leading
zero is the whole of its integer part. -/
def unsignedLength? (input : List Char) : Option Nat := do
  let whole ← match input with
    | '0' :: _ => some 1
    | input => digitsLength? input
  let fraction ← fractionLength? (input.drop whole)
  let exponent ← exponentLength? (input.drop (whole + fraction))
  some (whole + fraction + exponent)

/-- Number of characters of the literal at the front of a text. -/
def length? : List Char → Option Nat
  | '-' :: rest => (unsignedLength? rest).map (· + 1)
  | input => unsignedLength? input

/-! ## Reading -/

/-- Append digits to a whole number as long as it fits 64 bits, and count them. -/
def takeDigits (significand taken : Nat) : List Char → Nat × Nat
  | [] => (significand, taken)
  | digit :: rest =>
      let next := significand * 10 + (digit.toNat - '0'.toNat)
      if next < Nat.pow 2 64 then takeDigits next (taken + 1) rest else (significand, taken)

/-- A rounded power of ten. -/
def powerOfTen (exponent : Nat) : Float :=
  Float.ofScientific 1 false exponent

/-- Multiply by a power of ten, or divide by it in steps that have a rounded power.
A product beyond every finite number is refused. -/
def scale (value : Float) (exponent : Int) : Option Float :=
  if 0 ≤ exponent then
    if value == 0 then some value
    else if 308 < exponent then none
    else
      let product := value * powerOfTen exponent.toNat
      if product.isInf then none else some product
  else if -308 ≤ exponent then some (value / powerOfTen exponent.natAbs)
  else if value == 0 then some value
  else scale (value / powerOfTen 308) (exponent + 308)
termination_by exponent.natAbs
decreasing_by omega

/-- The exponent that a text ends with, zero if it is empty. -/
def exponentOf : List Char → Int
  | _ :: '-' :: digits => -(Decimal.Numeral.ofDigits digits : Int)
  | _ :: '+' :: digits => Decimal.Numeral.ofDigits digits
  | _ :: digits => Decimal.Numeral.ofDigits digits
  | [] => 0

/-- Magnitude of an unsigned literal. -/
def magnitude? (literal : List Char) : Option Float :=
  let whole := literal.takeWhile Char.isDigit
  let (significand, taken) := takeDigits 0 0 whole
  let (significand, fractionTaken, rest) :=
    match literal.dropWhile Char.isDigit with
    | '.' :: rest =>
        let (significand, taken) :=
          takeDigits significand 0 (rest.takeWhile Char.isDigit)
        (significand, taken, rest.dropWhile Char.isDigit)
    | rest => (significand, 0, rest)
  scale (Float.ofNat significand)
    ((whole.length - taken : Nat) - (fractionTaken : Int) + exponentOf rest)

/-- The floating-point number of a literal. -/
def float? (literal : String) : Option Float :=
  match literal.toList with
  | '-' :: rest => (magnitude? rest).map (-·)
  | literal => magnitude? literal

/-- The whole number below `2 ^ 32` that a literal writes with digits alone. -/
def word? (literal : String) : Option UInt32 :=
  let digits := literal.toList
  if digits.all Char.isDigit then
    let value := Decimal.Numeral.ofDigits digits
    if value < Nat.pow 2 32 then some value.toUInt32 else none
  else none

end Stereograph.Json.Numeral
