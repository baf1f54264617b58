import Stereograph.Formula.Error

/-!
# Exponents

A power has a constant exponent.  A positive whole exponent means repeated
multiplication and any other exponent the power function.
-/

namespace Stereograph

/-- What a constant exponent asks for. -/
inductive Exponent where
  /-- That many factors, multiplied. -/
  | whole (count : Nat)
  | real (value : Float)
  deriving DecidableEq, Repr

namespace Exponent

/-- Greatest count of factors that an evaluation multiplies.  A whole exponent beyond
it has the value of this one. -/
def maximumFactors : Nat := Nat.pow 2 64 - 1

/-- What an exponent of a given value asks for. -/
def ofValue (value : Float) : Except FormulaError Exponent :=
  match Decimal.Binary.ofFloat? value with
  | none => .error (.notFinite value)
  | some number =>
      if number.mantissa = 0 then .error .zeroExponent
      else if number.negative then .ok (.real value)
      else
        match number.natural? with
        | some count => .ok (.whole count)
        | none => .ok (.real value)

/-- What the second argument of a power asks for. -/
def ofFormula (exponent : Formula) : Except FormulaError Exponent :=
  match exponent.asConstant? with
  | some value => ofValue value
  | none => .error (.variableExponent exponent)

end Exponent

/-- What repeated squaring keeps from one round to the next. -/
structure Squaring (ν : Type) where
  /-- Product of the factors that are taken. -/
  result : ν
  /-- The base, squared once for every binary digit that is taken. -/
  square : ν
  /-- How many squares are missing from the product. -/
  remaining : Nat
  deriving DecidableEq, Repr

namespace Squaring

variable {ν : Type} (multiply : ν → ν → ν)

/-- Take the lowest binary digit of the remaining count.  Nothing is squared after the
last digit. -/
def round (state : Squaring ν) : Squaring ν where
  result :=
    if state.remaining % 2 = 1 then multiply state.result state.square
    else state.result
  square :=
    if state.remaining / 2 = 0 then state.square
    else multiply state.square state.square
  remaining := state.remaining / 2

/-- The product after as many rounds as the remaining count has digits. -/
def finish (state : Squaring ν) : ν :=
  if state.remaining = 0 then state.result else (state.round multiply).finish
termination_by state.remaining
decreasing_by
  rename_i nonzero
  exact Nat.div_lt_self (Nat.pos_of_ne_zero nonzero) Nat.one_lt_two

end Squaring

/-- The product of `count` copies of a base, for a positive count.  No unit is
needed: the first copy is the base itself. -/
def wholePower {ν : Type} (multiply : ν → ν → ν) (base : ν) (count : Nat) : ν :=
  Squaring.finish multiply ⟨base, base, count - 1⟩

end Stereograph
