import Stereograph.Formula.Core
import Stereograph.Proofs.Formula.Forms
import Stereograph.Proofs.Formula.Power
import Stereograph.Proofs.Sphere.Rescaling

/-!
# Values of cores

Over exact arithmetic a formula has the value of its core, up to the sign.  A core that is
an operation or a call rescales its value.  The value of any other core is that of a
constant or a symbol, as it stands.
-/

namespace Stereograph.Formula

open Coordinate

/-! ## Cores of the forms -/

theorem core_power_one {base exponent : Formula}
    (one : Exponent.ofFormula exponent = .ok (.whole 1)) :
    (operation .power [base, exponent]).core = base.core := by
  simp [core, one]

theorem core_power_of_ne {base exponent : Formula}
    (notOne : Exponent.ofFormula exponent ≠ .ok (.whole 1)) :
    (operation .power [base, exponent]).core = .operation .power [base, exponent] := by
  rw [core]
  split
  · rename_i one
    exact (notOne one).elim
  · rfl

theorem core_binary {operator : Operator} (isBinary : operator.IsBinary)
    (left right : Formula) :
    (operation operator [left, right]).core = .operation operator [left, right] := by
  cases operator with
  | negate => exact (isBinary.1 rfl).elim
  | power => exact (isBinary.2 rfl).elim
  | add | subtract | multiply | divide => rfl

theorem core_misapplied {operator : Operator} {arguments : List Formula}
    (wrong : arguments.length ≠ operator.arity) :
    (operation operator arguments).core = .operation operator arguments := by
  cases misapplied_cases wrong with
  | none operator => cases operator <;> rfl
  | one operator first notUnary =>
      cases operator with
      | negate => exact (notUnary rfl).elim
      | add | subtract | multiply | divide | power => rfl
  | two first second => rfl
  | many operator first second third rest => cases operator <;> rfl

/-! ## Values -/

variable {formula : Formula} {iterate parameter value : Coordinate ℝ}

/-- A formula has the value of its core, up to the sign. -/
theorem exists_eval_core
    (evaluates : formula.eval .projective (.projective iterate parameter) = .ok value) :
    ∃ inner, formula.core.eval .projective (.projective iterate parameter) = .ok inner ∧
      (value = inner ∨ value = inner.neg) := by
  induction formula using byForm generalizing value with
  | negation inner ih =>
      rw [eval_negation] at evaluates
      obtain ⟨innerValue, innerEvaluates, result⟩ := exists_of_bind_ok evaluates
      cases result
      obtain ⟨coreValue, coreEvaluates, sign⟩ := ih innerEvaluates
      refine ⟨coreValue, coreEvaluates, ?_⟩
      rcases sign with rfl | rfl
      · exact .inr rfl
      · left
        simp [Interpretation.projective, Coordinate.neg, ComplexNumber.neg]
  | power base exponent ih =>
      by_cases one : Exponent.ofFormula exponent = .ok (.whole 1)
      · rw [eval_power, one] at evaluates
        obtain ⟨baseValue, baseEvaluates, result⟩ := exists_of_bind_ok evaluates
        have same : value = baseValue := by
          cases result
          exact wholePower_one _ baseValue
        rw [core_power_one one, same]
        exact ih baseEvaluates
      · rw [core_power_of_ne one]
        exact ⟨value, evaluates, .inl rfl⟩
  | binary operator left right isBinary _ _ =>
      rw [core_binary isBinary]
      exact ⟨value, evaluates, .inl rfl⟩
  | misapplied operator arguments wrong =>
      rw [core_misapplied wrong]
      exact ⟨value, evaluates, .inl rfl⟩
  | call function argument _ => exact ⟨value, evaluates, .inl rfl⟩
  | symbol name => exact ⟨value, evaluates, .inl rfl⟩
  | constant constant => exact ⟨value, evaluates, .inl rfl⟩

theorem isRescaled_binary {operator : Operator} (notNegate : operator ≠ .negate)
    (left right : Coordinate ℝ) :
    IsRescaled ((Interpretation.projective iterate parameter).binary operator left right) := by
  cases operator with
  | negate => exact (notNegate rfl).elim
  | add | subtract | multiply | divide => exact isRescaled_normalized _
  | power => exact isRescaled_pow left right

theorem isRescaled_function (function : ElementaryFunction) (argument : Coordinate ℝ) :
    IsRescaled ((Interpretation.projective iterate parameter).function function argument) := by
  cases function with
  | sqrt => exact isRescaled_normalized _
  | exp | sin | cos => exact isRescaled_throughComplex _ argument
  | log => exact isRescaled_log argument

/-- A power is rescaled by its last multiplication, or by the complex power. -/
theorem isRescaled_power {base exponent : Formula}
    (notOne : Exponent.ofFormula exponent ≠ .ok (.whole 1))
    (evaluates : (operation .power [base, exponent]).eval .projective
      (.projective iterate parameter) = .ok value) :
    IsRescaled value := by
  rw [eval_power] at evaluates
  obtain ⟨baseValue, -, evaluates⟩ := exists_of_bind_ok evaluates
  obtain ⟨kind, classified, result⟩ := exists_of_bind_ok evaluates
  cases kind with
  | whole count =>
      have several : 1 < min count Exponent.maximumFactors := by
        have positive := Exponent.count_pos classified
        have other : count ≠ 1 := by
          rintro rfl
          exact notOne classified
        have bound : 1 < Exponent.maximumFactors := by decide
        omega
      obtain ⟨left, right, product⟩ := exists_wholePower_eq
        (Interpretation.projective iterate parameter).multiply baseValue several
      cases result
      rw [product]
      exact isRescaled_normalized _
  | real exponentValue =>
      cases result
      exact isRescaled_pow _ _

/-- The value of a core is fixed, or rescaled, or that of a symbol. -/
theorem eval_core_cases
    (evaluates : formula.core.eval .projective (.projective iterate parameter) = .ok value) :
    formula.fixedValue? parameter = some value ∨
      formula.fixedValue? parameter = none ∧
        (IsRescaled value ∨ value = .imaginaryUnit ∨ value = iterate) := by
  induction formula using byForm with
  | negation inner ih => exact ih evaluates
  | power base exponent ih =>
      by_cases one : Exponent.ofFormula exponent = .ok (.whole 1)
      · rw [core_power_one one] at evaluates
        rw [fixedValue?, core_power_one one, ← fixedValue?]
        exact ih evaluates
      · rw [core_power_of_ne one] at evaluates
        rw [fixedValue?, core_power_of_ne one]
        exact .inr ⟨rfl, .inl (isRescaled_power one evaluates)⟩
  | binary operator left right isBinary _ _ =>
      rw [core_binary isBinary, eval_binary _ _ isBinary] at evaluates
      obtain ⟨leftValue, -, evaluates⟩ := exists_of_bind_ok evaluates
      obtain ⟨rightValue, -, result⟩ := exists_of_bind_ok evaluates
      cases result
      rw [fixedValue?, core_binary isBinary]
      exact .inr ⟨rfl, .inl (isRescaled_binary isBinary.1 leftValue rightValue)⟩
  | misapplied operator arguments wrong =>
      rw [core_misapplied wrong, eval_misapplied _ _ wrong] at evaluates
      cases evaluates
  | call function argument _ =>
      rw [core, eval_call] at evaluates
      refine .inr ⟨rfl, .inl ?_⟩
      split at evaluates
      · cases evaluates
      · rename_i known _
        obtain ⟨argumentValue, -, result⟩ := exists_of_bind_ok evaluates
        cases result
        exact isRescaled_function known argumentValue
  | symbol name =>
      rw [core, eval_symbol] at evaluates
      rw [fixedValue?, core]
      split at evaluates
      · rename_i known found
        cases evaluates
        simp only [found]
        cases known with
        | imaginaryUnit => exact .inr ⟨rfl, .inr (.inl rfl)⟩
        | iterate => exact .inr ⟨rfl, .inr (.inr rfl)⟩
        | parameter => exact .inl rfl
      · cases evaluates
  | constant constant =>
      rw [core, eval_constant] at evaluates
      split at evaluates
      · cases evaluates
        exact .inl rfl
      · cases evaluates

end Stereograph.Formula
