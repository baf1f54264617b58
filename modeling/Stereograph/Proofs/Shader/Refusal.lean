import Stereograph.Formula.Value
import Stereograph.Proofs.Shader.Expansion

/-!
# Formulas refused by generator and evaluator

The generator and the evaluator walk a formula in the same order and check the same
things, so whichever fault the generator reports is the fault that the evaluator
reports.  Only the length of the code separates them.

The expansion stands between the two.  It has no limit, so it is refused exactly where
the evaluation is; the code follows it up to its length.
-/

namespace Stereograph.Shader

open Formula

/-- Both results are the same error, or both are values. -/
inductive SameOutcome {ε α β : Type} : Except ε α → Except ε β → Prop
  | refused (error) : SameOutcome (.error error) (.error error)
  | accepted (left right) : SameOutcome (.ok left) (.ok right)

theorem SameOutcome.bind {ε α β γ δ : Type} {left : Except ε α} {right : Except ε β}
    {leftNext : α → Except ε γ} {rightNext : β → Except ε δ}
    (first : SameOutcome left right)
    (next : ∀ leftValue rightValue,
      SameOutcome (leftNext leftValue) (rightNext rightValue)) :
    SameOutcome (left >>= leftNext) (right >>= rightNext) := by
  cases first with
  | refused error => exact .refused error
  | accepted leftValue rightValue => exact next leftValue rightValue

/-- The trees without an expansion are the trees without a value, and the reason is
the same. -/
theorem sameOutcome_expand_eval {ν : Type} (arithmetic : Arithmetic)
    (meaning : Interpretation ν) (formula : Formula) :
    SameOutcome (expand arithmetic formula) (formula.eval arithmetic meaning) := by
  induction formula using byForm with
  | negation inner ih =>
      rw [expand_negation, eval_negation]
      exact ih.bind fun _ _ => .accepted _ _
  | power base exponent ih =>
      rw [expand_power, eval_power]
      refine ih.bind fun _ _ => ?_
      cases Exponent.ofFormula exponent with
      | error error => exact .refused error
      | ok kind => cases kind <;> exact .accepted _ _
  | binary operator left right isBinary leftSame rightSame =>
      rw [expand_binary arithmetic isBinary, eval_binary arithmetic meaning isBinary]
      exact leftSame.bind fun _ _ => rightSame.bind fun _ _ => .accepted _ _
  | misapplied operator arguments wrong =>
      rw [expand_misapplied arithmetic wrong, eval_misapplied arithmetic meaning wrong]
      exact .refused _
  | call function argument ih =>
      rw [expand_call, eval_call]
      cases ElementaryFunction.named? function with
      | none => exact .refused _
      | some function => exact ih.bind fun _ _ => .accepted _ _
  | symbol name =>
      rw [expand_symbol, eval_symbol]
      cases arithmetic.symbol? name with
      | none => exact .refused _
      | some known => exact .accepted _ _
  | constant value =>
      rw [expand_constant, eval_constant]
      split
      · exact .accepted _ _
      · exact .refused _

/-- Two consumers of a formula refuse it for the same reason, up to the length of the
code. -/
structure RefuseAlike {ν : Type} (code : Except FormulaError String)
    (value : Except FormulaError ν) : Prop where
  generator : ∀ error, error ≠ .codeTooLong → code = .error error → value = .error error
  evaluator : ∀ error, value = .error error →
    code = .error error ∨ code = .error .codeTooLong
  accepted : ∀ result, value = .ok result →
    (∃ text, code = .ok text) ∨ code = .error .codeTooLong

theorem RefuseAlike.of_expansion {ν : Type} {code : Except FormulaError String}
    {expansion : Except FormulaError Expression} {value : Except FormulaError ν}
    (text : IsTextOf code expansion) (same : SameOutcome expansion value) :
    RefuseAlike code value := by
  cases text with
  | tooLong =>
      constructor
      · intro error notLong refused
        cases refused
        exact (notLong rfl).elim
      · exact fun _ _ => .inr rfl
      · exact fun _ _ => .inr rfl
  | refused error =>
      cases same
      constructor
      · intro found _ refused
        cases refused
        rfl
      · intro found refused
        cases refused
        exact .inl rfl
      · intro result accepted
        cases accepted
  | written expression =>
      cases same
      constructor
      · intro error _ refused
        cases refused
      · intro error refused
        cases refused
      · exact fun _ _ => .inl ⟨_, rfl⟩

theorem refuseAlike_value {ν : Type} (arithmetic : Arithmetic)
    (meaning : Interpretation ν) (formula : Formula) :
    RefuseAlike (formulaCode arithmetic formula) (formula.value arithmetic meaning) := by
  unfold formulaCode value
  split
  · constructor
    · intro error _ refused
      cases refused
      rfl
    · intro error refused
      cases refused
      exact .inl rfl
    · intro result accepted
      cases accepted
  · exact .of_expansion (isTextOf_treeCode arithmetic formula)
      (sameOutcome_expand_eval arithmetic meaning formula)

/-- The generator of each arithmetic and the evaluator of that arithmetic refuse a tree
for the same reason, whatever the points at which it is evaluated. -/
theorem generator_and_evaluator_refuse_alike {α : Type} [Scalar α] (formula : Formula)
    (iterate parameter : Coordinate α) (number : ComplexNumber α) :
    RefuseAlike (formulaCode .projective formula)
        (formula.pointValue iterate parameter) ∧
      RefuseAlike (formulaCode .affine formula) (formula.numberValue number) := by
  exact ⟨refuseAlike_value .projective _ formula, refuseAlike_value .affine _ formula⟩

end Stereograph.Shader
