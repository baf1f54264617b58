import Stereograph.Proofs.Formula.Forms

/-!
# Related evaluations

Two interpretations whose constants, symbols and primitives are related give every
formula related values, and refuse the same formulas for the same reasons.  The values
may be of two types.
-/

namespace Stereograph

variable {ν μ : Type} {relation : ν → μ → Prop}

/-- Two interpretations that keep a relation between their values. -/
structure Interpretation.Relates (relation : ν → μ → Prop) (left : Interpretation ν)
    (right : Interpretation μ) : Prop where
  constant : ∀ value, relation (left.constant value) (right.constant value)
  symbol : ∀ symbol, relation (left.symbol symbol) (right.symbol symbol)
  negate : ∀ {value other}, relation value other →
    relation (left.negate value) (right.negate other)
  binary : ∀ (operator : Operator) {value other second secondOther},
    operator ≠ .negate → relation value other → relation second secondOther →
    relation (left.binary operator value second) (right.binary operator other secondOther)
  function : ∀ (function : ElementaryFunction) {value other}, relation value other →
    relation (left.function function value) (right.function function other)

/-- The same error twice, or two related values. -/
inductive RelatedOutcome {ε : Type} (relation : ν → μ → Prop) :
    Except ε ν → Except ε μ → Prop
  | refused (error) : RelatedOutcome relation (.error error) (.error error)
  | accepted {value other} (related : relation value other) :
      RelatedOutcome relation (.ok value) (.ok other)

theorem RelatedOutcome.bind {ε ν' μ' : Type} {relation' : ν' → μ' → Prop}
    {left : Except ε ν} {right : Except ε μ} {leftNext : ν → Except ε ν'}
    {rightNext : μ → Except ε μ'} (first : RelatedOutcome relation left right)
    (next : ∀ {value other}, relation value other →
      RelatedOutcome relation' (leftNext value) (rightNext other)) :
    RelatedOutcome relation' (left >>= leftNext) (right >>= rightNext) := by
  cases first with
  | refused error => exact .refused error
  | accepted related => exact next related

/-- A product of related factors is related to the product of the others. -/
theorem Squaring.finish_related {multiply : ν → ν → ν} {multiply' : μ → μ → μ}
    (product : ∀ {value other second secondOther}, relation value other →
      relation second secondOther →
      relation (multiply value second) (multiply' other secondOther))
    {result square : ν} {result' square' : μ} (results : relation result result')
    (squares : relation square square') (remaining : Nat) :
    relation (finish multiply ⟨result, square, remaining⟩)
      (finish multiply' ⟨result', square', remaining⟩) := by
  induction remaining using Nat.strongRecOn generalizing result square result' square' with
  | ind remaining ih =>
      rw [finish, finish.eq_def multiply']
      dsimp only [round]
      split
      · exact results
      · rename_i nonzero
        have smaller : remaining / 2 < remaining :=
          Nat.div_lt_self (Nat.pos_of_ne_zero nonzero) (by decide)
        refine ih _ smaller ?_ ?_
        · split
          · exact product results squares
          · exact results
        · split
          · exact squares
          · exact product squares squares

namespace Formula

/-- Related interpretations evaluate a formula to related outcomes. -/
theorem eval_related {left : Interpretation ν} {right : Interpretation μ}
    (related : left.Relates relation right) (arithmetic : Arithmetic) (formula : Formula) :
    RelatedOutcome relation (formula.eval arithmetic left)
      (formula.eval arithmetic right) := by
  induction formula using byForm with
  | negation inner ih =>
      rw [eval_negation, eval_negation]
      exact ih.bind fun values => .accepted (related.negate values)
  | power base exponent ih =>
      rw [eval_power, eval_power]
      refine ih.bind fun values => ?_
      cases Exponent.ofFormula exponent with
      | error error => exact .refused error
      | ok kind =>
          cases kind with
          | whole count =>
              exact .accepted (Squaring.finish_related
                (related.binary .multiply (by decide)) values values _)
          | real value =>
              exact .accepted (related.binary .power (by decide) values
                (related.constant value))
  | binary operator first second isBinary firstIH secondIH =>
      rw [eval_binary arithmetic left isBinary, eval_binary arithmetic right isBinary]
      exact firstIH.bind fun values => secondIH.bind fun seconds =>
        .accepted (related.binary operator isBinary.1 values seconds)
  | misapplied operator arguments wrong =>
      rw [eval_misapplied arithmetic left wrong, eval_misapplied arithmetic right wrong]
      exact .refused _
  | call function argument ih =>
      rw [eval_call, eval_call]
      cases ElementaryFunction.named? function with
      | none => exact .refused _
      | some known => exact ih.bind fun values => .accepted (related.function known values)
  | symbol name =>
      rw [eval_symbol, eval_symbol]
      cases arithmetic.symbol? name with
      | none => exact .refused _
      | some known => exact .accepted (related.symbol known)
  | constant value =>
      rw [eval_constant, eval_constant]
      split
      · exact .accepted (related.constant value)
      · exact .refused _

/-- Related interpretations give a formula related values, the limit on its depth
included. -/
theorem value_related {left : Interpretation ν} {right : Interpretation μ}
    (related : left.Relates relation right) (arithmetic : Arithmetic) (formula : Formula) :
    RelatedOutcome relation (formula.value arithmetic left)
      (formula.value arithmetic right) := by
  unfold value
  split
  · exact .refused _
  · exact eval_related related arithmetic formula

end Formula

end Stereograph
