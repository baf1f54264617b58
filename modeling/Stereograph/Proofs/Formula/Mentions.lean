import Mathlib.Tactic.SplitIfs
import Stereograph.Formula.Value
import Stereograph.Proofs.Formula.Forms

/-!
# Dependence of values on symbols

Evaluation looks up the symbols that a tree mentions and no others, so two interpretations
that differ elsewhere give one value or one error.  In particular a tree that does not mention
the iterated point has the same value at every point.
-/

namespace Stereograph

/-- The iterated point and the parameter have one name each. -/
theorem Arithmetic.cases_of_symbol? {arithmetic : Arithmetic} {name : String} {symbol : Symbol}
    (known : arithmetic.symbol? name = some symbol) :
    symbol = .imaginaryUnit ∨ symbol = .parameter ∧ name = "c" ∨
      symbol = .iterate ∧ name = "z" := by
  unfold Arithmetic.symbol? at known
  split_ifs at known with isUnit isC isZ
  · cases known
    exact .inl rfl
  · cases known
    exact .inr (.inl ⟨rfl, isC⟩)
  · cases arithmetic with
    | affine => cases known
    | projective =>
        cases known
        exact .inr (.inr ⟨rfl, isZ⟩)

namespace Formula

@[simp] theorem mentions_operation (name : String) (operator : Operator)
    (arguments : List Formula) :
    (operation operator arguments).mentions name = anyMentions name arguments :=
  rfl

@[simp] theorem mentions_call (name function : String) (argument : Formula) :
    (call function argument).mentions name = argument.mentions name :=
  rfl

@[simp] theorem mentions_symbol (name found : String) :
    (symbol found).mentions name = (found == name) :=
  rfl

@[simp] theorem mentions_constant (name : String) (value : Float) :
    (constant value).mentions name = false :=
  rfl

@[simp] theorem anyMentions_nil (name : String) : anyMentions name [] = false :=
  rfl

@[simp] theorem anyMentions_cons (name : String) (formula : Formula) (rest : List Formula) :
    anyMentions name (formula :: rest) = (formula.mentions name || anyMentions name rest) :=
  rfl

/-- An exponent that is accepted is a constant and mentions nothing. -/
theorem mentions_of_exponent {exponent : Formula} {kind : Exponent}
    (classified : Exponent.ofFormula exponent = .ok kind) (name : String) :
    exponent.mentions name = false := by
  unfold Exponent.ofFormula asConstant? at classified
  split at classified
  · rename_i found
    split at found
    · rfl
    · rfl
    · cases found
  · cases classified

/-- Two meanings of the symbols that agree on those that a tree mentions give the tree one
value or one error. -/
theorem eval_withSymbol {ν : Type} {arithmetic : Arithmetic} {meaning : Interpretation ν}
    {symbol : Symbol → ν} {formula : Formula}
    (agree : ∀ name known, formula.mentions name = true →
      arithmetic.symbol? name = some known → symbol known = meaning.symbol known) :
    formula.eval arithmetic { meaning with symbol } = formula.eval arithmetic meaning := by
  induction formula using byForm with
  | negation inner ih =>
      rw [eval_negation, eval_negation, ih fun name known mentioned =>
        agree name known (by simpa using mentioned)]
  | power base exponent ih =>
      rw [eval_power, eval_power, ih fun name known mentioned =>
        agree name known (by simp [mentioned])]
  | binary operator left right isBinary leftIH rightIH =>
      have operation : Interpretation.binary { meaning with symbol } operator =
          meaning.binary operator := by
        cases operator <;> rfl
      rw [eval_binary _ _ isBinary, eval_binary _ _ isBinary, operation,
        leftIH fun name known mentioned => agree name known (by simp [mentioned]),
        rightIH fun name known mentioned => agree name known (by simp [mentioned])]
  | misapplied operator arguments wrong =>
      rw [eval_misapplied _ _ wrong, eval_misapplied _ _ wrong]
  | call function argument ih =>
      rw [eval_call, eval_call, ih agree]
  | symbol name =>
      rw [eval_symbol, eval_symbol]
      cases found : arithmetic.symbol? name with
      | none => rfl
      | some known => exact congrArg Except.ok (agree name known (by simp) found)
  | constant value => rfl

/-- A tree that does not mention the iterated point has one value or one error at all
points. -/
theorem pointValue_eq_of_not_mentions {α : Type} [Scalar α] {formula : Formula}
    (absent : formula.mentions "z" = false) (first second parameter : Coordinate α) :
    formula.pointValue first parameter = formula.pointValue second parameter := by
  have same : formula.eval .projective
      { Interpretation.projective second parameter with
        symbol := (Interpretation.projective first parameter).symbol } =
      formula.eval .projective (.projective second parameter) := by
    refine eval_withSymbol fun name known mentioned found => ?_
    obtain rfl | ⟨rfl, -⟩ | ⟨-, rfl⟩ := Arithmetic.cases_of_symbol? found
    · rfl
    · rfl
    · rw [absent] at mentioned
      cases mentioned
  exact congrArg (ite (maximumNesting < formula.depth) (.error .nestingTooDeep)) same

end Formula

end Stereograph
