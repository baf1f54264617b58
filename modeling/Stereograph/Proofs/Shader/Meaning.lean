import Stereograph.Proofs.Formula.Power
import Stereograph.Proofs.Shader.Generated

/-!
# Meaning of generated code

The expression that generated code derives has the value of the formula, under every
interpretation of the primitives whose multiplication is associative.  Associativity is
needed for whole powers alone: the code multiplies their factors from the left and the
evaluation squares.
-/

namespace Stereograph.Shader

open Decimal Formula

variable {arithmetic : Arithmetic} {ν : Type} (meaning : Interpretation ν)

/-! ## Meaning of single constructs -/

theorem literal?_ofFloat {value : Float} (finite : value.isFinite = true) :
    (Expression.ofFloat value).literal? = some value := by
  obtain ⟨number, finite⟩ := Binary.isFinite_iff.mp finite
  unfold Expression.ofFloat
  split
  · simp [Expression.literal?, Binary.neg_neg_of_ofFloat? finite]
  · rfl

theorem Generated.literal?_eq_none {expression : Expression}
    (generated : Generated arithmetic expression) : expression.literal? = none := by
  cases generated with
  | constant _ => cases arithmetic <;> rfl
  | @symbol _ symbol _ => cases arithmetic <;> cases symbol <;> rfl
  | negation _ | function _ _ | binary _ _ _ => rfl

@[simp] theorem literal?_number (magnitude : Float) :
    (Expression.number magnitude).literal? = some magnitude :=
  rfl

theorem denote_call (function : String) (arguments : List Expression) :
    (Expression.call function arguments).denote arithmetic meaning =
      match arguments.mapM Expression.literal? with
      | some literals => Expression.vectorValue? arithmetic meaning function literals
      | none =>
          match arguments with
          | [argument] => (do
              let operation ← Expression.unary? arithmetic meaning function
              some (operation (← argument.denote arithmetic meaning)))
          | [left, right] => (do
              let operation ← Expression.binary? arithmetic meaning function
              some (operation (← left.denote arithmetic meaning)
                (← right.denote arithmetic meaning)))
          | _ => none := by
  apply (Expression.denote.eq_def ..).trans
  rfl

theorem denote_vector {function : String} {arguments : List Expression}
    {literals : List Float} (allLiterals : arguments.mapM Expression.literal? = some literals) :
    (Expression.call function arguments).denote arithmetic meaning =
      Expression.vectorValue? arithmetic meaning function literals := by
  rw [denote_call, allLiterals]

theorem denote_constantExpression {value : Float} (finite : value.isFinite = true) :
    (constantExpression arithmetic value).denote arithmetic meaning =
      some (meaning.constant value) := by
  cases arithmetic with
  | projective =>
      have literals : [Expression.ofFloat value, .number 0, .number 1, .number 0].mapM
          Expression.literal? = some [value, 0, 1, 0] := by
        simp [literal?_ofFloat finite]
      rw [constantExpression, denote_vector meaning literals]
      simp [Expression.vectorValue?]
  | affine =>
      have literals : [Expression.ofFloat value, .number 0].mapM Expression.literal? =
          some [value, 0] := by
        simp [literal?_ofFloat finite]
      rw [constantExpression, denote_vector meaning literals]
      simp [Expression.vectorValue?]

theorem denote_symbolExpression {name : String} {symbol : Symbol}
    (known : arithmetic.symbol? name = some symbol) :
    (symbolExpression arithmetic symbol).denote arithmetic meaning =
      some (meaning.symbol symbol) := by
  have one : (1 : Float) ≠ 0 := by decide
  cases arithmetic with
  | projective =>
      cases symbol with
      | imaginaryUnit =>
          rw [symbolExpression, @denote_vector _ _ meaning _ _ [0, 1, 1, 0] rfl]
          simp [Expression.vectorValue?, one]
      | parameter | iterate => rfl
  | affine =>
      cases symbol with
      | imaginaryUnit =>
          rw [symbolExpression, @denote_vector _ _ meaning _ _ [0, 1] rfl]
          simp [Expression.vectorValue?, one]
      | parameter => rfl
      | iterate => exact (Generated.affine_symbol?_ne_iterate name known).elim

theorem denote_unary {name : String} {operand : Expression} {operation : ν → ν} {value : ν}
    (generated : Generated arithmetic operand)
    (primitive : Expression.unary? arithmetic meaning name = some operation)
    (denotes : operand.denote arithmetic meaning = some value) :
    (Expression.call name [operand]).denote arithmetic meaning = some (operation value) := by
  rw [denote_call]
  simp [generated.literal?_eq_none, primitive, denotes]

theorem denote_binary {name : String} {left right : Expression} {operation : ν → ν → ν}
    {leftValue rightValue : ν} (generated : Generated arithmetic left)
    (primitive : Expression.binary? arithmetic meaning name = some operation)
    (leftDenotes : left.denote arithmetic meaning = some leftValue)
    (rightDenotes : right.denote arithmetic meaning = some rightValue) :
    (Expression.call name [left, right]).denote arithmetic meaning =
      some (operation leftValue rightValue) := by
  rw [denote_call]
  simp [generated.literal?_eq_none, primitive, leftDenotes, rightDenotes]

theorem unary?_negation :
    Expression.unary? arithmetic meaning (operatorName arithmetic .negate) =
      some meaning.negate := by
  simp [Expression.unary?]

theorem unary?_function (function : ElementaryFunction) :
    Expression.unary? arithmetic meaning (functionName function) =
      some (meaning.function function) := by
  cases arithmetic <;> cases function <;> rfl

theorem binary?_operator {operator : Operator} (binary : operator ≠ .negate) :
    Expression.binary? arithmetic meaning (operatorName arithmetic operator) =
      some (meaning.binary operator) := by
  cases operator with
  | negate => exact (binary rfl).elim
  | add | subtract | multiply | divide | power => cases arithmetic <;> rfl

/-! ## Meaning of the code -/

section Associative

variable (associative : ∀ left middle right,
  meaning.multiply (meaning.multiply left middle) right =
    meaning.multiply left (meaning.multiply middle right))

/-- A chain of multiplications multiplies by its base from the left. -/
theorem denote_chainExpression {base product : Expression} {baseValue productValue : ν}
    (baseGenerated : Generated arithmetic base) (generated : Generated arithmetic product)
    (baseDenotes : base.denote arithmetic meaning = some baseValue)
    (denotes : product.denote arithmetic meaning = some productValue) (count : Nat) :
    (chainExpression (operatorName arithmetic .multiply) base count product).denote
        arithmetic meaning =
      some ((meaning.multiply · baseValue)^[count] productValue) := by
  induction count generalizing product productValue with
  | zero => exact denotes
  | succ count ih =>
      rw [Function.iterate_succ_apply]
      refine ih (.binary (by decide) generated baseGenerated) ?_
      exact denote_binary meaning generated (binary?_operator meaning (by decide)) denotes
        baseDenotes

/-- A chain that keeps to the length limit has fewer factors than an evaluation
multiplies. -/
theorem le_maximumFactors_of_chainExpression {name : String} {base : Expression} {count : Nat}
    (fits : (chainExpression name base (count - 1) base).textSize ≤
      FormulaError.maximumCodeLength) :
    count ≤ Exponent.maximumFactors := by
  rw [Expression.textSize, write_chainExpression, utf8ByteSize_multiplyChain] at fits
  have bound : count - 1 ≤ (name.utf8ByteSize + base.write.utf8ByteSize + 4) * (count - 1) :=
    Nat.le_mul_of_pos_left _ (by omega)
  simp only [FormulaError.maximumCodeLength, Exponent.maximumFactors, Nat.pow_eq] at *
  omega

include associative

/-- An expansion that keeps to the length limit has the value of the formula. -/
theorem Expands.exists_value {formula : Formula} {expression : Expression}
    (expands : Expands arithmetic formula expression)
    (fits : expression.textSize ≤ FormulaError.maximumCodeLength) :
    ∃ value, expression.denote arithmetic meaning = some value ∧
      formula.eval arithmetic meaning = .ok value := by
  -- the text of an operand is no longer than that of the construct, so it keeps to the limit
  induction expands with
  | negation inner ih =>
      obtain ⟨value, denotes, evaluates⟩ :=
        ih ((Expression.textSize_le_call_one _ _).trans fits)
      refine ⟨meaning.negate value,
        denote_unary meaning (.of_expands inner) (unary?_negation meaning) denotes, ?_⟩
      rw [eval_negation, evaluates]
      rfl
  | whole classified base ih =>
      obtain ⟨value, denotes, evaluates⟩ := ih ((textSize_le_chainExpression _ _ _).trans fits)
      have generated : Generated arithmetic _ := .of_expands base
      refine ⟨_, denote_chainExpression meaning generated generated denotes denotes _, ?_⟩
      rw [eval_power, evaluates, classified]
      change Except.ok (wholePower _ value (min _ Exponent.maximumFactors)) = _
      rw [Nat.min_eq_left (le_maximumFactors_of_chainExpression fits),
        wholePower_eq_iterate associative]
  | real classified base ih =>
      obtain ⟨value, denotes, evaluates⟩ :=
        ih ((Expression.textSize_le_call_two _ _ _).1.trans fits)
      refine ⟨_, denote_binary meaning (.of_expands base) (binary?_operator meaning (by decide))
        denotes (denote_constantExpression meaning (isFinite_of_exponent classified)), ?_⟩
      rw [eval_power, evaluates, classified]
      rfl
  | binary isBinary left right leftIH rightIH =>
      obtain ⟨leftSize, rightSize⟩ := Expression.textSize_le_call_two _ _ _
      obtain ⟨leftValue, leftDenotes, leftEvaluates⟩ := leftIH (leftSize.trans fits)
      obtain ⟨rightValue, rightDenotes, rightEvaluates⟩ := rightIH (rightSize.trans fits)
      refine ⟨_, denote_binary meaning (.of_expands left)
        (binary?_operator meaning isBinary.1) leftDenotes rightDenotes, ?_⟩
      rw [eval_binary arithmetic meaning isBinary, leftEvaluates, rightEvaluates]
      rfl
  | call named argument ih =>
      obtain ⟨value, denotes, evaluates⟩ :=
        ih ((Expression.textSize_le_call_one _ _).trans fits)
      refine ⟨_, denote_unary meaning (.of_expands argument) (unary?_function meaning _)
        denotes, ?_⟩
      rw [eval_call, named, evaluates]
      rfl
  | symbol known =>
      refine ⟨_, denote_symbolExpression meaning known, ?_⟩
      rw [eval_symbol, known]
  | constant finite =>
      refine ⟨_, denote_constantExpression meaning finite, ?_⟩
      rw [eval_constant, if_pos finite]

/-- Code that the generator accepts is the text of an expression with the value of the
formula. -/
theorem denote_of_treeCode {formula : Formula} {code : String} {expression : Expression}
    (accepted : treeCode arithmetic formula = .ok code)
    (expanded : expand arithmetic formula = .ok expression) :
    ∃ value, expression.denote arithmetic meaning = some value ∧
      formula.eval arithmetic meaning = .ok value := by
  obtain ⟨found, expanded', fits, -⟩ := treeCode_eq_ok_iff.mp accepted
  obtain rfl : expression = found := Except.ok.inj (expanded.symm.trans expanded')
  exact Expands.exists_value meaning associative (.of_expand expanded) fits

end Associative

/-- Accepted code reads in one way only, as a well-typed expression of primitives,
vectors, the point and the parameter, and the value of that expression is the value of
the formula. -/
theorem accepted_code_means_value {formula : Formula} {code : String}
    (accepted : formulaCode arithmetic formula = .ok code) :
    ∃ expression : Expression,
      (∀ other, Derives .sum code.toList other ↔ other = expression) ∧
      Generated arithmetic expression ∧
      expression.type? = some (valueType arithmetic) ∧
      (∀ name ∈ expression.references, name = "z" ∨ name = "c") ∧
      ∀ {ν : Type} (meaning : Interpretation ν),
        (∀ left middle right, meaning.multiply (meaning.multiply left middle) right =
          meaning.multiply left (meaning.multiply middle right)) →
        ∃ value, expression.denote arithmetic meaning = some value ∧
          formula.eval arithmetic meaning = .ok value := by
  obtain ⟨-, accepted, expression, expanded, rfl⟩ := exists_expand_of_formulaCode accepted
  have generated : Generated arithmetic expression := .of_expand expanded
  refine ⟨expression, generated.derives_write_iff, generated, generated.type?,
    generated.references, ?_⟩
  intro ν meaning associative
  exact denote_of_treeCode meaning associative accepted expanded

/-- The hypothesis of the theorem holds of the iterated map `z^2 + c`. -/
theorem accepted_code_means_value_square_add :
    formulaCode .projective
        (.operation .add [.operation .power [.symbol "z", .constant 2], .symbol "c"]) =
          .ok "_pAdd(_pMul(z, z), c)" ∧
      ∃ expression : Expression,
        ∀ other, Derives .sum "_pAdd(_pMul(z, z), c)".toList other ↔ other = expression := by
  have two : Exponent.ofFormula (.constant 2) = .ok (.whole 2) := by
    have number : Binary.ofFloat? 2 = some ⟨false, 2 ^ 52, -51⟩ := by decide +kernel
    simp only [Exponent.ofFormula, asConstant?, Exponent.ofValue, number]
    rfl
  have accepted : formulaCode .projective
      (.operation .add [.operation .power [.symbol "z", .constant 2], .symbol "c"]) =
        .ok "_pAdd(_pMul(z, z), c)" := by
    rw [formulaCode, if_neg (by simp [depth, deepest, children, maximumNesting])]
    rw [treeCode_binary .projective ⟨by decide, by decide⟩, treeCode_power, two]
    rfl
  obtain ⟨expression, unique, -⟩ := accepted_code_means_value accepted
  exact ⟨accepted, expression, unique⟩

end Stereograph.Shader
