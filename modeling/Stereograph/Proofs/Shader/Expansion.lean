import Stereograph.Proofs.Decimal.Length
import Stereograph.Proofs.Formula.Forms
import Stereograph.Proofs.Shader.Literal
import Stereograph.Shader.Expansion

/-!
# Generated code as text of an expansion

The generator works on text and gives up on what is too long.  Wherever it does not
give up, it agrees with the expansion of the formula: it refuses what has no expansion,
with the same error, and otherwise its code is the text of the expansion.  Where it gives
up, the text of the expansion is too long as well, because the text of a construct is no
shorter than the texts of its parts.

The proof follows the forms of formulas.  Both sides take each form apart by the same
equation, so one lemma about sequencing carries every case that has operands.
-/

namespace Stereograph.Shader

open Formula

/-! ## Texts of single constructs -/

namespace Expression

@[simp] theorem write_reference (name : String) : (reference name).write = name :=
  rfl

@[simp] theorem write_number (magnitude : Float) :
    (number magnitude).write = literalText magnitude :=
  rfl

@[simp] theorem write_components (vector : Expression) (letters : String) :
    (components vector letters).write = vector.write ++ "." ++ letters :=
  rfl

@[simp] theorem write_sum (left right : Expression) :
    (sum left right).write = "(" ++ left.write ++ " + " ++ right.write ++ ")" :=
  rfl

@[simp] theorem write_quotient (left right : Expression) :
    (quotient left right).write = "(" ++ left.write ++ " / " ++ right.write ++ ")" :=
  rfl

theorem write_call (function : String) (arguments : List Expression) :
    (call function arguments).write =
      function ++ "(" ++ ", ".intercalate (writeAll arguments) ++ ")" :=
  rfl

@[simp] theorem writeAll_nil : writeAll [] = [] :=
  rfl

@[simp] theorem writeAll_cons (first : Expression) (rest : List Expression) :
    writeAll (first :: rest) = first.write :: writeAll rest :=
  rfl

@[simp] theorem write_call_one (function : String) (argument : Expression) :
    (call function [argument]).write = callCode function argument.write := by
  simp [write_call, callCode]

@[simp] theorem write_call_two (function : String) (left right : Expression) :
    (call function [left, right]).write =
      callCode₂ function left.write right.write := by
  simp [write_call, callCode₂, String.intercalate_cons_cons, String.append_assoc]

end Expression

@[simp] theorem write_constantExpression (arithmetic : Arithmetic) {value : Float}
    (finite : value.isFinite = true) :
    (constantExpression arithmetic value).write = constantCode arithmetic value := by
  cases arithmetic <;>
    simp [constantExpression, constantCode, Expression.write_call,
      write_ofFloat finite, ← String.toList_inj]

@[simp] theorem write_symbolExpression (arithmetic : Arithmetic) (symbol : Symbol) :
    (symbolExpression arithmetic symbol).write = symbolCode arithmetic symbol := by
  cases arithmetic <;> cases symbol <;>
    simp [symbolExpression, symbolCode, Expression.write_call]

theorem write_chainExpression (name : String) (base product : Expression) (count : Nat) :
    (chainExpression name base count product).write =
      multiplyChain name base.write count product.write := by
  induction count generalizing product with
  | zero => rfl
  | succ count ih => rw [chainExpression, ih, multiplyChain, Expression.write_call_two]

/-! ## Expansion and code of each form -/

section Forms

variable (arithmetic : Arithmetic)

theorem expand_negation (inner : Formula) :
    expand arithmetic (.operation .negate [inner]) =
      (do
        let inner ← expand arithmetic inner
        .ok (.call (operatorName arithmetic .negate) [inner])) :=
  rfl

theorem expand_power (base exponent : Formula) :
    expand arithmetic (.operation .power [base, exponent]) =
      (do
        let base ← expand arithmetic base
        match ← Exponent.ofFormula exponent with
        | .whole count =>
            .ok (chainExpression (operatorName arithmetic .multiply) base (count - 1) base)
        | .real value =>
            .ok (.call (operatorName arithmetic .power)
              [base, constantExpression arithmetic value])) :=
  rfl

theorem expand_binary {operator : Operator} (isBinary : operator.IsBinary)
    (left right : Formula) :
    expand arithmetic (.operation operator [left, right]) =
      (do
        let left ← expand arithmetic left
        let right ← expand arithmetic right
        .ok (.call (operatorName arithmetic operator) [left, right])) := by
  cases operator with
  | negate => exact (isBinary.1 rfl).elim
  | power => exact (isBinary.2 rfl).elim
  | add | subtract | multiply | divide => rfl

theorem expand_misapplied {operator : Operator} {arguments : List Formula}
    (wrong : arguments.length ≠ operator.arity) :
    expand arithmetic (.operation operator arguments) =
      .error (.arity operator arguments.length) := by
  cases misapplied_cases wrong with
  | none operator => cases operator <;> rfl
  | one operator first notUnary =>
      cases operator with
      | negate => exact (notUnary rfl).elim
      | add | subtract | multiply | divide | power => rfl
  | two first second => rfl
  | many operator first second third rest => cases operator <;> rfl

theorem expand_call (function : String) (argument : Formula) :
    expand arithmetic (.call function argument) =
      match ElementaryFunction.named? function with
      | none => .error (.unsupportedFunction function)
      | some function => (do
          let argument ← expand arithmetic argument
          .ok (.call (functionName function) [argument])) :=
  rfl

theorem expand_symbol (name : String) :
    expand arithmetic (.symbol name) =
      match arithmetic.symbol? name with
      | some known => .ok (symbolExpression arithmetic known)
      | none => .error (.unknownSymbol name arithmetic) :=
  rfl

theorem expand_constant (value : Float) :
    expand arithmetic (.constant value) =
      if value.isFinite then .ok (constantExpression arithmetic value)
      else .error (.notFinite value) :=
  rfl

theorem treeCode_negation (inner : Formula) :
    treeCode arithmetic (.operation .negate [inner]) =
      (do
        let inner ← treeCode arithmetic inner
        withinLimit (callCode (operatorName arithmetic .negate) inner)) :=
  rfl

theorem treeCode_power (base exponent : Formula) :
    treeCode arithmetic (.operation .power [base, exponent]) =
      (do
        let base ← treeCode arithmetic base
        match ← Exponent.ofFormula exponent with
        | .whole count => productCode arithmetic base count
        | .real value =>
            withinLimit <| callCode₂ (operatorName arithmetic .power) base
              (constantCode arithmetic value)) :=
  rfl

theorem treeCode_binary {operator : Operator} (isBinary : operator.IsBinary)
    (left right : Formula) :
    treeCode arithmetic (.operation operator [left, right]) =
      (do
        let left ← treeCode arithmetic left
        let right ← treeCode arithmetic right
        withinLimit (callCode₂ (operatorName arithmetic operator) left right)) := by
  cases operator with
  | negate => exact (isBinary.1 rfl).elim
  | power => exact (isBinary.2 rfl).elim
  | add | subtract | multiply | divide => rfl

theorem treeCode_misapplied {operator : Operator} {arguments : List Formula}
    (wrong : arguments.length ≠ operator.arity) :
    treeCode arithmetic (.operation operator arguments) =
      .error (.arity operator arguments.length) := by
  cases misapplied_cases wrong with
  | none operator => cases operator <;> rfl
  | one operator first notUnary =>
      cases operator with
      | negate => exact (notUnary rfl).elim
      | add | subtract | multiply | divide | power => rfl
  | two first second => rfl
  | many operator first second third rest => cases operator <;> rfl

theorem treeCode_call (function : String) (argument : Formula) :
    treeCode arithmetic (.call function argument) =
      match ElementaryFunction.named? function with
      | none => .error (.unsupportedFunction function)
      | some function => (do
          let argument ← treeCode arithmetic argument
          withinLimit (callCode (functionName function) argument)) :=
  rfl

theorem treeCode_symbol (name : String) :
    treeCode arithmetic (.symbol name) =
      match arithmetic.symbol? name with
      | some known => .ok (symbolCode arithmetic known)
      | none => .error (.unknownSymbol name arithmetic) :=
  rfl

theorem treeCode_constant (value : Float) :
    treeCode arithmetic (.constant value) =
      if value.isFinite then .ok (constantCode arithmetic value)
      else .error (.notFinite value) :=
  rfl

end Forms

/-- Formulas and their expansions, one rule for each form that has an expansion. -/
inductive Expands (arithmetic : Arithmetic) : Formula → Expression → Prop
  | negation {inner : Formula} {operand : Expression} :
      Expands arithmetic inner operand →
      Expands arithmetic (.operation .negate [inner])
        (.call (operatorName arithmetic .negate) [operand])
  | whole {base exponent : Formula} {operand : Expression} {count : Nat}
      (classified : Exponent.ofFormula exponent = .ok (.whole count)) :
      Expands arithmetic base operand →
      Expands arithmetic (.operation .power [base, exponent])
        (chainExpression (operatorName arithmetic .multiply) operand (count - 1) operand)
  | real {base exponent : Formula} {operand : Expression} {value : Float}
      (classified : Exponent.ofFormula exponent = .ok (.real value)) :
      Expands arithmetic base operand →
      Expands arithmetic (.operation .power [base, exponent])
        (.call (operatorName arithmetic .power) [operand, constantExpression arithmetic value])
  | binary {operator : Operator} {left right : Formula} {leftOperand rightOperand : Expression}
      (isBinary : operator.IsBinary) :
      Expands arithmetic left leftOperand → Expands arithmetic right rightOperand →
      Expands arithmetic (.operation operator [left, right])
        (.call (operatorName arithmetic operator) [leftOperand, rightOperand])
  | call {name : String} {function : ElementaryFunction} {argument : Formula}
      {operand : Expression} (named : ElementaryFunction.named? name = some function) :
      Expands arithmetic argument operand →
      Expands arithmetic (.call name argument) (.call (functionName function) [operand])
  | symbol {name : String} {symbol : Symbol} (known : arithmetic.symbol? name = some symbol) :
      Expands arithmetic (.symbol name) (symbolExpression arithmetic symbol)
  | constant {value : Float} (finite : value.isFinite = true) :
      Expands arithmetic (.constant value) (constantExpression arithmetic value)

/-- What expands does so by one of the rules. -/
theorem Expands.of_expand {arithmetic : Arithmetic} {formula : Formula}
    {expression : Expression} (expanded : expand arithmetic formula = .ok expression) :
    Expands arithmetic formula expression := by
  induction formula using byForm generalizing expression with
  | negation inner ih =>
      rw [expand_negation] at expanded
      obtain ⟨operand, innerExpanded, ⟨⟩⟩ := exists_of_bind_ok expanded
      exact .negation (ih innerExpanded)
  | power base exponent ih =>
      rw [expand_power] at expanded
      obtain ⟨operand, baseExpanded, expanded⟩ := exists_of_bind_ok expanded
      obtain ⟨kind, classified, expanded⟩ := exists_of_bind_ok expanded
      cases kind with
      | whole count =>
          cases expanded
          exact .whole classified (ih baseExpanded)
      | real value =>
          cases expanded
          exact .real classified (ih baseExpanded)
  | binary operator left right isBinary leftIH rightIH =>
      rw [expand_binary arithmetic isBinary] at expanded
      obtain ⟨leftOperand, leftExpanded, expanded⟩ := exists_of_bind_ok expanded
      obtain ⟨rightOperand, rightExpanded, ⟨⟩⟩ := exists_of_bind_ok expanded
      exact .binary isBinary (leftIH leftExpanded) (rightIH rightExpanded)
  | misapplied operator arguments wrong =>
      rw [expand_misapplied arithmetic wrong] at expanded
      cases expanded
  | call function argument ih =>
      rw [expand_call] at expanded
      cases named : ElementaryFunction.named? function with
      | none =>
          rw [named] at expanded
          cases expanded
      | some function =>
          rw [named] at expanded
          obtain ⟨operand, argumentExpanded, ⟨⟩⟩ := exists_of_bind_ok expanded
          exact .call named (ih argumentExpanded)
  | symbol name =>
      rw [expand_symbol] at expanded
      cases known : arithmetic.symbol? name with
      | none =>
          rw [known] at expanded
          cases expanded
      | some symbol =>
          rw [known] at expanded
          cases expanded
          exact .symbol known
  | constant value =>
      rw [expand_constant] at expanded
      split at expanded
      · rename_i finite
        cases expanded
        exact .constant finite
      · cases expanded

/-! ## Lengths -/

namespace Expression

/-- Number of bytes of an expression's text. -/
def textSize (expression : Expression) : Nat :=
  expression.write.utf8ByteSize

theorem textSize_le_call_one (function : String) (argument : Expression) :
    argument.textSize ≤ (call function [argument]).textSize := by
  simp only [textSize, write_call_one, callCode, String.utf8ByteSize_append]
  omega

theorem textSize_le_call_two (function : String) (left right : Expression) :
    left.textSize ≤ (call function [left, right]).textSize ∧
      right.textSize ≤ (call function [left, right]).textSize := by
  simp only [textSize, write_call_two, callCode₂, String.utf8ByteSize_append]
  omega

end Expression

/-- A chain has the length that is counted for it. -/
theorem utf8ByteSize_multiplyChain (name base code : String) (count : Nat) :
    (multiplyChain name base count code).utf8ByteSize =
      code.utf8ByteSize + (name.utf8ByteSize + base.utf8ByteSize + 4) * count := by
  induction count generalizing code with
  | zero => rfl
  | succ count ih =>
      have step : (callCode₂ name code base).utf8ByteSize =
          code.utf8ByteSize + (name.utf8ByteSize + base.utf8ByteSize + 4) := by
        simp only [callCode₂, String.utf8ByteSize_append]
        have opening : "(".utf8ByteSize = 1 := rfl
        have comma : ", ".utf8ByteSize = 2 := rfl
        have closing : ")".utf8ByteSize = 1 := rfl
        omega
      rw [multiplyChain, ih, step, Nat.mul_succ]
      omega

theorem textSize_le_chainExpression (name : String) (base : Expression) (count : Nat) :
    base.textSize ≤ (chainExpression name base count base).textSize := by
  rw [Expression.textSize, Expression.textSize, write_chainExpression,
    utf8ByteSize_multiplyChain]
  exact Nat.le_add_right _ _

/-- A constant keeps to the limit on code. -/
theorem textSize_constantExpression_le (arithmetic : Arithmetic) {value : Float}
    (finite : value.isFinite = true) :
    (constantExpression arithmetic value).textSize ≤ FormulaError.maximumCodeLength := by
  obtain ⟨number, stored⟩ := Decimal.Binary.isFinite_iff.mp finite
  have digits := Decimal.Binary.length_display_le stored
  have display := Decimal.utf8ByteSize_le (Decimal.display value)
  have literal : (literalText value).utf8ByteSize ≤ 4406 := by
    rw [literalText_eq]
    split
    · omega
    · rw [String.utf8ByteSize_append]
      have zero : ".0".utf8ByteSize = 2 := rfl
      omega
  have limit : FormulaError.maximumCodeLength = 65536 := rfl
  rw [Expression.textSize, write_constantExpression arithmetic finite, limit]
  cases arithmetic with
  | projective =>
      simp only [constantCode, String.utf8ByteSize_append]
      have opening : "vec4(".utf8ByteSize = 5 := rfl
      have closing : ", 0.0, 1.0, 0.0)".utf8ByteSize = 16 := rfl
      omega
  | affine =>
      simp only [constantCode, String.utf8ByteSize_append]
      have opening : "vec2(".utf8ByteSize = 5 := rfl
      have closing : ", 0.0)".utf8ByteSize = 6 := rfl
      omega

theorem textSize_symbolExpression_le (arithmetic : Arithmetic) (symbol : Symbol) :
    (symbolExpression arithmetic symbol).textSize ≤ FormulaError.maximumCodeLength := by
  rw [Expression.textSize, write_symbolExpression]
  cases arithmetic <;> cases symbol <;> decide +kernel

/-! ## Code against the expansion -/

/-- The code of a construct is the text of its expansion, or the text is too long. -/
inductive IsTextOf : Except FormulaError String → Except FormulaError Expression → Prop
  | tooLong (expansion)
      (long : ∀ expression, expansion = .ok expression →
        FormulaError.maximumCodeLength < expression.textSize) :
      IsTextOf (.error .codeTooLong) expansion
  | refused (error) : IsTextOf (.error error) (.error error)
  | written (expression) (fits : expression.textSize ≤ FormulaError.maximumCodeLength) :
      IsTextOf (.ok expression.write) (.ok expression)

namespace IsTextOf

variable {code : Except FormulaError String}
  {expansion : Except FormulaError Expression}

/-- Constructs agree when their operands do and the constructions above them do.  What is
built is no shorter than its operand. -/
theorem bind {extend : String → Except FormulaError String}
    {grow : Expression → Except FormulaError Expression}
    (operand : IsTextOf code expansion)
    (above : ∀ expression, IsTextOf (extend expression.write) (grow expression))
    (longer : ∀ expression result, grow expression = .ok result →
      expression.textSize ≤ result.textSize) :
    IsTextOf (code >>= extend) (expansion >>= grow) := by
  cases operand with
  | tooLong expansion long =>
      refine .tooLong _ fun result built => ?_
      obtain ⟨expression, expanded, built⟩ := exists_of_bind_ok built
      exact (long expression expanded).trans_le (longer expression result built)
  | refused error => exact .refused error
  | written expression => exact above expression

theorem ok {text : String} {expression : Expression} (same : expression.write = text)
    (fits : expression.textSize ≤ FormulaError.maximumCodeLength) :
    IsTextOf (.ok text) (.ok expression) := by
  rw [← same]
  exact .written expression fits

theorem withinLimit {text : String} {expression : Expression}
    (same : expression.write = text) :
    IsTextOf (Shader.withinLimit text) (.ok expression) := by
  have size : expression.textSize = text.utf8ByteSize := by
    rw [Expression.textSize, same]
  unfold Shader.withinLimit
  split
  · rename_i long
    refine .tooLong _ fun found same => ?_
    cases same
    rwa [size]
  · rename_i fits
    exact ok same (size.trans_le (Nat.le_of_not_lt fits))

theorem productCode (arithmetic : Arithmetic) (base : Expression) (count : Nat) :
    IsTextOf (Shader.productCode arithmetic base.write count)
      (.ok (chainExpression (operatorName arithmetic .multiply) base (count - 1)
        base)) := by
  have text := write_chainExpression (operatorName arithmetic .multiply) base base (count - 1)
  rw [productCode_eq, ← utf8ByteSize_multiplyChain, ← text]
  exact withinLimit rfl

/-- Calls with one argument agree when their arguments do. -/
theorem call (operand : IsTextOf code expansion) (name : String) :
    IsTextOf
      (do
        let argument ← code
        Shader.withinLimit (callCode name argument))
      (do
        let argument ← expansion
        .ok (.call name [argument])) := by
  refine operand.bind (fun argument => .withinLimit (Expression.write_call_one _ argument)) ?_
  intro argument result built
  cases built
  exact Expression.textSize_le_call_one name argument

end IsTextOf

/-- A real exponent is the value that was classified. -/
theorem isFinite_of_exponent {exponent : Formula} {value : Float}
    (real : Exponent.ofFormula exponent = .ok (.real value)) :
    value.isFinite = true := by
  unfold Exponent.ofFormula at real
  split at real
  · rename_i found _
    unfold Exponent.ofValue at real
    split at real
    · cases real
    · rename_i number finite
      have same : found = value := by
        split at real
        · cases real
        split at real
        · cases real
          rfl
        split at real <;> cases real
        rfl
      rw [← same]
      exact Decimal.Binary.isFinite_iff.mpr ⟨number, finite⟩
  · cases real

/-- Code that is not too long is the text of the expansion, and what has no expansion
has no code. -/
theorem isTextOf_treeCode (arithmetic : Arithmetic) (formula : Formula) :
    IsTextOf (treeCode arithmetic formula) (expand arithmetic formula) := by
  induction formula using byForm with
  | negation inner ih =>
      rw [treeCode_negation, expand_negation]
      exact ih.call _
  | power base exponent ih =>
      rw [treeCode_power, expand_power]
      refine ih.bind (fun operand => ?_) (fun operand result built => ?_)
      · cases classified : Exponent.ofFormula exponent with
        | error error => exact .refused error
        | ok kind =>
            cases kind with
            | whole count => exact .productCode arithmetic operand count
            | real value =>
                refine .withinLimit ?_
                rw [Expression.write_call_two,
                  write_constantExpression arithmetic (isFinite_of_exponent classified)]
      · obtain ⟨kind, -, built⟩ := exists_of_bind_ok built
        cases kind with
        | whole count =>
            cases built
            exact textSize_le_chainExpression _ operand (count - 1)
        | real value =>
            cases built
            exact (Expression.textSize_le_call_two _ operand _).1
  | binary operator left right isBinary leftText rightText =>
      rw [treeCode_binary arithmetic isBinary, expand_binary arithmetic isBinary]
      refine leftText.bind (fun leftOperand => rightText.bind (fun rightOperand => ?_)
        (fun rightOperand result built => ?_)) (fun leftOperand result built => ?_)
      · exact .withinLimit (Expression.write_call_two _ leftOperand rightOperand)
      · cases built
        exact (Expression.textSize_le_call_two _ leftOperand rightOperand).2
      · obtain ⟨rightOperand, -, built⟩ := exists_of_bind_ok built
        cases built
        exact (Expression.textSize_le_call_two _ leftOperand rightOperand).1
  | misapplied operator arguments wrong =>
      rw [treeCode_misapplied arithmetic wrong, expand_misapplied arithmetic wrong]
      exact .refused _
  | call function argument ih =>
      rw [treeCode_call, expand_call]
      cases ElementaryFunction.named? function with
      | none => exact .refused _
      | some function => exact ih.call _
  | symbol name =>
      rw [treeCode_symbol, expand_symbol]
      cases arithmetic.symbol? name with
      | none => exact .refused _
      | some known =>
          exact .ok (write_symbolExpression arithmetic known)
            (textSize_symbolExpression_le arithmetic known)
  | constant value =>
      rw [treeCode_constant, expand_constant]
      split
      · rename_i finite
        exact .ok (write_constantExpression arithmetic finite)
          (textSize_constantExpression_le arithmetic finite)
      · exact .refused _

/-- Code is accepted exactly when it is the text of an expansion and keeps to the limit. -/
theorem treeCode_eq_ok_iff {arithmetic : Arithmetic} {formula : Formula} {code : String} :
    treeCode arithmetic formula = .ok code ↔
      ∃ expression, expand arithmetic formula = .ok expression ∧
        expression.textSize ≤ FormulaError.maximumCodeLength ∧ expression.write = code := by
  have text := isTextOf_treeCode arithmetic formula
  generalize treeCode arithmetic formula = result at text
  generalize expand arithmetic formula = expansion at text
  cases text with
  | tooLong expansion long =>
      constructor
      · nofun
      · rintro ⟨expression, expanded, fits, -⟩
        exact absurd fits (Nat.not_le.mpr (long expression expanded))
  | refused error =>
      constructor
      · nofun
      · rintro ⟨expression, expanded, -⟩
        cases expanded
  | written expression fits =>
      constructor
      · intro same
        cases same
        exact ⟨expression, rfl, fits, rfl⟩
      · rintro ⟨found, same, -, written⟩
        cases same
        rw [written]

/-- A tree has code when it is not too deep and the walk has code for it. -/
theorem formulaCode_eq_ok_iff_treeCode {arithmetic : Arithmetic} {formula : Formula}
    {code : String} :
    formulaCode arithmetic formula = .ok code ↔
      formula.depth ≤ maximumNesting ∧ treeCode arithmetic formula = .ok code := by
  unfold formulaCode
  split
  · rename_i deep
    constructor
    · nofun
    · rintro ⟨shallow, -⟩
      exact absurd shallow (Nat.not_le.mpr deep)
  · rename_i shallow
    exact (and_iff_right (Nat.le_of_not_lt shallow)).symm

/-- Accepted code is the text of the expansion of a tree that is not too deep. -/
theorem exists_expand_of_formulaCode {arithmetic : Arithmetic} {formula : Formula}
    {code : String} (accepted : formulaCode arithmetic formula = .ok code) :
    formula.depth ≤ maximumNesting ∧ treeCode arithmetic formula = .ok code ∧
      ∃ expression, expand arithmetic formula = .ok expression ∧
        expression.write = code := by
  obtain ⟨shallow, accepted⟩ := formulaCode_eq_ok_iff_treeCode.mp accepted
  obtain ⟨expression, expanded, -, text⟩ := treeCode_eq_ok_iff.mp accepted
  exact ⟨shallow, accepted, expression, expanded, text⟩

end Stereograph.Shader
