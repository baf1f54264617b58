import Stereograph.Proofs.Formula.Height
import Stereograph.Proofs.Shader.Meaning
import Stereograph.Proofs.Sphere.Exact
import Stereograph.Shader.Quantity

/-!
# The parameter in affine code

Affine code is given the parameter as a homogeneous coordinate and divides its numerator
by the sum of the two parts of its denominator.  Over exact arithmetic that is the number
of the coordinate where the denominator is real, and a different number where it is not.
-/

namespace Stereograph.Shader

open Formula

/-! ## Values of generated expressions -/

section Quantities

variable {iterate parameter : Coordinate ℝ}

@[simp] theorem quantity?_number (magnitude : Float) :
    (Expression.number magnitude).quantity? iterate parameter =
      some (.scalar (Scalar.ofFloat magnitude : ℝ)) :=
  rfl

@[simp] theorem quantity?_opposite (operand : Expression) :
    operand.opposite.quantity? iterate parameter =
      (operand.quantity? iterate parameter).bind fun value => some (value.map (- ·)) :=
  rfl

@[simp] theorem quantity?_call (function : String) (arguments : List Expression) :
    (Expression.call function arguments).quantity? iterate parameter =
      (Expression.quantities? iterate parameter arguments).bind (Quantity.call? function) :=
  rfl

@[simp] theorem quantities?_nil :
    Expression.quantities? iterate parameter [] = some [] :=
  rfl

@[simp] theorem quantities?_cons (first : Expression) (rest : List Expression) :
    Expression.quantities? iterate parameter (first :: rest) =
      (first.quantity? iterate parameter).bind fun value =>
        (Expression.quantities? iterate parameter rest).bind fun others =>
          some (value :: others) :=
  rfl

theorem quantity?_ofFloat {value : Float} (finite : value.isFinite = true) :
    (Expression.ofFloat value).quantity? iterate parameter =
      some (.scalar (Scalar.ofFloat value : ℝ)) := by
  obtain ⟨number, decoded⟩ := Decimal.Binary.isFinite_iff.mp finite
  unfold Expression.ofFloat
  split
  · have value_eq := @ofFloat_real_neg (-value)
      (Decimal.Binary.isFinite_iff.mpr ⟨_, Decimal.Binary.ofFloat?_neg decoded⟩)
    rw [Decimal.Binary.neg_neg_of_ofFloat? decoded] at value_eq
    simp [Quantity.map, value_eq]
  · rfl

theorem quantity?_constantExpression {value : Float} (finite : value.isFinite = true) :
    (constantExpression .affine value).quantity? iterate parameter =
      some (.vec2 (.real (Scalar.ofFloat value))) := by
  simp [constantExpression, quantity?_ofFloat finite, Quantity.call?, ofFloat_real_zero,
    ComplexNumber.real]

theorem quantity?_imaginaryUnit :
    (symbolExpression .affine .imaginaryUnit).quantity? iterate parameter =
      some (.vec2 .imaginaryUnit) := by
  simp [symbolExpression, Quantity.call?, ofFloat_real_zero, ofFloat_real_one,
    ComplexNumber.imaginaryUnit]

theorem quantity?_unary {name : String} {operand : Expression}
    {operation : ComplexNumber ℝ → ComplexNumber ℝ} {value : ComplexNumber ℝ}
    (primitive : Expression.unary? .affine (.affine .zero) name = some operation)
    (computes : operand.quantity? iterate parameter = some (.vec2 value)) :
    (Expression.call name [operand]).quantity? iterate parameter =
      some (.vec2 (operation value)) := by
  simp [Quantity.call?, computes, primitive]

theorem quantity?_binary {name : String} {left right : Expression}
    {operation : ComplexNumber ℝ → ComplexNumber ℝ → ComplexNumber ℝ}
    {leftValue rightValue : ComplexNumber ℝ}
    (primitive : Expression.binary? .affine (.affine .zero) name = some operation)
    (leftComputes : left.quantity? iterate parameter = some (.vec2 leftValue))
    (rightComputes : right.quantity? iterate parameter = some (.vec2 rightValue)) :
    (Expression.call name [left, right]).quantity? iterate parameter =
      some (.vec2 (operation leftValue rightValue)) := by
  simp [Quantity.call?, leftComputes, rightComputes, primitive]

/-- An expression computes what it denotes when its parameter is the number that the
code of the parameter computes. -/
theorem Generated.exists_quantity? {number : ComplexNumber ℝ}
    (sees : (symbolExpression .affine .parameter).quantity? iterate parameter =
      some (.vec2 number))
    {expression : Expression} (generated : Generated .affine expression) :
    ∃ value, expression.denote .affine (.affine number) = some value ∧
      expression.quantity? iterate parameter = some (.vec2 value) := by
  induction generated with
  | constant finite =>
      exact ⟨_, denote_constantExpression _ finite, quantity?_constantExpression finite⟩
  | @symbol name symbol known =>
      refine ⟨_, denote_symbolExpression _ known, ?_⟩
      cases symbol with
      | imaginaryUnit => exact quantity?_imaginaryUnit
      | parameter => exact sees
      | iterate => exact (affine_symbol?_ne_iterate name known).elim
  | negation generated ih =>
      obtain ⟨value, denotes, computes⟩ := ih
      exact ⟨_, denote_unary _ generated (unary?_negation _) denotes,
        quantity?_unary (unary?_negation _) computes⟩
  | function function generated ih =>
      obtain ⟨value, denotes, computes⟩ := ih
      exact ⟨_, denote_unary _ generated (unary?_function _ function) denotes,
        quantity?_unary (unary?_function _ function) computes⟩
  | binary binary leftGenerated rightGenerated leftIH rightIH =>
      obtain ⟨leftValue, leftDenotes, leftComputes⟩ := leftIH
      obtain ⟨rightValue, rightDenotes, rightComputes⟩ := rightIH
      exact ⟨_, denote_binary _ leftGenerated (binary?_operator _ binary) leftDenotes
          rightDenotes,
        quantity?_binary (binary?_operator _ binary) leftComputes rightComputes⟩

end Quantities

/-! ## The number that the code reads -/

/-- The numerator over the sum of the parts of the denominator. -/
noncomputable def codeNumber (point : Coordinate ℝ) : ComplexNumber ℝ :=
  let divisor := point.denominator.im + point.denominator.re
  ⟨point.numerator.re / divisor, point.numerator.im / divisor⟩

theorem quantity?_parameter (iterate parameter : Coordinate ℝ) :
    (symbolExpression .affine .parameter).quantity? iterate parameter =
      if parameter.denominator.im + parameter.denominator.re = 0 then none
      else some (.vec2 (codeNumber parameter)) := by
  have numerator : Quantity.select? parameter "xy" = some (.vec2 parameter.numerator) := by
    simp [Quantity.select?, Quantity.component?]
  have abscissa : Quantity.select? parameter "z" =
      some (.scalar parameter.denominator.re) := by
    simp [Quantity.select?, Quantity.component?]
  have ordinate : Quantity.select? parameter "w" =
      some (.scalar parameter.denominator.im) := by
    simp [Quantity.select?, Quantity.component?]
  have code : (symbolExpression .affine .parameter).quantity? iterate parameter =
      (Quantity.select? parameter "xy").bind fun numerator =>
        ((Quantity.select? parameter "w").bind fun ordinate =>
          (Quantity.select? parameter "z").bind fun abscissa =>
            ordinate.zip? (fun first second => some (first + second)) abscissa).bind
          numerator.quotient? :=
    rfl
  rw [code, numerator, abscissa, ordinate]
  simp only [Option.bind_eq_bind, Option.bind_some, Quantity.zip?, Quantity.quotient?,
    Quantity.map, beq_real, decide_eq_true_eq]
  split <;> rfl

/-- Accepted affine code has the value of its formula at a number, when a homogeneous
coordinate is given as the parameter. -/
def ReadsParameterAs (parameter : Coordinate ℝ) (number : ComplexNumber ℝ) : Prop :=
  ∀ (formula : Formula) (code : String) (iterate : Coordinate ℝ),
    formulaCode .affine formula = .ok code →
    ∃ expression value, (∀ other, Derives .sum code.toList other ↔ other = expression) ∧
      expression.quantity? iterate parameter = some (.vec2 value) ∧
      formula.numberValue number = .ok value

theorem shallow_symbol (name : String) : ¬maximumNesting < (Formula.symbol name).depth := by
  rw [depth_eq_height]
  exact Nat.not_lt.mpr (Nat.le_of_ble_eq_true rfl)

theorem formulaCode_parameter :
    formulaCode .affine (.symbol "c") = .ok (symbolCode .affine .parameter) := by
  rw [formulaCode, if_neg (shallow_symbol "c"), treeCode_symbol]
  rfl

theorem numberValue_parameter (number : ComplexNumber ℝ) :
    (Formula.symbol "c").numberValue number = .ok number := by
  rw [numberValue, value, if_neg (shallow_symbol "c"), eval_symbol]
  rfl

/-- Code that has the right value for the parameter alone has it for every formula. -/
theorem readsParameterAs_iff {parameter : Coordinate ℝ} {number : ComplexNumber ℝ} :
    ReadsParameterAs parameter number ↔
      parameter.denominator.im + parameter.denominator.re ≠ 0 ∧
        codeNumber parameter = number := by
  constructor
  · intro reads
    obtain ⟨expression, value, unique, computes, evaluates⟩ :=
      reads _ _ parameter formulaCode_parameter
    have generated : Generated .affine (symbolExpression .affine .parameter) :=
      @Generated.symbol _ "c" _ rfl
    have same := (unique _).mp (write_symbolExpression .affine .parameter ▸
      (generated.derives_write_iff _).mpr rfl)
    rw [← same, quantity?_parameter] at computes
    rw [numberValue_parameter] at evaluates
    cases evaluates
    split at computes
    · cases computes
    · rename_i defined
      cases computes
      exact ⟨defined, rfl⟩
  · rintro ⟨defined, rfl⟩ formula code iterate accepted
    obtain ⟨shallow, accepted, expression, expanded, rfl⟩ :=
      exists_expand_of_formulaCode accepted
    have generated : Generated .affine expression := .of_expand expanded
    have sees := quantity?_parameter iterate parameter
    rw [if_neg defined] at sees
    obtain ⟨value, denotes, computes⟩ := generated.exists_quantity? sees
    obtain ⟨value', denotes', evaluates⟩ := denote_of_treeCode
      (.affine (codeNumber parameter)) ComplexNumber.mul_assoc accepted expanded
    rw [denotes] at denotes'
    cases denotes'
    refine ⟨expression, value, generated.derives_write_iff, computes, ?_⟩
    rw [numberValue, Formula.value, if_neg (Nat.not_lt.mpr shallow), evaluates]

/-! ## The number of the coordinate -/

theorem toComplex_codeNumber (point : Coordinate ℝ) :
    (codeNumber point).toComplex =
      point.numerator.toComplex / (point.denominator.im + point.denominator.re : ℝ) := by
  apply Complex.ext
  · rw [Complex.div_ofReal_re]
    rfl
  · rw [Complex.div_ofReal_im]
    rfl

/-- The code divides by the denominator when that is real, and by another number when it
is not. -/
theorem codeNumber_eq_div_iff (point : Coordinate ℝ) :
    codeNumber point = point.numerator.div point.denominator ↔
      point.denominator.im = 0 ∨ point.numerator = .zero := by
  have real : ((point.denominator.im + point.denominator.re : ℝ) : ℂ) =
      point.denominator.toComplex ↔ point.denominator.im = 0 := by
    rw [Complex.ext_iff]
    simp [ComplexNumber.toComplex, eq_comm]
  have zero : point.numerator = .zero ↔ point.numerator.toComplex = 0 :=
    ComplexNumber.toComplex_injective.eq_iff.symm
  rw [← ComplexNumber.toComplex_injective.eq_iff, toComplex_codeNumber,
    ComplexNumber.toComplex_div, zero]
  by_cases numerator : point.numerator.toComplex = 0
  · simp [numerator]
  · rw [div_eq_mul_inv, div_eq_mul_inv, mul_right_inj' numerator, inv_inj, real]
    simp [numerator]

/-- Over exact arithmetic, the code of every formula sees the number of the coordinate
exactly where the denominator is real, or where the number is zero and the code does not
divide by zero. -/
theorem affine_code_reads_ratio_iff (parameter : Coordinate ℝ)
    (finite : parameter.denominator ≠ .zero) :
    ReadsParameterAs parameter (parameter.numerator.div parameter.denominator) ↔
      parameter.denominator.im = 0 ∨
        parameter.numerator = .zero ∧
          parameter.denominator.im + parameter.denominator.re ≠ 0 := by
  rw [readsParameterAs_iff, codeNumber_eq_div_iff]
  have divides : parameter.denominator.im = 0 →
      parameter.denominator.im + parameter.denominator.re ≠ 0 := by
    intro real vanishes
    rw [real, zero_add] at vanishes
    apply finite
    apply ComplexNumber.toComplex_injective
    exact Complex.ext vanishes real
  constructor
  · rintro ⟨defined, real | zero⟩
    · exact .inl real
    · exact .inr ⟨zero, defined⟩
  · rintro (real | ⟨zero, defined⟩)
    · exact ⟨divides real, .inl real⟩
    · exact ⟨defined, .inr zero⟩

/-- The code sees one half at the coordinate `(1 : 2)`. -/
theorem affine_code_reads_half :
    (⟨2, 0⟩ : ComplexNumber ℝ) ≠ .zero ∧
      ReadsParameterAs ⟨⟨1, 0⟩, ⟨2, 0⟩⟩ (ComplexNumber.div ⟨1, 0⟩ ⟨2, 0⟩) := by
  have finite : (⟨2, 0⟩ : ComplexNumber ℝ) ≠ .zero := by
    intro zero
    exact two_ne_zero (congrArg ComplexNumber.re zero)
  exact ⟨finite, (affine_code_reads_ratio_iff ⟨⟨1, 0⟩, ⟨2, 0⟩⟩ finite).mpr (.inl rfl)⟩

/-- At the coordinate `(1 : i)`, whose number is `-i`, the code of the parameter sees
one. -/
theorem affine_code_misreads_imaginary_ratio :
    (⟨0, 1⟩ : ComplexNumber ℝ) ≠ .zero ∧
      ReadsParameterAs ⟨⟨1, 0⟩, ⟨0, 1⟩⟩ ⟨1, 0⟩ ∧
      ComplexNumber.div ⟨1, 0⟩ ⟨0, 1⟩ = (⟨0, -1⟩ : ComplexNumber ℝ) ∧
      ¬ ReadsParameterAs ⟨⟨1, 0⟩, ⟨0, 1⟩⟩ (ComplexNumber.div ⟨1, 0⟩ ⟨0, 1⟩) := by
  have quotient : ComplexNumber.div ⟨1, 0⟩ ⟨0, 1⟩ = (⟨0, -1⟩ : ComplexNumber ℝ) := by
    simp [ComplexNumber.div, ComplexNumber.normSq]
  have code : codeNumber ⟨⟨1, 0⟩, ⟨0, 1⟩⟩ = ⟨1, 0⟩ := by
    simp [codeNumber]
  refine ⟨?_, ?_, quotient, ?_⟩
  · intro zero
    exact one_ne_zero (congrArg ComplexNumber.im zero)
  · rw [readsParameterAs_iff]
    exact ⟨by simp, code⟩
  · rw [readsParameterAs_iff, code, quotient]
    intro reads
    exact one_ne_zero (congrArg ComplexNumber.re reads.2)

end Stereograph.Shader
