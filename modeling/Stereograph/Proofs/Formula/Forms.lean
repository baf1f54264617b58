import Stereograph.Formula.Evaluator

/-!
# Forms of formulas

Every consumer of a formula tells the same forms apart: a negation, a power, another
operator with two operands, an operator with a wrong number of arguments, a call, a
symbol and a constant.  The induction principle below has one case for each, and the
equations of evaluation follow the same list.

Two subtrees come without a hypothesis.  The arguments of a misapplied operator are
never looked at, and the exponent of a power is classified and not evaluated.
-/

namespace Stereograph

/-- The operators whose two operands are both evaluated. -/
def Operator.IsBinary (operator : Operator) : Prop :=
  operator ≠ .negate ∧ operator ≠ .power

/-- The operation of two operands that an operator stands for. -/
def Interpretation.binary {ν : Type} (meaning : Interpretation ν) :
    Operator → ν → ν → ν
  | .add => meaning.add
  | .subtract => meaning.subtract
  | .multiply => meaning.multiply
  | .divide => meaning.divide
  | .power => meaning.power
  | .negate => fun left _ => meaning.negate left

namespace Formula

/-- A sequence of computations is accepted when each of them is. -/
theorem exists_of_bind_ok {ε α β : Type} {first : Except ε α} {next : α → Except ε β}
    {result : β} (accepted : first >>= next = .ok result) :
    ∃ value, first = .ok value ∧ next value = .ok result := by
  cases first with
  | error error => cases accepted
  | ok value => exact ⟨value, rfl, accepted⟩

/-- What is accepted when errors are translated is accepted without translation. -/
theorem eq_ok_of_mapError {ε δ α : Type} {translate : ε → δ} {result : Except ε α} {value : α}
    (accepted : result.mapError translate = .ok value) : result = .ok value := by
  cases result with
  | error error => cases accepted
  | ok found =>
      cases accepted
      rfl

/-- Induction over trees by their forms. -/
theorem byForm {motive : Formula → Prop}
    (negation : ∀ inner, motive inner → motive (.operation .negate [inner]))
    (power : ∀ base exponent, motive base →
      motive (.operation .power [base, exponent]))
    (binary : ∀ (operator : Operator) (left right : Formula), operator.IsBinary →
      motive left → motive right → motive (.operation operator [left, right]))
    (misapplied : ∀ (operator : Operator) (arguments : List Formula),
      arguments.length ≠ operator.arity → motive (.operation operator arguments))
    (call : ∀ function argument, motive argument → motive (.call function argument))
    (symbol : ∀ name, motive (.symbol name))
    (constant : ∀ value, motive (.constant value)) :
    (formula : Formula) → motive formula
  | .operation operator arguments =>
      match operator, arguments with
      | .negate, [inner] => negation inner
          (byForm negation power binary misapplied call symbol constant inner)
      | .power, [base, exponent] => power base exponent
          (byForm negation power binary misapplied call symbol constant base)
      | .negate, [left, right] => misapplied .negate [left, right] (by simp [Operator.arity])
      | .add, [left, right] => binary .add left right ⟨by decide, by decide⟩
          (byForm negation power binary misapplied call symbol constant left)
          (byForm negation power binary misapplied call symbol constant right)
      | .subtract, [left, right] => binary .subtract left right ⟨by decide, by decide⟩
          (byForm negation power binary misapplied call symbol constant left)
          (byForm negation power binary misapplied call symbol constant right)
      | .multiply, [left, right] => binary .multiply left right ⟨by decide, by decide⟩
          (byForm negation power binary misapplied call symbol constant left)
          (byForm negation power binary misapplied call symbol constant right)
      | .divide, [left, right] => binary .divide left right ⟨by decide, by decide⟩
          (byForm negation power binary misapplied call symbol constant left)
          (byForm negation power binary misapplied call symbol constant right)
      | operator, [] => misapplied operator [] (by cases operator <;> decide)
      | .add, [inner] => misapplied .add [inner] (by simp [Operator.arity])
      | .subtract, [inner] => misapplied .subtract [inner] (by simp [Operator.arity])
      | .multiply, [inner] => misapplied .multiply [inner] (by simp [Operator.arity])
      | .divide, [inner] => misapplied .divide [inner] (by simp [Operator.arity])
      | .power, [inner] => misapplied .power [inner] (by simp [Operator.arity])
      | operator, first :: second :: third :: rest =>
          misapplied operator (first :: second :: third :: rest) (by
            cases operator <;> simp [Operator.arity])
  | .call function argument => call function argument
      (byForm negation power binary misapplied call symbol constant argument)
  | .symbol name => symbol name
  | .constant value => constant value
termination_by structural formula => formula

/-- The argument lists that do not fit their operator. -/
inductive Misapplied : Operator → List Formula → Prop
  | none (operator) : Misapplied operator []
  | one (operator first) (notUnary : operator ≠ .negate) : Misapplied operator [first]
  | two (first second) : Misapplied .negate [first, second]
  | many (operator first second third rest) :
      Misapplied operator (first :: second :: third :: rest)

theorem misapplied_cases {operator : Operator} {arguments : List Formula}
    (wrong : arguments.length ≠ operator.arity) : Misapplied operator arguments := by
  rcases arguments with _ | ⟨first, _ | ⟨second, _ | ⟨third, rest⟩⟩⟩
  · exact .none operator
  · apply Misapplied.one
    rintro rfl
    exact wrong rfl
  · cases operator with
    | negate => exact .two first second
    | add | subtract | multiply | divide | power => exact (wrong rfl).elim
  · exact .many operator first second third rest

/-! ## Evaluation of each form -/

variable {ν : Type} (arithmetic : Arithmetic) (meaning : Interpretation ν)

theorem eval_negation (inner : Formula) :
    eval arithmetic meaning (.operation .negate [inner]) =
      (do
        let inner ← inner.eval arithmetic meaning
        .ok (meaning.negate inner)) :=
  rfl

theorem eval_power (base exponent : Formula) :
    eval arithmetic meaning (.operation .power [base, exponent]) =
      (do
        let base ← base.eval arithmetic meaning
        match ← Exponent.ofFormula exponent with
        | .whole count =>
            .ok (wholePower meaning.multiply base (min count Exponent.maximumFactors))
        | .real value => .ok (meaning.power base (meaning.constant value))) :=
  rfl

theorem eval_binary {operator : Operator} (isBinary : operator.IsBinary)
    (left right : Formula) :
    eval arithmetic meaning (.operation operator [left, right]) =
      (do
        let left ← left.eval arithmetic meaning
        let right ← right.eval arithmetic meaning
        .ok (meaning.binary operator left right)) := by
  cases operator with
  | negate => exact (isBinary.1 rfl).elim
  | power => exact (isBinary.2 rfl).elim
  | add | subtract | multiply | divide => rfl

theorem eval_misapplied {operator : Operator} {arguments : List Formula}
    (wrong : arguments.length ≠ operator.arity) :
    eval arithmetic meaning (.operation operator arguments) =
      .error (.arity operator arguments.length) := by
  cases misapplied_cases wrong with
  | none operator => cases operator <;> rfl
  | one operator first notUnary =>
      cases operator with
      | negate => exact (notUnary rfl).elim
      | add | subtract | multiply | divide | power => rfl
  | two first second => rfl
  | many operator first second third rest => cases operator <;> rfl

theorem eval_call (function : String) (argument : Formula) :
    eval arithmetic meaning (.call function argument) =
      match ElementaryFunction.named? function with
      | none => .error (.unsupportedFunction function)
      | some function => (do
          let argument ← argument.eval arithmetic meaning
          .ok (meaning.function function argument)) :=
  rfl

theorem eval_symbol (name : String) :
    eval arithmetic meaning (.symbol name) =
      match arithmetic.symbol? name with
      | some known => .ok (meaning.symbol known)
      | none => .error (.unknownSymbol name arithmetic) :=
  rfl

theorem eval_constant (value : Float) :
    eval arithmetic meaning (.constant value) =
      if value.isFinite then .ok (meaning.constant value) else .error (.notFinite value) :=
  rfl

end Formula

end Stereograph
