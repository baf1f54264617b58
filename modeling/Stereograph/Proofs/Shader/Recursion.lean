import Mathlib.Dynamics.FixedPoints.Basic
import Stereograph.Formula.Value
import Stereograph.Proofs.Formula.Printing
import Stereograph.Proofs.Formula.Walk
import Stereograph.Proofs.Shader.Shape

/-!
# Depth of recursion

The generator and the evaluator recurse into a formula without counting how deep they are, so
they measure it first.  Both are consumers that differ in what they make of each form.  What
a consumer does at the root of a tree is written here with its calls left open, so that the
calls below some level can be answered by anything at all.  Where the answers do not matter,
the recursion is not that deep.
-/

namespace Stereograph

/-- What a consumer of formulas makes of each form, from what it has made of the operands. -/
structure Consumer (β : Type) where
  negate : β → Except FormulaError β
  power : β → Exponent → Except FormulaError β
  binary : Operator → β → β → Except FormulaError β
  call : ElementaryFunction → β → Except FormulaError β
  symbol : Symbol → β
  constant : Float → β

namespace Consumer

open Formula

variable {β : Type} (consumer : Consumer β) (arithmetic : Arithmetic)

/-- What a consumer does at the root of a tree, with its calls for the operands answered by
a function.  It looks at no argument of an operator that has a wrong number of them. -/
def atRoot (answer : Formula → Except FormulaError β) : Formula → Except FormulaError β
  | .operation operator arguments =>
      if arguments.length = operator.arity then
        match operator, arguments with
        | .negate, [inner] => do
            let inner ← answer inner
            consumer.negate inner
        | .power, [base, exponent] => do
            let base ← answer base
            let kind ← Exponent.ofFormula exponent
            consumer.power base kind
        | operator, [left, right] => do
            let left ← answer left
            let right ← answer right
            consumer.binary operator left right
        | operator, arguments => .error (.arity operator arguments.length)
      else .error (.arity operator arguments.length)
  | .call function argument =>
      match ElementaryFunction.named? function with
      | none => .error (.unsupportedFunction function)
      | some function => do
          let argument ← answer argument
          consumer.call function argument
  | .symbol name =>
      match arithmetic.symbol? name with
      | some known => .ok (consumer.symbol known)
      | none => .error (.unknownSymbol name arithmetic)
  | .constant value =>
      if value.isFinite then .ok (consumer.constant value) else .error (.notFinite value)

variable {consumer arithmetic} {answer : Formula → Except FormulaError β}

theorem atRoot_binary {operator : Operator} (isBinary : operator.IsBinary)
    (left right : Formula) :
    consumer.atRoot arithmetic answer (.operation operator [left, right]) =
      (do
        let left ← answer left
        let right ← answer right
        consumer.binary operator left right) := by
  cases operator with
  | negate => exact (isBinary.1 rfl).elim
  | power => exact (isBinary.2 rfl).elim
  | add | subtract | multiply | divide => rfl

theorem atRoot_misapplied {operator : Operator} {arguments : List Formula}
    (wrong : arguments.length ≠ operator.arity) :
    consumer.atRoot arithmetic answer (.operation operator arguments) =
      .error (.arity operator arguments.length) :=
  if_neg wrong

/-- A consumer calls itself for children of the root only. -/
theorem atRoot_congr {other : Formula → Except FormulaError β} {formula : Formula}
    (agree : ∀ child ∈ formula.children, answer child = other child) :
    consumer.atRoot arithmetic answer formula = consumer.atRoot arithmetic other formula := by
  induction formula using byForm with
  | negation inner _ =>
      have same := agree inner (List.mem_singleton_self inner)
      simp only [atRoot, same]
  | power base exponent _ =>
      have same := agree base List.mem_cons_self
      simp only [atRoot, same]
  | binary operator left right isBinary _ _ =>
      have sameLeft := agree left List.mem_cons_self
      have sameRight := agree right (List.mem_cons_of_mem left (List.mem_singleton_self right))
      simp only [atRoot_binary isBinary, sameLeft, sameRight]
  | misapplied operator arguments wrong => simp only [atRoot_misapplied wrong]
  | call function argument _ =>
      have same := agree argument (List.mem_singleton_self argument)
      simp only [atRoot, same]
  | symbol name => rfl
  | constant value => rfl

variable {whole : Formula → Except FormulaError β}

/-- Levels of calls that a tree is not higher than are enough: what deeper calls would answer
does not matter. -/
theorem iterate_atRoot (recursive : Function.IsFixedPt (consumer.atRoot arithmetic) whole)
    {levels : ℕ} {formula : Formula} (bounded : formula.height ≤ levels)
    (beyond : Formula → Except FormulaError β) :
    (consumer.atRoot arithmetic)^[levels] beyond formula = whole formula := by
  induction levels generalizing formula with
  | zero => exact (Nat.not_le_of_gt formula.height_pos bounded).elim
  | succ levels ih =>
      -- The root takes one level, and the calls for its children have the others.
      rw [Function.iterate_succ_apply', ← congrFun recursive formula]
      apply atRoot_congr
      intro child isChild
      have lower := height_lt_of_mem_children isChild
      exact ih (Nat.le_of_lt_succ (Nat.lt_of_lt_of_le lower bounded))

/-! ## The two consumers -/

/-- Evaluation under an interpretation. -/
def evaluator (meaning : Interpretation β) : Consumer β where
  negate inner := .ok (meaning.negate inner)
  power base
    | .whole count =>
        .ok (wholePower meaning.multiply base (min count Exponent.maximumFactors))
    | .real value => .ok (meaning.power base (meaning.constant value))
  binary operator left right := .ok (meaning.binary operator left right)
  call function argument := .ok (meaning.function function argument)
  symbol := meaning.symbol
  constant := meaning.constant

/-- Generation of code. -/
def generator (arithmetic : Arithmetic) : Consumer String where
  negate inner :=
    Shader.withinLimit (Shader.callCode (Shader.operatorName arithmetic .negate) inner)
  power base
    | .whole count => Shader.productCode arithmetic base count
    | .real value =>
        Shader.withinLimit <| Shader.callCode₂ (Shader.operatorName arithmetic .power) base
          (Shader.constantCode arithmetic value)
  binary operator left right :=
    Shader.withinLimit (Shader.callCode₂ (Shader.operatorName arithmetic operator) left right)
  call function argument :=
    Shader.withinLimit (Shader.callCode (Shader.functionName function) argument)
  symbol := Shader.symbolCode arithmetic
  constant := Shader.constantCode arithmetic

theorem isFixedPt_eval (meaning : Interpretation β) (arithmetic : Arithmetic) :
    Function.IsFixedPt ((evaluator meaning).atRoot arithmetic)
      (Formula.eval arithmetic meaning) := by
  funext formula
  induction formula using byForm with
  | negation inner _ => rfl
  | power base exponent _ =>
      rw [eval_power]
      refine bind_congr fun base => bind_congr fun kind => ?_
      cases kind <;> rfl
  | binary operator left right isBinary _ _ =>
      rw [atRoot_binary isBinary, eval_binary _ _ isBinary]
      rfl
  | misapplied operator arguments wrong =>
      rw [atRoot_misapplied wrong, eval_misapplied _ _ wrong]
  | call function argument _ => rfl
  | symbol name => rfl
  | constant value => rfl

theorem isFixedPt_treeCode (arithmetic : Arithmetic) :
    Function.IsFixedPt ((generator arithmetic).atRoot arithmetic)
      (Shader.treeCode arithmetic) := by
  funext formula
  induction formula using byForm with
  | negation inner _ => rfl
  | power base exponent _ =>
      rw [Shader.treeCode_power]
      refine bind_congr fun base => bind_congr fun kind => ?_
      cases kind <;> rfl
  | binary operator left right isBinary _ _ =>
      rw [atRoot_binary isBinary, Shader.treeCode_binary _ isBinary]
      rfl
  | misapplied operator arguments wrong =>
      rw [atRoot_misapplied wrong, Shader.treeCode_misapplied _ wrong]
  | call function argument _ => rfl
  | symbol name => rfl
  | constant value => rfl

/-! ## Refusals of deep trees -/

/-- No form is refused for its shape once it is recognized. -/
structure AcceptsShape (consumer : Consumer β) : Prop where
  negate : ∀ inner, Shader.AcceptsShape (consumer.negate inner)
  power : ∀ base kind, Shader.AcceptsShape (consumer.power base kind)
  binary : ∀ operator left right, Shader.AcceptsShape (consumer.binary operator left right)
  call : ∀ function argument, Shader.AcceptsShape (consumer.call function argument)

theorem acceptsShape_evaluator (meaning : Interpretation β) :
    (evaluator meaning).AcceptsShape where
  negate _ := .ok _
  power base kind := by
    cases kind with
    | whole count => exact .ok _
    | real value => exact .ok _
  binary _ _ _ := .ok _
  call _ _ := .ok _

theorem acceptsShape_generator (arithmetic : Arithmetic) :
    (generator arithmetic).AcceptsShape where
  negate _ := Shader.acceptsShape_withinLimit _
  power base kind := by
    cases kind with
    | whole count => exact Shader.acceptsShape_productCode arithmetic base count
    | real value => exact Shader.acceptsShape_withinLimit _
  binary _ _ _ := Shader.acceptsShape_withinLimit _
  call _ _ := Shader.acceptsShape_withinLimit _

/-- A result is not the refusal of a tree that is too deep. -/
def NotTooDeep (result : Except FormulaError β) : Prop :=
  result ≠ .error .nestingTooDeep

theorem NotTooDeep.of_acceptsShape {result : Except FormulaError β}
    (accepts : Shader.AcceptsShape result) : NotTooDeep result := by
  intro refused
  exact accepts _ refused .nestingTooDeep

theorem NotTooDeep.bind {γ : Type} {first : Except FormulaError β}
    {next : β → Except FormulaError γ} (shallow : NotTooDeep first)
    (continues : ∀ value, NotTooDeep (next value)) : NotTooDeep (first >>= next) := by
  cases first with
  | error error =>
      rintro ⟨⟩
      exact shallow rfl
  | ok value => exact continues value

/-- The recursion never finds a tree too deep. -/
theorem notTooDeep (recursive : Function.IsFixedPt (consumer.atRoot arithmetic) whole)
    (accepts : consumer.AcceptsShape) (formula : Formula) : NotTooDeep (whole formula) := by
  induction formula using byForm with
  | negation inner ih =>
      rw [← congrFun recursive]
      exact ih.bind fun _ => .of_acceptsShape (accepts.negate _)
  | power base exponent ih =>
      rw [← congrFun recursive]
      refine ih.bind fun _ => ?_
      exact (NotTooDeep.of_acceptsShape (Shader.acceptsShape_ofFormula exponent)).bind fun _ =>
        .of_acceptsShape (accepts.power _ _)
  | binary operator left right isBinary leftIH rightIH =>
      rw [← congrFun recursive, atRoot_binary isBinary]
      exact leftIH.bind fun _ => rightIH.bind fun _ => .of_acceptsShape (accepts.binary _ _ _)
  | misapplied operator arguments wrong =>
      rw [← congrFun recursive, atRoot_misapplied wrong]
      exact nofun
  | call function argument ih =>
      rw [← congrFun recursive, atRoot]
      split
      · exact nofun
      · exact ih.bind fun _ => .of_acceptsShape (accepts.call _ _)
  | symbol name =>
      rw [← congrFun recursive, atRoot]
      split <;> exact nofun
  | constant value =>
      rw [← congrFun recursive, atRoot]
      split <;> exact nofun

/-- Where the recursion refuses nothing for its depth, the check in front of it decides. -/
theorem NotTooDeep.ite_eq_iff {result : Except FormulaError β} (shallow : NotTooDeep result)
    (deep : Prop) [Decidable deep] :
    (if deep then .error .nestingTooDeep else result) = .error .nestingTooDeep ↔ deep := by
  rw [ite_eq_left_iff]
  constructor
  · intro refused
    by_contra accepted
    exact shallow (refused accepted)
  · intro holds accepted
    exact (accepted holds).elim

end Consumer

namespace Formula

open Consumer

/-- The generator refuses exactly the trees that are deeper than the limit for that. -/
theorem formulaCode_eq_nestingTooDeep_iff (arithmetic : Arithmetic) (formula : Formula) :
    Shader.formulaCode arithmetic formula = .error .nestingTooDeep ↔
      maximumNesting < formula.depth :=
  (notTooDeep (isFixedPt_treeCode arithmetic) (acceptsShape_generator arithmetic)
    formula).ite_eq_iff _

/-- So does every evaluator. -/
theorem value_eq_nestingTooDeep_iff {ν : Type} (arithmetic : Arithmetic)
    (meaning : Interpretation ν) (formula : Formula) :
    formula.value arithmetic meaning = .error .nestingTooDeep ↔
      maximumNesting < formula.depth :=
  (notTooDeep (isFixedPt_eval meaning arithmetic) (acceptsShape_evaluator meaning)
    formula).ite_eq_iff _

/-- The depth of a formula is the number of nodes on its longest path from the root to a leaf.
A walk finds it after one round for every node, whichever pending subtree a round takes.  The
generator and the evaluators refuse a formula for its depth exactly above the limit, and up to
the limit their recursion needs no more levels than that: whatever calls at a lower level
would answer, the result is the same. -/
theorem depth_guards_recursion (formula : Formula) :
    IsGreatest {length | ∃ path, formula.LeafPath path ∧ path.length = length}
        formula.depth ∧
      Walk.Run formula.size (.start formula) ⟨[], formula.depth⟩ ∧
      (∀ rounds walk, Walk.Run rounds (.start formula) walk →
        rounds ≤ formula.size ∧ ((∃ next, Walk.Round walk next) ↔ rounds < formula.size) ∧
          (rounds = formula.size → walk.deepest = formula.depth)) ∧
      (∀ arithmetic, Shader.formulaCode arithmetic formula = .error .nestingTooDeep ↔
        maximumNesting < formula.depth) ∧
      (∀ {α : Type} [Scalar α] (iterate parameter : Coordinate α) (number : ComplexNumber α),
        (formula.pointValue iterate parameter = .error .nestingTooDeep ↔
          maximumNesting < formula.depth) ∧
        (formula.numberValue number = .error .nestingTooDeep ↔
          maximumNesting < formula.depth)) ∧
      (formula.depth ≤ maximumNesting → ∀ arithmetic : Arithmetic,
        (∀ beyond, ((generator arithmetic).atRoot arithmetic)^[maximumNesting] beyond formula =
          Shader.formulaCode arithmetic formula) ∧
        ∀ {ν : Type} (meaning : Interpretation ν) beyond,
          ((evaluator meaning).atRoot arithmetic)^[maximumNesting] beyond formula =
            formula.value arithmetic meaning) := by
  refine ⟨?_, ?_, fun _ _ run => run.of_start, ?_, ?_, ?_⟩
  · rw [depth_eq_height]
    exact isGreatest_height formula
  · rw [← Walk.size_start]
    exact Walk.run_deepest [(formula, 1)] 0
  · intro arithmetic
    exact formulaCode_eq_nestingTooDeep_iff arithmetic formula
  · intro α _ iterate parameter number
    exact ⟨value_eq_nestingTooDeep_iff .projective _ formula,
      value_eq_nestingTooDeep_iff .affine _ formula⟩
  · intro bounded arithmetic
    have checked := Nat.not_lt.mpr bounded
    rw [depth_eq_height] at bounded
    refine ⟨?_, ?_⟩
    · intro beyond
      rw [Shader.formulaCode, if_neg checked]
      exact iterate_atRoot (isFixedPt_treeCode arithmetic) bounded beyond
    · intro ν meaning beyond
      rw [value, if_neg checked]
      exact iterate_atRoot (isFixedPt_eval meaning arithmetic) bounded beyond

/-- As many negations as the limit leaves room for, and one more.  A sum without operands is
a leaf. -/
theorem depth_guards_recursion_boundary :
    let deepest := negations 127 (.operation .add [])
    let deeper := negations 128 (.operation .add [])
    deepest.depth ≤ maximumNesting ∧
      (∀ beyond, ((generator .affine).atRoot .affine)^[maximumNesting] beyond deepest =
        Shader.formulaCode .affine deepest) ∧
      Shader.formulaCode .affine deepest ≠ .error .nestingTooDeep ∧
      Shader.formulaCode .affine deeper = .error .nestingTooDeep := by
  intro deepest deeper
  have leaf : (operation .add []).height = 1 := rfl
  have limit : maximumNesting = 128 := rfl
  have depth : deepest.depth = 128 := by
    rw [depth_eq_height, height_negations, leaf]
  have more : deeper.depth = 129 := by
    rw [depth_eq_height, height_negations, leaf]
  have bounded : deepest.depth ≤ maximumNesting := by
    rw [depth, limit]
  obtain ⟨-, -, -, refused, -, recursion⟩ := depth_guards_recursion deepest
  obtain ⟨-, -, -, refusedDeeper, -⟩ := depth_guards_recursion deeper
  refine ⟨bounded, (recursion bounded .affine).1, ?_, ?_⟩
  · rw [ne_eq, refused, depth, limit]
    decide
  · rw [refusedDeeper, more, limit]
    decide

end Formula

end Stereograph
