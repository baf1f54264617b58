import Stereograph.Proofs.Formula.WellFormed
import Stereograph.Proofs.Shader.Expansion
import Stereograph.Shader.Program

/-!
# Texts are never refused for the shape of their tree

The generator refuses a tree for its shape when an operator has a wrong number of arguments
or when the tree is too deep.  Both can happen to a tree that was put together by hand.
Neither happens to a tree that was read from a text, since its operators have their
arguments and the reader has measured it with the same limit.
-/

namespace Stereograph

/-- The shape of the tree is to blame, whatever its names and constants are. -/
inductive FormulaError.BlamesShape : FormulaError → Prop
  | arity (operator found) : BlamesShape (.arity operator found)
  | nestingTooDeep : BlamesShape .nestingTooDeep

namespace Shader

open Formula

/-- A result is not an error that blames the shape. -/
def AcceptsShape {α : Type} (result : Except FormulaError α) : Prop :=
  ∀ error, result = .error error → ¬error.BlamesShape

namespace AcceptsShape

variable {α β : Type}

theorem ok (value : α) : AcceptsShape (.ok value) :=
  nofun

theorem error {error : FormulaError} (other : ¬error.BlamesShape) :
    AcceptsShape (.error error : Except FormulaError α) := by
  rintro _ ⟨⟩
  exact other

theorem bind {first : Except FormulaError α} {next : α → Except FormulaError β}
    (accepts : AcceptsShape first) (continues : ∀ value, AcceptsShape (next value)) :
    AcceptsShape (first >>= next) := by
  cases first with
  | error cause => exact .error (accepts cause rfl)
  | ok value => exact continues value

end AcceptsShape

theorem acceptsShape_withinLimit (code : String) : AcceptsShape (withinLimit code) := by
  unfold withinLimit
  split
  · exact .error nofun
  · exact .ok code

theorem acceptsShape_productCode (arithmetic : Arithmetic) (base : String) (count : Nat) :
    AcceptsShape (productCode arithmetic base count) := by
  rw [productCode_eq]
  split
  · exact .error nofun
  · exact .ok _

/-- An exponent is refused for what it is and not for its shape. -/
theorem acceptsShape_ofFormula (exponent : Formula) :
    AcceptsShape (Exponent.ofFormula exponent) := by
  unfold Exponent.ofFormula
  split
  · unfold Exponent.ofValue
    split
    · exact .error nofun
    split
    · exact .error nofun
    split
    · exact .ok _
    split <;> exact .ok _
  · exact .error nofun

/-- Trees whose operators have their arguments are not refused for a number of
arguments. -/
theorem acceptsShape_treeCode (arithmetic : Arithmetic) {admits : Float → Prop}
    {formula : Formula} (wellFormed : formula.WellFormed admits) :
    AcceptsShape (treeCode arithmetic formula) := by
  induction formula using byForm with
  | negation inner ih =>
      cases wellFormed with
      | operation _ below =>
          rw [treeCode_negation]
          exact (ih (below inner List.mem_cons_self)).bind fun _ => acceptsShape_withinLimit _
  | power base exponent ih =>
      cases wellFormed with
      | operation _ below =>
          rw [treeCode_power]
          refine (ih (below base List.mem_cons_self)).bind fun _ => ?_
          refine (acceptsShape_ofFormula exponent).bind fun kind => ?_
          cases kind with
          | whole count => exact acceptsShape_productCode arithmetic _ count
          | real value => exact acceptsShape_withinLimit _
  | binary operator left right isBinary leftIH rightIH =>
      cases wellFormed with
      | operation _ below =>
          rw [treeCode_binary arithmetic isBinary]
          refine (leftIH (below left List.mem_cons_self)).bind fun _ => ?_
          refine (rightIH (below right (.tail _ List.mem_cons_self))).bind fun _ => ?_
          exact acceptsShape_withinLimit _
  | misapplied operator arguments wrong =>
      cases wellFormed with
      | operation arity _ => exact (wrong arity).elim
  | call function argument ih =>
      cases wellFormed with
      | call _ below =>
          rw [treeCode_call]
          split
          · exact .error nofun
          · exact (ih below).bind fun _ => acceptsShape_withinLimit _
  | symbol name =>
      rw [treeCode_symbol]
      split
      · exact .ok _
      · exact .error nofun
  | constant value =>
      rw [treeCode_constant]
      split
      · exact .ok _
      · exact .error nofun

/-- No text is refused for the shape of its tree: what can be read is neither too deep nor
does it misapply an operator. -/
theorem acceptsShape_compile (arithmetic : Arithmetic) (text : String) :
    AcceptsShape (compile arithmetic text) := by
  unfold compile
  cases read : parse text with
  | error fault =>
      rcases exists_malformed_of_parse read with ⟨offset, fault, rfl⟩
      exact .error nofun
  | ok formula =>
      have bounded := (parse_eq_ok_iff_derives.mp read).2
      rw [← depth_eq_height] at bounded
      change AcceptsShape (formulaCode arithmetic formula)
      rw [formulaCode, if_neg (Nat.not_lt.mpr bounded)]
      exact acceptsShape_treeCode arithmetic (wellFormed_of_parse read)

/-- What a text is read as is well formed, with constants from zero to infinity.  The depth
that the reader keeps is the depth of the tree, within the limit.  Hence the code of a text
is never refused for the number of an operator's arguments or for the depth of the tree. -/
theorem texts_read_as_well_formed_trees (text : String) :
    (∀ formula, parse text = .ok formula →
      formula.WellFormed Decimal.IsUnsigned ∧
      (∃ parsed, Reader.top (lexemes text) = .ok parsed ∧ parsed.rest = [] ∧
        parsed.subtree = ⟨formula, formula.depth⟩) ∧
      formula.depth ≤ maximumNesting) ∧
    ∀ arithmetic error, compile arithmetic text = .error error → ¬error.BlamesShape := by
  refine ⟨?_, fun arithmetic => acceptsShape_compile arithmetic text⟩
  intro formula read
  have bounded := (parse_eq_ok_iff_derives.mp read).2
  rw [← depth_eq_height] at bounded
  exact ⟨wellFormed_of_parse read, exists_top_of_parse read, bounded⟩

/-- A constant past the largest finite number is read as infinity, and the code is refused
for it. -/
theorem texts_read_as_well_formed_trees_infinity :
    ∃ formula,
      (parse "-1e999f(z)^2" = .ok formula ∧
        compile .affine "-1e999f(z)^2" = .error (.notFinite (1 / 0))) ∧
      (formula.WellFormed Decimal.IsUnsigned ∧
        (∃ parsed, Reader.top (lexemes "-1e999f(z)^2") = .ok parsed ∧ parsed.rest = [] ∧
          parsed.subtree = ⟨formula, formula.depth⟩) ∧
        formula.depth ≤ maximumNesting) ∧
      ¬(FormulaError.notFinite (1 / 0)).BlamesShape := by
  have tokens : (lexemes "-1e999f(z)^2").map Lexeme.token = [.minus, .number (1 / 0),
      .name "f", .opening, .name "z", .closing, .caret, .number 2] := by
    decide +kernel
  have argument : Formula.Derives 127 .sum [.name "z"] (.symbol "z") :=
    .product (.unary (.unsigned (.unscaled (.primary .symbol))))
  have read : parse "-1e999f(z)^2" = .ok (.operation .negate [.operation .multiply
      [.constant (1 / 0), .operation .power [.call "f" (.symbol "z"), .constant 2]]]) := by
    rw [parse_eq_ok_iff_derives, tokens]
    exact ⟨.product (.unary (.negate (.unsigned (.scaled (.primaryPower (.call argument)
      (.unsigned .number)))))), by decide⟩
  have refused : compile .affine "-1e999f(z)^2" = .error (.notFinite (1 / 0)) := by
    have infinite : (1 / 0 : Float).isFinite = false := by decide +kernel
    have constant : treeCode .affine (.constant (1 / 0)) = .error (.notFinite (1 / 0)) := by
      rw [treeCode_constant, infinite]
      rfl
    rw [compile, read]
    change formulaCode _ _ = _
    rw [formulaCode, depth_eq_height, if_neg (by decide), treeCode_negation,
      treeCode_binary .affine ⟨by decide, by decide⟩, constant]
    rfl
  obtain ⟨accepted, generated⟩ := texts_read_as_well_formed_trees "-1e999f(z)^2"
  exact ⟨_, ⟨read, refused⟩, accepted _ read, generated .affine _ refused⟩

end Shader

end Stereograph
