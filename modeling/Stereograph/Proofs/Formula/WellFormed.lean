import Stereograph.Proofs.Decimal.Unsigned
import Stereograph.Proofs.Formula.Completeness

/-!
# Well-formed trees

The tree of a formula may be wrong in ways that no text has: an operator with too many
arguments, a name that is no name, a negative constant.  What is read from a text is wrong
in none of these ways.  Its names and constants are those of the text's tokens, its
operators get their arguments from the grammar, and the depth that is kept during the
reading is the depth of the tree.
-/

namespace Stereograph.Formula

open Decimal

/-- Every operator has its number of arguments, every name is one, and the constants are
admitted ones. -/
inductive WellFormed (admits : Float → Prop) : Formula → Prop
  | operation {operator arguments} (arity : arguments.length = operator.arity)
      (below : ∀ argument ∈ arguments, WellFormed admits argument) :
      WellFormed admits (.operation operator arguments)
  | call {function argument} (isName : IsName function) (below : WellFormed admits argument) :
      WellFormed admits (.call function argument)
  | symbol {name} (isName : IsName name) : WellFormed admits (.symbol name)
  | constant {value} (admitted : admits value) : WellFormed admits (.constant value)

namespace WellFormed

variable {admits : Float → Prop} {operator : Operator} {inner left right : Formula}

theorem negation (below : inner.WellFormed admits) :
    WellFormed admits (.operation .negate [inner]) := by
  refine .operation rfl ?_
  intro argument member
  rw [List.mem_singleton.mp member]
  exact below

theorem binary (arity : operator.arity = 2) (leftBelow : left.WellFormed admits)
    (rightBelow : right.WellFormed admits) :
    WellFormed admits (.operation operator [left, right]) := by
  refine .operation arity.symm ?_
  intro argument member
  rcases List.mem_pair.mp member with rfl | rfl
  · exact leftBelow
  · exact rightBelow

end WellFormed

/-! ## Trees of derivations -/

/-- A derived tree is well formed when the numbers and names among its tokens are. -/
theorem Derives.wellFormed {levels : Nat} {phrase : Phrase} {tokens : List Token}
    {formula : Formula} {admits : Float → Prop}
    (derives : Derives levels phrase tokens formula)
    (numbers : ∀ value, .number value ∈ tokens → admits value)
    (names : ∀ name, .name name ∈ tokens → IsName name) :
    formula.WellFormed admits := by
  induction derives with
  | product _ ih | unary _ ih | unsigned _ ih | unscaled _ ih | primary _ ih =>
      exact ih numbers names
  | number => exact .constant (numbers _ List.mem_cons_self)
  | symbol => exact .symbol (names _ List.mem_cons_self)
  | add _ _ leftIH rightIH | subtract _ _ leftIH rightIH | multiply _ _ leftIH rightIH
  | divide _ _ leftIH rightIH | primaryPower _ _ leftIH rightIH =>
      simp only [List.mem_append, List.mem_cons, reduceCtorEq, false_or] at numbers names
      exact .binary rfl (leftIH (fun _ member => numbers _ (.inl member))
        fun _ member => names _ (.inl member)) (rightIH (fun _ member => numbers _ (.inr member))
        fun _ member => names _ (.inr member))
  | negate _ ih =>
      simp only [List.mem_cons, reduceCtorEq, false_or] at numbers names
      exact .negation (ih numbers names)
  | plus _ ih =>
      simp only [List.mem_cons, reduceCtorEq, false_or] at numbers names
      exact ih numbers names
  | numberPower _ ih =>
      simp only [List.mem_cons, reduceCtorEq, false_or] at names
      exact .binary rfl (.constant (numbers _ List.mem_cons_self))
        (ih (fun _ member => numbers _ (.tail _ (.tail _ member))) names)
  | scaled _ ih =>
      simp only [List.mem_cons, reduceCtorEq, false_or] at names
      exact .binary rfl (.constant (numbers _ List.mem_cons_self))
        (ih (fun _ member => numbers _ (.tail _ member)) names)
  | call _ ih =>
      simp only [List.cons_append, List.mem_cons, List.mem_append, reduceCtorEq, false_or,
        List.not_mem_nil, or_false] at numbers
      refine .call (names _ List.mem_cons_self) (ih numbers ?_)
      intro name member
      exact names name (.tail _ (.tail _ (List.mem_append_left _ member)))
  | parenthesized _ ih =>
      simp only [List.cons_append, List.mem_cons, List.mem_append, reduceCtorEq, false_or,
        List.not_mem_nil, or_false] at numbers names
      exact ih numbers names

/-! ## Tokens of texts -/

/-- The numbers among the tokens of a text have no sign, and the names are names. -/
theorem proper_of_splits {text : List Char} {tokens : List Token}
    (splits : Splits text tokens) :
    (∀ value, .number value ∈ tokens → IsUnsigned value) ∧
      ∀ name, .name name ∈ tokens → IsName name := by
  induction splits with
  | finished => simp
  | blank _ _ ih => exact ih
  | token starts _ ih =>
      obtain ⟨numbers, names⟩ := ih
      constructor
      · intro value member
        rcases List.mem_cons.mp member with rfl | member
        · cases starts with
          | mark isMark => cases isMark
          | number spelled _ => exact Numeral.isUnsigned_toFloat _
        · exact numbers value member
      · intro name member
        rcases List.mem_cons.mp member with rfl | member
        · cases starts with
          | mark isMark => cases isMark
          | name isName _ => exact isName
        · exact names name member

/-! ## Trees of texts -/

/-- A text is read as a formula when its tokens derive the formula, and only then. -/
theorem parse_eq_ok_iff_derives {text : String} {formula : Formula} :
    parse text = .ok formula ↔
      Derives (maximumNesting + 1) .sum ((lexemes text).map Lexeme.token) formula ∧
        formula.height ≤ maximumNesting := by
  rw [parse_eq_ok_iff_outcome]
  constructor
  · rintro ⟨depth, reads⟩
    rcases top_eq_ok_iff.mp reads with ⟨derives, -, bounded⟩
    exact ⟨derives, bounded⟩
  · rintro ⟨derives, bounded⟩
    exact ⟨formula.height, top_eq_ok_iff.mpr ⟨derives, rfl, bounded⟩⟩

/-- What is read from a text is well formed. -/
theorem wellFormed_of_parse {text : String} {formula : Formula}
    (reads : parse text = .ok formula) : formula.WellFormed IsUnsigned := by
  have derives := (parse_eq_ok_iff_derives.mp reads).1
  have splits := splits_iff.mpr ⟨rfl, derives.stray_not_mem⟩
  rcases proper_of_splits splits with ⟨numbers, names⟩
  exact derives.wellFormed numbers names

/-- The outermost reader keeps the depth of the tree that it finds. -/
theorem exists_top_of_parse {text : String} {formula : Formula}
    (reads : parse text = .ok formula) :
    ∃ parsed, Reader.top (lexemes text) = .ok parsed ∧ parsed.rest = [] ∧
      parsed.subtree = ⟨formula, formula.depth⟩ := by
  rcases parse_eq_ok_iff_outcome.mp reads with ⟨depth, found⟩
  have measured := (top_eq_ok_iff.mp found).2.1
  unfold Reader.outcome at found
  cases read : Reader.top (lexemes text) with
  | error failure =>
      rw [read] at found
      cases found
  | ok parsed =>
      rw [read] at found
      injection found with same
      injection same with subtree rest
      refine ⟨parsed, rfl, rest, ?_⟩
      rw [subtree, measured, depth_eq_height]
      rfl

end Stereograph.Formula
