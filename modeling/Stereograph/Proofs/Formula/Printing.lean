import Stereograph.Formula.Printer
import Stereograph.Proofs.Formula.WellFormed

/-!
# Printed trees are read back

The text of a tree encloses every operator in parentheses, so its tokens derive the tree
again.  A space or a closing parenthesis follows every printed operand, and neither can
lengthen the number or the name in front of it.

A printed call or operator encloses its operands in one level of nesting, but a printed
negation and a printed exponent in two: one for the parenthesis and one for the sign or the
exponent itself.  A tree of height `h` therefore needs `2 * (h - 1)` levels at most, and
negations inside of negations need as many.
-/

namespace Stereograph.Formula

open Decimal

/-! ## Numbers -/

/-- The text is empty or starts with a space or a closing parenthesis, which lengthens no
number and no name in front of it. -/
def Separated (text : List Char) : Prop :=
  ∀ character ∈ text.head?, character = ' ' ∨ character = ')'

theorem not_mem_of_isDigits {digits : List Char} (isDigits : IsDigits digits) {character : Char}
    (separator : character = ' ' ∨ character = ')') : character ∉ digits :=
  isDigits.not_mem (by rcases separator with rfl | rfl <;> rfl)

theorem not_mem_of_spellsExponent {text : List Char} {exponent : Int}
    (spelled : SpellsExponent text exponent) {character : Char}
    (separator : character = ' ' ∨ character = ')') : character ∉ text := by
  cases spelled with
  | absent => simp
  | unsigned isMark isDigits | plus isMark isDigits | minus isMark isDigits =>
      simp only [List.mem_cons, not_mem_of_isDigits isDigits separator, or_false, not_or]
      rcases separator with rfl | rfl <;> rcases isMark with rfl | rfl <;> decide

/-- A literal has no character that separates. -/
theorem not_mem_of_spells {text : List Char} {numeral : Numeral}
    (spelled : Spells text numeral) {character : Char}
    (separator : character = ' ' ∨ character = ')') : character ∉ text := by
  have notPoint : character ≠ '.' := by
    rcases separator with rfl | rfl <;> decide
  cases spelled with
  | whole isDigits tail =>
      simp [not_mem_of_isDigits isDigits separator, not_mem_of_spellsExponent tail separator]
  | pointed isDigits tail =>
      have digits := not_mem_of_isDigits isDigits separator
      rw [List.mem_append, not_or] at digits
      simp [digits, notPoint, not_mem_of_spellsExponent tail separator]

/-- A number in front of a separator ends there. -/
theorem startsWith_number {spelling rest : List Char} {numeral : Numeral}
    (spelled : Spells spelling numeral) (separated : Separated rest) :
    StartsWith (spelling ++ rest) (.number numeral.toFloat) rest := by
  refine .number spelled ?_
  rintro longer other longerSpelled ⟨tail, same⟩
  rcases List.append_eq_append_iff.mp same with ⟨others, rfl, -⟩ | ⟨others, rfl, split⟩
  · simp
  · cases others with
    | nil => simp
    | cons character others =>
        have separator := separated character (by simp [split])
        exact (not_mem_of_spells longerSpelled separator (by simp)).elim

/-! ## Operators -/

/-- The token of an operator in a text. -/
def Token.ofOperator : Operator → Token
  | .add => .plus
  | .subtract => .minus
  | .negate => .minus
  | .multiply => .times
  | .divide => .over
  | .power => .caret

theorem exists_isMark_symbol (operator : Operator) :
    ∃ character, operator.symbol = String.ofList [character] ∧
      IsMark character (Token.ofOperator operator) := by
  cases operator with
  | add => exact ⟨'+', rfl, .plus⟩
  | subtract => exact ⟨'-', rfl, .minus⟩
  | negate => exact ⟨'-', rfl, .minus⟩
  | multiply => exact ⟨'*', rfl, .times⟩
  | divide => exact ⟨'/', rfl, .slash⟩
  | power => exact ⟨'^', rfl, .caret⟩

/-! ## Operands -/

/-- A number or a primary phrase, which may stand on every side of every operator. -/
inductive IsOperand (levels : Nat) : List Token → Formula → Prop
  | number (value) : IsOperand levels [.number value] (.constant value)
  | primary {tokens formula} (derives : Derives levels .primary tokens formula) :
      IsOperand levels tokens formula

namespace IsOperand

variable {levels : Nat} {tokens exponentTokens : List Token} {formula exponent : Formula}

theorem unary (operand : IsOperand levels tokens formula) :
    Derives (levels + 1) .unary tokens formula := by
  cases operand with
  | number value => exact .unsigned .number
  | primary derives => exact .unsigned (.unscaled (.primary derives))

theorem raised (base : IsOperand levels tokens formula)
    (derives : Derives levels .unary exponentTokens exponent) :
    Derives (levels + 1) .unary (tokens ++ .caret :: exponentTokens)
      (.operation .power [formula, exponent]) := by
  cases base with
  | number value => exact .unsigned (.numberPower derives)
  | primary baseDerives => exact .unsigned (.unscaled (.primaryPower baseDerives derives))

end IsOperand

/-- The text of a tree consists of tokens, wherever it stands, and they derive the tree as
an operand of every operator around it. -/
structure PrintsAs (formula : Formula) (tokens : List Token) : Prop where
  splits : ∀ {rest more}, Separated rest → Splits rest more →
    Splits (formula.display.toList ++ rest) (tokens ++ more)
  operand : ∀ {levels}, 2 * formula.height ≤ levels + 2 → IsOperand levels tokens formula

namespace PrintsAs

theorem constant {value : Float} (unsigned : IsFiniteUnsigned value) :
    PrintsAs (.constant value) [.number value] := by
  constructor
  · intro rest more separated splits
    rcases exists_spells_display unsigned with ⟨numeral, spelled, same⟩
    have starts := startsWith_number spelled separated
    rw [same] at starts
    exact .token starts splits
  · intro levels _
    exact .number value

theorem symbol {name : String} (isName : IsName name) :
    PrintsAs (.symbol name) [.name name] := by
  constructor
  · intro rest more separated splits
    refine .token (.name isName ?_) splits
    intro character first
    rcases separated character first with rfl | rfl <;> rfl
  · intro levels _
    exact .primary .symbol

/-! ### Calls and operators -/

/-- A sum in parentheses. -/
theorem splits_enclosed {text rest : List Char} {tokens more : List Token}
    (inside : ∀ {rest more}, Separated rest → Splits rest more →
      Splits (text ++ rest) (tokens ++ more))
    (splits : Splits rest more) :
    Splits ('(' :: (text ++ ')' :: rest)) (.opening :: (tokens ++ .closing :: more)) := by
  have separated : Separated (')' :: rest) := by
    rintro character ⟨⟩
    exact .inr rfl
  exact .token (.mark .opening) (inside separated (.token (.mark .closing) splits))

variable {formula left right : Formula} {tokens leftTokens rightTokens : List Token}

theorem call {name : String} (isName : IsName name) (argument : PrintsAs formula tokens) :
    PrintsAs (.call name formula) (.name name :: .opening :: tokens ++ [.closing]) := by
  constructor
  · intro rest more separated splits
    have enclosed := splits_enclosed argument.splits splits
    have starts : StartsWith (name.toList ++ '(' :: (formula.display.toList ++ ')' :: rest))
        (.name name) ('(' :: (formula.display.toList ++ ')' :: rest)) := by
      refine .name isName ?_
      rintro character ⟨⟩
      rfl
    have whole := Splits.token starts enclosed
    simpa [display] using whole
  · intro levels bounded
    rw [height] at bounded
    have positive := formula.height_pos
    obtain ⟨inner, rfl⟩ : ∃ inner, levels = inner + 1 := ⟨levels - 1, by omega⟩
    exact .primary (.call (.product (.unary (argument.operand (by omega)).unary)))

theorem negation (inner : PrintsAs formula tokens) :
    PrintsAs (.operation .negate [formula]) (.opening :: (.minus :: tokens) ++ [.closing]) := by
  constructor
  · intro rest more separated splits
    have signed : ∀ {rest more}, Separated rest → Splits rest more →
        Splits ('-' :: formula.display.toList ++ rest) (.minus :: tokens ++ more) :=
      fun separated splits => .token (.mark .minus) (inner.splits separated splits)
    have enclosed := splits_enclosed signed splits
    simpa [display, Operator.symbol] using enclosed
  · intro levels bounded
    rw [height_negation] at bounded
    have positive := formula.height_pos
    obtain ⟨inside, rfl⟩ : ∃ inside, levels = inside + 2 := ⟨levels - 2, by omega⟩
    exact .primary (.parenthesized (.product (.unary (.negate
      (inner.operand (by omega)).unary))))

/-- The tokens between the parentheses of an operator derive a sum. -/
theorem derives_sum {operator : Operator} (arity : operator.arity = 2)
    (leftPrints : PrintsAs left leftTokens) (rightPrints : PrintsAs right rightTokens)
    {levels : Nat} (bounded : 2 * (operation operator [left, right]).height ≤ levels + 2) :
    Derives levels .sum (leftTokens ++ Token.ofOperator operator :: rightTokens)
      (.operation operator [left, right]) := by
  rw [height_binary] at bounded
  have positive := left.height_pos
  obtain ⟨inside, rfl⟩ : ∃ inside, levels = inside + 2 := ⟨levels - 2, by omega⟩
  have leftOperand : IsOperand (inside + 1) leftTokens left := leftPrints.operand (by omega)
  have rightOperand : IsOperand (inside + 1) rightTokens right := rightPrints.operand (by omega)
  cases operator with
  | negate => cases arity
  | add => exact .add (.product (.unary leftOperand.unary)) (.unary rightOperand.unary)
  | subtract => exact .subtract (.product (.unary leftOperand.unary)) (.unary rightOperand.unary)
  | multiply => exact .product (.multiply (.unary leftOperand.unary) rightOperand.unary)
  | divide => exact .product (.divide (.unary leftOperand.unary) rightOperand.unary)
  | power =>
      -- the exponent is one level further inside than the base
      have exponent : IsOperand inside rightTokens right := rightPrints.operand (by omega)
      exact .product (.unary (leftOperand.raised exponent.unary))

theorem binary {operator : Operator} (arity : operator.arity = 2)
    (leftPrints : PrintsAs left leftTokens) (rightPrints : PrintsAs right rightTokens) :
    PrintsAs (.operation operator [left, right])
      (.opening :: (leftTokens ++ Token.ofOperator operator :: rightTokens) ++ [.closing]) := by
  constructor
  · intro rest more separated splits
    rcases exists_isMark_symbol operator with ⟨character, symbol, isMark⟩
    have blank : isBlank ' ' = true := rfl
    have space : ∀ text, Separated (' ' :: text) := by
      rintro text character ⟨⟩
      exact .inl rfl
    have joined : ∀ {rest more}, Separated rest → Splits rest more →
        Splits (left.display.toList ++ ' ' :: character :: ' ' :: right.display.toList ++ rest)
          (leftTokens ++ Token.ofOperator operator :: rightTokens ++ more) := by
      intro rest more separated splits
      have inside := leftPrints.splits (space _) (.blank blank (.token (.mark isMark)
        (.blank blank (rightPrints.splits separated splits))))
      simpa using inside
    have enclosed := splits_enclosed joined splits
    simpa [display, symbol] using enclosed
  · intro levels bounded
    exact .primary (.parenthesized (derives_sum arity leftPrints rightPrints bounded))

end PrintsAs

/-- The text of a well-formed tree consists of the tokens of its operands. -/
theorem exists_printsAs {formula : Formula} (wellFormed : formula.WellFormed IsFiniteUnsigned) :
    ∃ tokens, PrintsAs formula tokens := by
  induction wellFormed with
  | constant unsigned => exact ⟨_, .constant unsigned⟩
  | symbol isName => exact ⟨_, .symbol isName⟩
  | call isName _ ih =>
      rcases ih with ⟨tokens, prints⟩
      exact ⟨_, .call isName prints⟩
  | @operation operator arguments arity _ ih =>
      rcases arguments with _ | ⟨first, _ | ⟨second, _ | ⟨third, others⟩⟩⟩
      · cases operator <;> cases arity
      · obtain rfl : operator = .negate := by
          cases operator with
          | negate => rfl
          | add | subtract | multiply | divide | power => cases arity
        rcases ih first List.mem_cons_self with ⟨tokens, prints⟩
        exact ⟨_, .negation prints⟩
      · rcases ih first List.mem_cons_self with ⟨leftTokens, leftPrints⟩
        rcases ih second (.tail _ List.mem_cons_self) with ⟨rightTokens, rightPrints⟩
        exact ⟨_, .binary arity.symm leftPrints rightPrints⟩
      · cases operator <;> cases arity

/-- The lexemes of the printed text are the tokens as which the tree prints. -/
theorem PrintsAs.lexemes_display {formula : Formula} {tokens : List Token}
    (prints : PrintsAs formula tokens) :
    (lexemes formula.display).map Lexeme.token = tokens := by
  have separated : Separated [] := nofun
  have splits := prints.splits separated .finished
  rw [List.append_nil, List.append_nil] at splits
  exact (splits_iff.mp splits).1

/-! ## Signs and parentheses in front -/

/-- How many signs and opening parentheses stand in front of the first other token. -/
inductive Leads : Nat → List Token → Prop
  | other {token rest} (operand : token ≠ .opening ∧ token ≠ .minus ∧ token ≠ .plus) :
      Leads 0 (token :: rest)
  | enclosing {count token rest}
      (encloses : token = .opening ∨ token = .minus ∨ token = .plus)
      (leads : Leads count rest) : Leads (count + 1) (token :: rest)

namespace Leads

variable {count : Nat} {tokens : List Token}

theorem append (leads : Leads count tokens) (more : List Token) :
    Leads count (tokens ++ more) := by
  induction leads with
  | other operand => exact .other operand
  | enclosing encloses _ ih => exact .enclosing encloses ih

theorem unique (leads : Leads count tokens) {other : Nat} (others : Leads other tokens) :
    count = other := by
  induction leads generalizing other with
  | other operand =>
      cases others with
      | other => rfl
      | enclosing encloses _ =>
          rcases encloses with rfl | rfl | rfl <;> simp at operand
  | enclosing encloses _ ih =>
      cases others with
      | other operand => rcases encloses with rfl | rfl | rfl <;> simp at operand
      | enclosing _ leads => rw [ih leads]

end Leads

/-- The levels that a phrase needs for itself. -/
def Phrase.ownLevels : Phrase → Nat
  | .sum | .product | .unary => 1
  | .power | .factor | .primary => 0

/-- Every sign and every parenthesis in front of a phrase uses up a level. -/
theorem Derives.exists_leads {levels : Nat} {phrase : Phrase} {tokens : List Token}
    {formula : Formula} (derives : Derives levels phrase tokens formula) :
    ∃ count, Leads count tokens ∧ count + phrase.ownLevels ≤ levels := by
  induction derives with
  | product _ ih | unary _ ih | unscaled _ ih | primary _ ih => exact ih
  | unsigned _ ih =>
      rcases ih with ⟨count, leads, bounded⟩
      exact ⟨count, leads, Nat.succ_le_succ bounded⟩
  | add _ _ ih _ | subtract _ _ ih _ | multiply _ _ ih _ | divide _ _ ih _
  | primaryPower _ _ ih _ =>
      rcases ih with ⟨count, leads, bounded⟩
      exact ⟨count, leads.append _, bounded⟩
  | negate _ ih | plus _ ih =>
      rcases ih with ⟨count, leads, bounded⟩
      exact ⟨count + 1, .enclosing (by simp) leads, Nat.succ_le_succ bounded⟩
  | number | numberPower _ _ | scaled _ _ | symbol | call _ _ =>
      exact ⟨0, .other (by simp), Nat.zero_le _⟩
  | parenthesized _ ih =>
      rcases ih with ⟨count, leads, bounded⟩
      exact ⟨count + 1, .enclosing (.inl rfl) (leads.append _), bounded⟩

/-- A tree under a number of negations. -/
def negations : (count : Nat) → Formula → Formula
  | 0, formula => formula
  | count + 1, formula => .operation .negate [negations count formula]

theorem height_negations (count : Nat) (formula : Formula) :
    (negations count formula).height = formula.height + count := by
  induction count with
  | zero => rfl
  | succ count ih => rw [negations, height_negation, ih, Nat.add_assoc]

theorem wellFormed_negations {admits : Float → Prop} {formula : Formula}
    (wellFormed : formula.WellFormed admits) (count : Nat) :
    (negations count formula).WellFormed admits := by
  induction count with
  | zero => exact wellFormed
  | succ count ih => exact .negation ih

/-- Each negation of a symbol puts a parenthesis and a sign in front of it. -/
theorem exists_printsAs_negations {name : String} (isName : IsName name) (count : Nat) :
    ∃ tokens, PrintsAs (negations count (.symbol name)) tokens ∧ Leads (2 * count) tokens := by
  induction count with
  | zero => exact ⟨_, .symbol isName, .other (by simp)⟩
  | succ count ih =>
      rcases ih with ⟨tokens, prints, leads⟩
      refine ⟨_, prints.negation, ?_⟩
      exact .enclosing (.inl rfl) (.enclosing (.inr (.inl rfl)) (leads.append _))

/-! ## Complete texts -/

/-- A printed tree is read back when its negations and exponents are within the limit on
nesting. -/
theorem parse_display_of_height_le {formula : Formula}
    (wellFormed : formula.WellFormed IsFiniteUnsigned) (bounded : formula.height ≤ 65) :
    parse formula.display = .ok formula := by
  rcases exists_printsAs wellFormed with ⟨tokens, prints⟩
  have limit : maximumNesting = 128 := rfl
  have operand : IsOperand maximumNesting tokens formula := prints.operand (by omega)
  rw [parse_eq_ok_iff_derives, prints.lexemes_display]
  exact ⟨.product (.unary operand.unary), by omega⟩

/-- The negations of a symbol are not read back when there are more than the limit on nesting
leaves room for. -/
theorem parse_display_negations_ne {name : String} (isName : IsName name) {count : Nat}
    (many : 64 < count) (formula : Formula) :
    parse (negations count (.symbol name)).display ≠ .ok formula := by
  rcases exists_printsAs_negations isName count with ⟨tokens, prints, leads⟩
  intro reads
  rw [parse_eq_ok_iff_derives, prints.lexemes_display] at reads
  rcases reads.1.exists_leads with ⟨other, others, bounded⟩
  have same := leads.unique others
  have limit : maximumNesting = 128 := rfl
  have own : Phrase.sum.ownLevels = 1 := rfl
  omega

/-- A well-formed tree of depth 65 or less, with finite constants without a sign, is read
back from its text.  One level deeper there is a tree that is not. -/
theorem printed_trees_are_read_back :
    (∀ formula : Formula, formula.WellFormed IsFiniteUnsigned → formula.depth ≤ 65 →
      parse formula.display = .ok formula) ∧
    ∃ formula : Formula, formula.WellFormed IsFiniteUnsigned ∧ formula.depth = 66 ∧
      ∀ found, parse formula.display ≠ .ok found := by
  constructor
  · intro formula wellFormed bounded
    rw [depth_eq_height] at bounded
    exact parse_display_of_height_le wellFormed bounded
  · have isName : IsName "z" := ⟨'z', [], rfl, rfl, rfl⟩
    refine ⟨negations 65 (.symbol "z"), wellFormed_negations (.symbol isName) 65, ?_, ?_⟩
    · rw [depth_eq_height, height_negations]
      rfl
    · exact parse_display_negations_ne isName (by decide)

/-- A power under as many negations as are read back. -/
theorem printed_trees_are_read_back_deepest :
    let formula := negations 62 (.operation .power [.call "f" (.symbol "z"), .constant 0.5])
    formula.WellFormed IsFiniteUnsigned ∧ formula.depth = 65 ∧
      parse formula.display = .ok formula := by
  intro formula
  have point : IsName "z" := ⟨'z', [], rfl, rfl, rfl⟩
  have function : IsName "f" := ⟨'f', [], rfl, rfl, rfl⟩
  have half : IsFiniteUnsigned 0.5 := ⟨by decide +kernel, by decide +kernel⟩
  have wellFormed : formula.WellFormed IsFiniteUnsigned :=
    wellFormed_negations (.binary rfl (.call function (.symbol point)) (.constant half)) 62
  have depth : formula.depth = 65 := by
    rw [depth_eq_height, height_negations]
    rfl
  exact ⟨wellFormed, depth, printed_trees_are_read_back.1 formula wellFormed depth.le⟩

end Stereograph.Formula
