import Stereograph.Formula.Grammar
import Stereograph.Proofs.Formula.Height
import Stereograph.Proofs.Formula.Levels

/-!
# Soundness of reading

What a reader finds is derived by the tokens that it uses up, and the depth that it keeps
is the height of the tree.  The grammar gives a caret after a factor to the factor.  A
reader of powers asks for a caret again after the factor of a number, and it finds none
because the reader of the factor would have taken it.
-/

namespace Stereograph.Formula

/-! ## Subtrees -/

namespace Subtree

/-- The depth that is kept beside a tree is its height, and within the limit. -/
structure Measured (subtree : Subtree) : Prop where
  depth : subtree.depth = subtree.formula.height
  bounded : subtree.depth ≤ maximumNesting

theorem measured_single {formula : Formula} (leaf : formula.height = 1) :
    (single formula).Measured :=
  ⟨leaf.symm, Nat.le_of_ble_eq_true rfl⟩

theorem checked_eq_ok_iff {input : List Lexeme} {formula : Formula} {depth : Nat}
    {subtree : Subtree} :
    checked input formula depth = .ok subtree ↔
      depth ≤ maximumNesting ∧ subtree = ⟨formula, depth⟩ := by
  unfold checked
  split
  · rename_i deep
    constructor
    · nofun
    · rintro ⟨bounded, -⟩
      exact absurd bounded (Nat.not_le.mpr deep)
  · rename_i bounded
    constructor
    · intro same
      cases same
      exact ⟨Nat.le_of_not_lt bounded, rfl⟩
    · rintro ⟨-, rfl⟩
      rfl

theorem measured_of_operands {input : List Lexeme} {operator : Operator}
    {left right subtree : Subtree} (leftMeasured : left.Measured)
    (rightMeasured : right.Measured)
    (joined : ofOperands input operator left right = .ok subtree) :
    subtree.Measured ∧ subtree.formula = .operation operator [left.formula, right.formula] := by
  rcases checked_eq_ok_iff.mp joined with ⟨bounded, rfl⟩
  refine ⟨⟨?_, bounded⟩, rfl⟩
  rw [height_binary, leftMeasured.depth, rightMeasured.depth]

theorem measured_of_negated {input : List Lexeme} {inner subtree : Subtree}
    (measured : inner.Measured) (negation : negated input inner = .ok subtree) :
    subtree.Measured ∧ subtree.formula = .operation .negate [inner.formula] := by
  rcases checked_eq_ok_iff.mp negation with ⟨bounded, rfl⟩
  refine ⟨⟨?_, bounded⟩, rfl⟩
  rw [height_negation, measured.depth]

theorem measured_of_call {input : List Lexeme} {name : String} {argument subtree : Subtree}
    (measured : argument.Measured) (call : ofCall input name argument = .ok subtree) :
    subtree.Measured ∧ subtree.formula = .call name argument.formula := by
  rcases checked_eq_ok_iff.mp call with ⟨bounded, rfl⟩
  refine ⟨⟨?_, bounded⟩, rfl⟩
  rw [height, measured.depth]

end Subtree

/-! ## What was found -/

/-- A measured tree that the front of an input derives. -/
structure Found (levels : Nat) (phrase : Phrase) (input : List Lexeme) (found : Subtree)
    (rest : List Lexeme) : Prop where
  measured : found.Measured
  derives : ∃ consumed, input = consumed ++ rest ∧
    Derives levels phrase (consumed.map Lexeme.token) found.formula

namespace Found

variable {levels : Nat} {input rest : List Lexeme} {found : Subtree}

/-- A phrase that is also another phrase is found as that one. -/
theorem as {tight loose : Phrase} {more : Nat} (phrase : Found levels tight input found rest)
    (embeds : ∀ {tokens formula}, Derives levels tight tokens formula →
      Derives more loose tokens formula) :
    Found more loose input found rest := by
  rcases phrase with ⟨measured, consumed, split, derives⟩
  exact ⟨measured, consumed, split, embeds derives⟩

end Found

/-- A reader finds only what the grammar derives. -/
def Reader.Sound (levels : Nat) (phrase : Phrase) (reader : Reader) : Prop :=
  ∀ ⦃input found rest⦄, reader.outcome input = .ok (found, rest) →
    Found levels phrase input found rest

namespace Reader

/-! ## Chains -/

section Chains

variable {levels : Nat} {loose tight : Phrase} {operator? : Token → Option Operator}
  {operand : Reader} (sound : operand.Sound levels tight)
  (joins : ∀ {token operator leftTokens rightTokens left right},
    operator? token = some operator → Derives levels loose leftTokens left →
    Derives levels tight rightTokens right →
    Derives levels loose (leftTokens ++ token :: rightTokens)
      (.operation operator [left, right]))

include sound joins

/-- A left operand with the operator and the operand behind it. -/
theorem found_of_joined {whole following middle : List Lexeme} {lexeme : Lexeme}
    {operator : Operator} {left right combined : Subtree}
    (found : Found levels loose whole left (lexeme :: following))
    (joining : operator? lexeme.token = some operator)
    (reads : operand.outcome following = .ok (right, middle))
    (joined : Subtree.ofOperands (lexeme :: following) operator left right = .ok combined) :
    Found levels loose whole combined middle := by
  rcases sound reads with ⟨rightMeasured, consumed, rfl, rightDerives⟩
  rcases found with ⟨leftMeasured, front, rfl, leftDerives⟩
  rcases Subtree.measured_of_operands leftMeasured rightMeasured joined with
    ⟨measured, formula⟩
  refine ⟨measured, front ++ lexeme :: consumed, by simp, ?_⟩
  rw [formula, List.map_append, List.map_cons]
  exact joins joining leftDerives rightDerives

/-- The operators that follow a left operand extend its derivation. -/
theorem found_of_extension {whole input rest : List Lexeme} {left result : Subtree}
    (found : Found levels loose whole left input)
    (reads : extension operator? operand left input = .ok (result, rest)) :
    Found levels loose whole result rest := by
  induction length : input.length using Nat.strongRecOn generalizing input left with
  | ind length' ih =>
      subst length
      cases input with
      | nil =>
          rw [extension_nil] at reads
          cases reads
          exact found
      | cons lexeme following =>
          rw [extension_cons] at reads
          cases joining : operator? lexeme.token with
          | none =>
              rw [joining] at reads
              cases reads
              exact found
          | some operator =>
              rw [joining] at reads
              rcases exists_of_bind_ok reads with ⟨⟨right, middle⟩, operandReads, remaining⟩
              rcases exists_of_bind_ok remaining with ⟨combined, joined, continues⟩
              have operandReads := eq_ok_of_mapError operandReads
              have combinedFound := found_of_joined sound joins found joining operandReads joined
              apply ih middle.length _ combinedFound continues rfl
              exact Nat.lt_succ_of_lt (length_lt_of_outcome operandReads)

/-- Operands joined by operators of one precedence derive a looser phrase. -/
theorem sound_chain
    (embeds : ∀ {tokens formula}, Derives levels tight tokens formula →
      Derives levels loose tokens formula) :
    (chain operator? operand).Sound levels loose := by
  intro input found rest reads
  rw [outcome_chain] at reads
  rcases exists_of_bind_ok reads with ⟨⟨first, middle⟩, firstReads, reads⟩
  exact found_of_extension sound joins ((sound firstReads).as embeds) reads

end Chains

/-- The operators of products join a product and a unary phrase. -/
theorem product_joins {levels : Nat} {token : Token} {operator : Operator}
    {leftTokens rightTokens : List Token} {left right : Formula}
    (joining : multiplicative? token = some operator)
    (leftDerives : Derives levels .product leftTokens left)
    (rightDerives : Derives levels .unary rightTokens right) :
    Derives levels .product (leftTokens ++ token :: rightTokens)
      (.operation operator [left, right]) := by
  cases token <;> cases joining
  · exact .multiply leftDerives rightDerives
  · exact .divide leftDerives rightDerives

/-- The operators of sums join a sum and a product. -/
theorem sum_joins {levels : Nat} {token : Token} {operator : Operator}
    {leftTokens rightTokens : List Token} {left right : Formula}
    (joining : additive? token = some operator)
    (leftDerives : Derives levels .sum leftTokens left)
    (rightDerives : Derives levels .product rightTokens right) :
    Derives levels .sum (leftTokens ++ token :: rightTokens)
      (.operation operator [left, right]) := by
  cases token <;> cases joining
  · exact .add leftDerives rightDerives
  · exact .subtract leftDerives rightDerives

theorem sound_product {levels : Nat} {operand : Reader} (sound : operand.Sound levels .unary) :
    (chain multiplicative? operand).Sound levels .product :=
  sound_chain sound product_joins .unary

theorem sound_sum {levels : Nat} {operand : Reader} (sound : operand.Sound levels .unary) :
    (sum operand).Sound levels .sum :=
  sound_chain (sound_product sound) sum_joins .product

/-! ## Phrases -/

section Phrases

variable {levels : Nat} {unary : Reader} (sound : unary.Sound levels .unary)

include sound

/-- What a parenthesized reader finds is a sum between parentheses. -/
theorem found_of_parenthesized {input rest : List Lexeme} {found : Subtree}
    (reads : (parenthesized unary).outcome input = .ok (found, rest)) :
    found.Measured ∧ ∃ consumed, input = consumed ++ rest ∧
      ∃ tokens, consumed.map Lexeme.token = .opening :: tokens ++ [.closing] ∧
        Derives levels .sum tokens found.formula := by
  by_cases opening : front? input = some .opening
  · rcases exists_cons_of_front? opening with ⟨offset, first, following, rfl⟩
    rw [outcome_parenthesized_opening] at reads
    rcases exists_of_bind_ok reads with ⟨⟨inner, middle⟩, innerReads, closes⟩
    dsimp only at closes
    rcases sound_sum sound innerReads with ⟨measured, consumed, rfl, derives⟩
    unfold closed at closes
    split at closes
    · rename_i closingOffset closingFirst after
      cases closes
      refine ⟨measured, ⟨.opening, offset, first⟩ :: consumed ++
        [⟨.closing, closingOffset, closingFirst⟩], by simp, consumed.map Lexeme.token, ?_,
        derives⟩
      simp
    · cases closes
  · rw [outcome_parenthesized_other unary opening] at reads
    cases reads

theorem sound_juxtaposed : (juxtaposed unary).Sound levels .primary := by
  intro input found rest reads
  cases dataFront Token.name input with
  | carries name offset first following =>
      rw [outcome_juxtaposed_name] at reads
      rcases combined_ok_cases reads with ⟨-, same⟩ | ⟨argument, argumentReads, called⟩
      · cases same
        exact ⟨Subtree.measured_single rfl, [⟨.name name, offset, first⟩], rfl, .symbol⟩
      · rcases found_of_parenthesized sound argumentReads with
          ⟨measured, consumed, rfl, tokens, split, derives⟩
        rcases Subtree.measured_of_call measured called with ⟨measured, formula⟩
        refine ⟨measured, ⟨.name name, offset, first⟩ :: consumed, rfl, ?_⟩
        rw [formula, List.map_cons, split]
        exact .call derives
  | other unnamed =>
      rw [outcome_juxtaposed_other unary unnamed] at reads
      rcases exists_of_bind_ok reads with ⟨inner, attempted, reads⟩
      cases inner with
      | none => cases reads
      | some inner =>
          cases reads
          rcases found_of_parenthesized sound (eq_ok_of_attempt attempted) with
            ⟨measured, consumed, split, tokens, inside, derives⟩
          refine ⟨measured, consumed, split, ?_⟩
          rw [inside]
          exact .parenthesized derives

/-- A base and the exponent that follows it, if there is one. -/
theorem found_of_raised {input middle rest : List Lexeme} {base found : Subtree}
    {phrase : Phrase} {whole consumed : List Lexeme} (measured : base.Measured)
    (split : whole = consumed ++ middle)
    (bare : Derives levels phrase (consumed.map Lexeme.token) base.formula)
    (raises : ∀ {tokens exponent}, Derives levels .unary tokens exponent →
      Derives levels phrase (consumed.map Lexeme.token ++ .caret :: tokens)
        (.operation .power [base.formula, exponent]))
    (reads : raised unary input base middle = .ok (found, rest)) :
    Found levels phrase whole found rest := by
  rcases raised_cases reads with
    ⟨rfl, rfl, -⟩ | ⟨offset, first, following, exponent, rfl, exponentReads, joined⟩
  · exact ⟨measured, consumed, split, bare⟩
  · rcases sound exponentReads with ⟨exponentMeasured, exponentConsumed, rfl, exponentDerives⟩
    rcases Subtree.measured_of_operands measured exponentMeasured joined with
      ⟨powerMeasured, formula⟩
    refine ⟨powerMeasured, consumed ++ ⟨.caret, offset, first⟩ :: exponentConsumed,
      by simp [split], ?_⟩
    rw [formula, List.map_append, List.map_cons]
    exact raises exponentDerives

theorem sound_factor : (power unary (juxtaposed unary)).Sound levels .factor := by
  intro input found rest reads
  rw [outcome_power] at reads
  rcases exists_of_bind_ok reads with ⟨⟨base, middle⟩, baseReads, reads⟩
  rcases sound_juxtaposed sound baseReads with ⟨measured, consumed, split, derives⟩
  exact found_of_raised sound measured split (.primary derives) (.primaryPower derives) reads

/-- A factor after a number has taken the caret that follows it, so that none is left for
the product. -/
theorem sound_power
    (leaves : ∀ {input rest subtree}, unary.outcome input = .ok (subtree, rest) →
      LeavesCaret unary rest) :
    (power unary (atom unary)).Sound levels .power := by
  intro input found rest reads
  cases dataFront Token.number input with
  | carries value offset first following =>
      rw [outcome_power, outcome_atom_number] at reads
      rcases exists_of_bind_ok reads with ⟨⟨base, middle⟩, baseReads, reads⟩
      have constant : (Subtree.single (.constant value)).Measured :=
        Subtree.measured_single rfl
      rcases combined_ok_cases baseReads with ⟨-, same⟩ | ⟨factor, factorReads, joined⟩
      · cases same
        have split : (⟨.number value, offset, first⟩ :: following : List Lexeme) =
            [⟨.number value, offset, first⟩] ++ following := rfl
        exact found_of_raised sound constant split .number .numberPower reads
      · rcases sound_factor sound factorReads with ⟨factorMeasured, consumed, rfl, derives⟩
        dsimp only at reads
        rw [(leavesCaret_of_power leaves factorReads).raised] at reads
        cases reads
        rcases Subtree.measured_of_operands constant factorMeasured joined with
          ⟨measured, formula⟩
        refine ⟨measured, ⟨.number value, offset, first⟩ :: consumed, rfl, ?_⟩
        rw [formula]
        exact .scaled derives
  | other uncounted =>
      rw [outcome_power, outcome_atom_other unary uncounted, ← outcome_power] at reads
      exact (sound_factor sound reads).as .unscaled

end Phrases

/-- Readers of unary phrases find what the grammar derives with as many levels. -/
theorem sound_unary (levels : Nat) : (unary levels).Sound levels .unary := by
  induction levels with
  | zero =>
      intro input found rest reads
      cases reads
  | succ levels ih =>
      intro input found rest reads
      cases signFront input with
      | minus offset first following =>
          rw [outcome_unary_minus] at reads
          rcases exists_of_bind_ok reads with ⟨⟨inner, after⟩, innerReads, reads⟩
          rcases exists_of_bind_ok reads with ⟨negation, negated, same⟩
          cases same
          rcases ih innerReads with ⟨measured, consumed, rfl, derives⟩
          rcases Subtree.measured_of_negated measured negated with ⟨measured, formula⟩
          refine ⟨measured, ⟨.minus, offset, first⟩ :: consumed, rfl, ?_⟩
          rw [formula]
          exact .negate derives
      | plus offset first following =>
          rw [outcome_unary_plus] at reads
          rcases ih reads with ⟨measured, consumed, rfl, derives⟩
          exact ⟨measured, ⟨.plus, offset, first⟩ :: consumed, rfl, .plus derives⟩
      | unsigned notMinus notPlus =>
          rw [outcome_unary_other notMinus notPlus] at reads
          exact (sound_power ih leavesCaret_of_unary reads).as .unsigned

end Reader

end Stereograph.Formula
