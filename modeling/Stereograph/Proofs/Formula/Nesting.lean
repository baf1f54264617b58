import Stereograph.Proofs.Formula.Stops

/-!
# Lack of nesting levels

A text is blamed for its nesting only where it is nested too deeply: a unary phrase could
start there that more signs, exponents and parentheses enclose than are allowed, or the
position is in a phrase whose tree is too high.  Which phrases may start where is a relation
between the tokens in front of them and the phrase around them, whether or not the text goes
on as a formula.
-/

namespace Stereograph.Formula

/-- A phrase may start inside of another behind some of its tokens, with a number of signs,
exponents and parentheses of the outer phrase around it. -/
inductive Enters : (outer : Phrase) → (front : List Token) → (count : Nat) → (inner : Phrase) →
    Prop
  | summand : Enters .sum [] 0 .product
  | added {levels tokens left token} (derives : Derives levels .sum tokens left)
      (joins : token = .plus ∨ token = .minus) : Enters .sum (tokens ++ [token]) 0 .product
  | multiplicand : Enters .product [] 0 .unary
  | multiplied {levels tokens left token} (derives : Derives levels .product tokens left)
      (joins : token = .times ∨ token = .over) : Enters .product (tokens ++ [token]) 0 .unary
  | signed {token} (sign : token = .plus ∨ token = .minus) : Enters .unary [token] 1 .unary
  | unsigned : Enters .unary [] 0 .power
  | scaled {value} : Enters .power [.number value] 0 .factor
  | unscaled : Enters .power [] 0 .factor
  | numberExponent {value} : Enters .power [.number value, .caret] 1 .unary
  | base : Enters .factor [] 0 .primary
  | exponent {levels tokens base} (derives : Derives levels .primary tokens base) :
      Enters .factor (tokens ++ [.caret]) 1 .unary
  | argument {name} : Enters .primary [.name name, .opening] 1 .sum
  | parenthesized : Enters .primary [.opening] 1 .sum

/-- A phrase may start inside of others, as the innermost one. -/
inductive Reaches : (outer : Phrase) → (front : List Token) → (count : Nat) → (inner : Phrase) →
    Prop
  | refl {phrase} : Reaches phrase [] 0 phrase
  | step {outer middle inner front back count more} (enters : Enters outer front count middle)
      (reaches : Reaches middle back more inner) :
      Reaches outer (front ++ back) (count + more) inner

/-- An input is nested too deeply where a rest of it starts.  A unary phrase could start
there with as many levels around it as are allowed, or the rest starts in a phrase with too
high a tree. -/
inductive TooDeep (allowance : Nat) (outer : Phrase) : (input rest : List Lexeme) → Prop
  | position {front rest} (reaches : Reaches outer (tokensOf front) allowance .unary) :
      TooDeep allowance outer (front ++ rest) rest
  | tree {front left right after count inner levels formula}
      (reaches : Reaches outer (tokensOf front) count inner)
      (derives : Derives levels inner (tokensOf (left ++ right)) formula)
      (high : maximumNesting < formula.height) :
      TooDeep allowance outer (front ++ (left ++ right ++ after)) (right ++ after)

namespace TooDeep

variable {allowance count : Nat} {outer inner : Phrase} {input rest : List Lexeme}

/-- What is too deep inside of a phrase is too deep around it. -/
theorem within {front : List Lexeme} (deep : TooDeep allowance inner input rest)
    (enters : Enters outer (tokensOf front) count inner) :
    TooDeep (count + allowance) outer (front ++ input) rest := by
  have tokens : ∀ back, tokensOf (front ++ back) = tokensOf front ++ tokensOf back :=
    fun back => List.map_append
  cases deep with
  | @position back rest reaches =>
      rw [← List.append_assoc]
      apply position
      rw [tokens]
      exact .step enters reaches
  | @tree back left right after more middle levels formula reaches derives high =>
      rw [← List.append_assoc]
      have around := Reaches.step enters reaches
      rw [← tokens] at around
      exact tree around derives high

theorem behind {front : List Lexeme} {lexeme : Lexeme}
    (deep : TooDeep allowance inner input rest)
    (enters : Enters outer (tokensOf front ++ [lexeme.token]) count inner) :
    TooDeep (count + allowance) outer (front ++ lexeme :: input) rest := by
  rw [List.append_cons]
  apply deep.within
  rw [tokensOf, List.map_append]
  exact enters

theorem cons {lexeme : Lexeme} (deep : TooDeep allowance inner input rest)
    (enters : Enters outer [lexeme.token] count inner) :
    TooDeep (count + allowance) outer (lexeme :: input) rest :=
  @behind allowance count outer inner input rest [] lexeme deep enters

theorem embedded (deep : TooDeep allowance inner input rest) (enters : Enters outer [] 0 inner) :
    TooDeep allowance outer input rest := by
  rw [← Nat.zero_add allowance]
  exact @within allowance 0 outer inner input rest [] deep enters

/-- A phrase with too high a tree. -/
theorem high {left right : List Lexeme} {levels : Nat} {formula : Formula}
    (derives : Derives levels outer (tokensOf left ++ tokensOf right) formula)
    (high : maximumNesting < formula.height) (after : List Lexeme) :
    TooDeep allowance outer (left ++ (right ++ after)) (right ++ after) := by
  rw [← List.map_append] at derives
  rw [← List.append_assoc]
  exact @tree allowance outer [] left right after 0 outer levels formula .refl derives high

/-- A phrase with too high a tree, at its start. -/
theorem whole {consumed : List Lexeme} {levels : Nat} {formula : Formula}
    (derives : Derives levels outer (tokensOf consumed) formula)
    (high : maximumNesting < formula.height) (after : List Lexeme) :
    TooDeep allowance outer (consumed ++ after) (consumed ++ after) :=
  @TooDeep.high allowance outer [] consumed levels formula derives high after

theorem exists_front (deep : TooDeep allowance outer input rest) :
    ∃ front, input = front ++ rest := by
  cases deep with
  | @position front => exact ⟨front, rfl⟩
  | @tree front left =>
      exact ⟨front ++ left, by rw [List.append_assoc, List.append_assoc]⟩

end TooDeep

namespace Subtree

variable {input rest : List Lexeme} {left right inner : Subtree}

theorem checked_eq_error_iff {formula : Formula} {depth : Nat} {failure : Failure} :
    checked input formula depth = .error failure ↔
      maximumNesting < depth ∧ failure = .nesting input := by
  unfold checked
  split
  · rename_i high
    constructor
    · intro same
      cases same
      exact ⟨high, rfl⟩
    · rintro ⟨-, rfl⟩
      rfl
  · rename_i bounded
    constructor
    · nofun
    · rintro ⟨high, -⟩
      exact (bounded high).elim

theorem high_of_operands {operator : Operator} {failure : Failure} (leftMeasured : left.Measured)
    (rightMeasured : right.Measured)
    (refused : ofOperands input operator left right = .error failure) :
    maximumNesting < (operation operator [left.formula, right.formula]).height ∧
      failure = .nesting input := by
  rw [height_binary, ← leftMeasured.depth, ← rightMeasured.depth]
  exact checked_eq_error_iff.mp refused

theorem high_of_negated {failure : Failure} (measured : inner.Measured)
    (refused : negated input inner = .error failure) :
    maximumNesting < (operation .negate [inner.formula]).height ∧ failure = .nesting input := by
  rw [height_negation, ← measured.depth]
  exact checked_eq_error_iff.mp refused

theorem high_of_call {name : String} {failure : Failure} (measured : inner.Measured)
    (refused : ofCall input name inner = .error failure) :
    maximumNesting < (call name inner.formula).height ∧ failure = .nesting input := by
  rw [height, ← measured.depth]
  exact checked_eq_error_iff.mp refused

end Subtree

/-- A reader that fails for lack of levels does so where its input is nested too deeply. -/
def Reader.Overflows (allowance : Nat) (phrase : Phrase) (reader : Reader) : Prop :=
  ∀ ⦃input rest⦄, reader.outcome input = .error (.nesting rest) →
    TooDeep allowance phrase input rest

namespace Reader

/-! ## Chains -/

section Chains

variable {levels allowance : Nat} {loose tight : Phrase} {operator? : Token → Option Operator}
  {operand : Reader} (sound : operand.Sound levels tight)
  (overflows : operand.Overflows allowance tight)
  (joins : ∀ {token operator leftTokens rightTokens left right},
    operator? token = some operator → Derives levels loose leftTokens left →
    Derives levels tight rightTokens right →
    Derives levels loose (leftTokens ++ token :: rightTokens)
      (.operation operator [left, right]))
  (enters : ∀ {token operator tokens left}, operator? token = some operator →
    Derives levels loose tokens left → Enters loose (tokens ++ [token]) 0 tight)

include sound overflows joins enters

theorem tooDeep_of_extension {whole input rest : List Lexeme} {left : Subtree}
    (found : Found levels loose whole left input)
    (failed : extension operator? operand left input = .error (.nesting rest)) :
    TooDeep allowance loose whole rest := by
  induction length : input.length using Nat.strongRecOn generalizing input left with
  | ind length' ih =>
      subst length
      cases input with
      | nil =>
          rw [extension_nil] at failed
          cases failed
      | cons lexeme following =>
          rw [extension_cons] at failed
          cases joining : operator? lexeme.token with
          | none =>
              rw [joining] at failed
              cases failed
          | some operator =>
              rw [joining] at failed
              rcases or_exists_of_bind_error failed with failed | ⟨⟨right, middle⟩, reads, failed⟩
              · rcases eq_error_of_mapError failed with ⟨failure, operandFailed, same⟩
                cases failure with
                | missing => cases same
                | nesting rest' =>
                    cases same
                    rcases found.derives with ⟨front, rfl, derives⟩
                    rw [← Nat.zero_add allowance]
                    exact (overflows operandFailed).behind (enters joining derives)
              · have reads := eq_ok_of_mapError reads
                rcases or_exists_of_bind_error failed with refused | ⟨combined, joined, failed⟩
                · rcases sound reads with ⟨rightMeasured, consumed, rfl, rightDerives⟩
                  rcases found with ⟨leftMeasured, front, rfl, leftDerives⟩
                  rcases Subtree.high_of_operands leftMeasured rightMeasured refused with
                    ⟨high, same⟩
                  cases same
                  exact @TooDeep.high allowance loose front (lexeme :: consumed) _ _
                    (joins joining leftDerives rightDerives) high middle
                · apply ih middle.length _ (found_of_joined sound joins found joining reads joined)
                    failed rfl
                  exact Nat.lt_succ_of_lt (length_lt_of_outcome reads)

theorem overflows_chain
    (embeds : ∀ {tokens formula}, Derives levels tight tokens formula →
      Derives levels loose tokens formula)
    (first : Enters loose [] 0 tight) : (chain operator? operand).Overflows allowance loose := by
  intro input rest failed
  rw [outcome_chain] at failed
  rcases or_exists_of_bind_error failed with failed | ⟨⟨found, middle⟩, reads, failed⟩
  · exact (overflows failed).embedded first
  · exact tooDeep_of_extension sound overflows joins enters ((sound reads).as embeds) failed

end Chains

theorem overflows_product {levels allowance : Nat} {unary : Reader}
    (sound : unary.Sound levels .unary) (overflows : unary.Overflows allowance .unary) :
    (chain multiplicative? unary).Overflows allowance .product := by
  apply overflows_chain sound overflows product_joins _ .unary .multiplicand
  intro token operator tokens left joining derives
  apply Enters.multiplied derives
  cases token <;> cases joining
  · exact .inl rfl
  · exact .inr rfl

theorem overflows_sum {levels allowance : Nat} {unary : Reader}
    (sound : unary.Sound levels .unary) (overflows : unary.Overflows allowance .unary) :
    (sum unary).Overflows allowance .sum := by
  apply overflows_chain (sound_product sound) (overflows_product sound overflows) sum_joins _
    .product .summand
  intro token operator tokens left joining derives
  apply Enters.added derives
  cases token <;> cases joining
  · exact .inl rfl
  · exact .inr rfl

/-! ## Phrases -/

section Phrases

variable {levels allowance : Nat} {unary : Reader} (sound : unary.Sound levels .unary)
  (overflows : unary.Overflows allowance .unary)

include sound overflows

/-- A sum in parentheses that lacks levels is a level deeper than the parentheses. -/
theorem exists_sum_of_parenthesized {input rest : List Lexeme}
    (failed : (parenthesized unary).outcome input = .error (.nesting rest)) :
    ∃ opening following, input = opening :: following ∧ opening.token = .opening ∧
      TooDeep allowance .sum following rest := by
  by_cases opening : front? input = some .opening
  · rcases exists_cons_of_front? opening with ⟨offset, first, following, rfl⟩
    rw [outcome_parenthesized_opening] at failed
    rcases or_exists_of_bind_error failed with failed | ⟨⟨inner, middle⟩, -, failed⟩
    · exact ⟨_, following, rfl, rfl, overflows_sum sound overflows failed⟩
    · dsimp only at failed
      unfold closed at failed
      split at failed <;> cases failed
  · rw [outcome_parenthesized_other unary opening] at failed
    cases failed

theorem overflows_juxtaposed : (juxtaposed unary).Overflows (1 + allowance) .primary := by
  intro input rest failed
  cases dataFront Token.name input with
  | carries name offset first following =>
      rw [outcome_juxtaposed_name] at failed
      rcases combined_error_cases failed with failed | ⟨argument, after, argumentReads, refused⟩
      · rcases exists_sum_of_parenthesized sound overflows (eq_error_of_attempt failed) with
          ⟨⟨token, offset', first'⟩, following, rfl, opening, deep⟩
        cases opening
        exact @TooDeep.behind _ _ _ _ _ _ [⟨.name name, offset, first⟩] _ deep .argument
      · rcases found_of_parenthesized sound argumentReads with
          ⟨measured, consumed, rfl, tokens, split, derives⟩
        rcases Subtree.high_of_call measured refused with ⟨high, same⟩
        cases same
        have call : Derives levels .primary (.name name :: .opening :: tokens ++ [.closing])
            (.call name argument.formula) := .call derives
        rw [List.cons_append, ← split] at call
        exact @TooDeep.whole _ _ (⟨.name name, offset, first⟩ :: consumed) _ _ call high after
  | other unnamed =>
      rw [outcome_juxtaposed_other unary unnamed] at failed
      rcases or_exists_of_bind_error failed with failed | ⟨inner, -, failed⟩
      · rcases exists_sum_of_parenthesized sound overflows (eq_error_of_attempt failed) with
          ⟨⟨token, offset, first⟩, following, rfl, opening, deep⟩
        cases opening
        exact deep.cons .parenthesized
      · cases inner <;> cases failed

/-- The exponent behind a base. -/
theorem tooDeep_of_raised {consumed middle rest : List Lexeme} {base : Subtree}
    {phrase : Phrase} (measured : base.Measured)
    (enters : Enters phrase (tokensOf consumed ++ [.caret]) 1 .unary)
    (raises : ∀ {tokens exponent}, Derives levels .unary tokens exponent →
      Derives levels phrase (tokensOf consumed ++ .caret :: tokens)
        (.operation .power [base.formula, exponent]))
    (failed : raised unary (consumed ++ middle) base middle = .error (.nesting rest)) :
    TooDeep (1 + allowance) phrase (consumed ++ middle) rest := by
  rcases raised_error_cases failed with
    ⟨offset, first, following, rfl, failed | ⟨exponent, after, exponentReads, refused⟩⟩
  · exact (overflows (eq_error_of_attempt failed)).behind enters
  · rcases sound exponentReads with ⟨exponentMeasured, exponentConsumed, rfl, derives⟩
    rcases Subtree.high_of_operands measured exponentMeasured refused with ⟨high, same⟩
    cases same
    have tokens : tokensOf (consumed ++ ⟨.caret, offset, first⟩ :: exponentConsumed) =
        tokensOf consumed ++ .caret :: tokensOf exponentConsumed := List.map_append
    have power := raises derives
    rw [← tokens] at power
    have deep := @TooDeep.whole (1 + allowance) _ _ _ _ power high after
    rw [List.append_assoc] at deep
    exact deep

theorem overflows_factor :
    (power unary (juxtaposed unary)).Overflows (1 + allowance) .factor := by
  intro input rest failed
  rw [outcome_power] at failed
  rcases or_exists_of_bind_error failed with failed | ⟨⟨base, middle⟩, reads, failed⟩
  · exact (overflows_juxtaposed sound overflows failed).embedded .base
  · rcases sound_juxtaposed sound reads with ⟨measured, consumed, rfl, derives⟩
    exact tooDeep_of_raised sound overflows measured (.exponent derives) (.primaryPower derives)
      failed

theorem overflows_power
    (leaves : ∀ {input rest subtree}, unary.outcome input = .ok (subtree, rest) →
      LeavesCaret unary rest) :
    (power unary (atom unary)).Overflows (1 + allowance) .power := by
  intro input rest failed
  cases dataFront Token.number input with
  | carries value offset first following =>
      have constant : (Subtree.single (.constant value)).Measured := Subtree.measured_single rfl
      rw [outcome_power, outcome_atom_number] at failed
      rcases or_exists_of_bind_error failed with failed | ⟨⟨base, middle⟩, baseReads, failed⟩
      · rcases combined_error_cases failed with failed | ⟨factor, after, factorReads, refused⟩
        · have deep := overflows_factor sound overflows (eq_error_of_attempt failed)
          rw [← Nat.zero_add (1 + allowance)]
          exact deep.cons .scaled
        · rcases sound_factor sound factorReads with ⟨measured, consumed, rfl, derives⟩
          rcases Subtree.high_of_operands constant measured refused with ⟨high, same⟩
          cases same
          exact @TooDeep.whole _ _ (⟨.number value, offset, first⟩ :: consumed) _ _
            (.scaled derives) high after
      · rcases combined_ok_cases baseReads with ⟨-, same⟩ | ⟨factor, factorReads, -⟩
        · cases same
          exact @tooDeep_of_raised _ _ _ sound overflows [⟨.number value, offset, first⟩] _ _ _ _
            constant .numberExponent .numberPower failed
        · -- The factor has taken a caret that could be read, so none is asked for again.
          dsimp only at failed
          rw [(leavesCaret_of_power leaves factorReads).raised] at failed
          cases failed
  | other uncounted =>
      rw [outcome_power, outcome_atom_other unary uncounted, ← outcome_power] at failed
      exact (overflows_factor sound overflows failed).embedded .unscaled

end Phrases

/-- With a number of levels, as many signs, exponents and parentheses are too many. -/
theorem overflows_unary (levels : Nat) : (unary levels).Overflows levels .unary := by
  induction levels with
  | zero =>
      intro input rest failed
      cases failed
      exact @TooDeep.position _ _ [] _ .refl
  | succ levels ih =>
      intro input rest failed
      cases signFront input with
      | minus offset first following =>
          rw [outcome_unary_minus] at failed
          rcases or_exists_of_bind_error failed with failed | ⟨⟨inner, after⟩, reads, failed⟩
          · rw [Nat.add_comm]
            exact (ih failed).cons (.signed (.inr rfl))
          · rcases or_exists_of_bind_error failed with refused | ⟨negation, -, failed⟩
            · rcases sound_unary levels reads with ⟨measured, consumed, rfl, derives⟩
              rcases Subtree.high_of_negated measured refused with ⟨high, same⟩
              cases same
              exact @TooDeep.whole _ _ (⟨.minus, offset, first⟩ :: consumed) _ _
                (.negate derives) high after
            · cases failed
      | plus offset first following =>
          rw [outcome_unary_plus] at failed
          rw [Nat.add_comm]
          exact (ih failed).cons (.signed (.inl rfl))
      | unsigned notMinus notPlus =>
          rw [outcome_unary_other notMinus notPlus] at failed
          have deep := overflows_power (sound_unary levels) ih leavesCaret_of_unary failed
          rw [Nat.add_comm] at deep
          exact deep.embedded .unsigned

end Reader

end Stereograph.Formula
