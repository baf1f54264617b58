import Stereograph.Proofs.Formula.Completeness
import Stereograph.Proofs.Formula.Truncation

/-!
# Where readers stop

A reader that finds a tree stops where nothing can belong to the tree any more.  A reader
that misses an operand stops where one could have started: the parentheses in front of that
place are closed, and an operator or nothing at all is directly in front of it.  What was
missed inside of parentheses, of a call or of an exponent is not seen from outside, because
such a part may be left out.
-/

namespace Stereograph.Formula

open Shader (Balanced)

/-- The tokens of an input. -/
abbrev tokensOf (input : List Lexeme) : List Token :=
  input.map Lexeme.token

/-! ## Missing operands -/

/-- The operators of sums and products. -/
def Token.isOperator : Token → Bool
  | .plus | .minus | .times | .over => true
  | _ => false

/-- The tokens that a reader of unary phrases passes. -/
def Token.isPassed : Token → Bool
  | .number _ | .name _ | .plus | .minus => true
  | _ => false

/-- An input in which an operand is missing where the rest starts. -/
structure Awaits (input rest : List Lexeme) : Prop where
  consumed : ∃ front, input = front ++ rest ∧ Balanced (brackets (tokensOf front)) ∧
    .stray ∉ tokensOf front ∧ ∀ token ∈ (tokensOf front).getLast?, token.isOperator = true
  head : ∀ token, front? rest = some token → token.isPassed = false

namespace Awaits

variable {input rest : List Lexeme}

theorem refl (head : ∀ token, front? input = some token → token.isPassed = false) :
    Awaits input input :=
  ⟨⟨[], rfl, .nil, nofun, nofun⟩, head⟩

/-- An operand that is missing behind an operator. -/
theorem behind {front : List Lexeme} {lexeme : Lexeme} (awaits : Awaits input rest)
    (balanced : Balanced (brackets (tokensOf front))) (absent : .stray ∉ tokensOf front)
    (operator : lexeme.token.isOperator = true) : Awaits (front ++ lexeme :: input) rest := by
  rcases awaits with ⟨⟨back, rfl, backBalanced, backAbsent, unfinished⟩, head⟩
  have tokens : tokensOf (front ++ lexeme :: back) =
      tokensOf front ++ lexeme.token :: tokensOf back := by
    rw [tokensOf, List.map_append, List.map_cons]
  have plain : lexeme.token.bracket = ' ' ∧ lexeme.token ≠ .stray := by
    revert operator
    cases lexeme.token <;> simp [Token.isOperator, Token.bracket]
  refine ⟨⟨front ++ lexeme :: back, by simp, ?_, ?_, ?_⟩, head⟩
  · rw [tokens, brackets_append]
    exact balanced.append (balanced_cons plain.1 backBalanced)
  · rw [tokens, List.mem_append, List.mem_cons, not_or, not_or]
    exact ⟨absent, plain.2.symm, backAbsent⟩
  · intro token last
    rw [tokens, List.getLast?_append, List.getLast?_cons] at last
    cases isLast : (tokensOf back).getLast? with
    | none =>
        rw [isLast] at last
        cases last
        exact operator
    | some final =>
        rw [isLast] at last
        cases last
        exact unfinished final isLast

theorem sign {lexeme : Lexeme} (awaits : Awaits input rest)
    (operator : lexeme.token.isOperator = true) : Awaits (lexeme :: input) rest :=
  @behind input rest [] lexeme awaits .nil nofun operator

end Awaits

/-- A reader that fails without a lack of levels misses an operand. -/
def Reader.MissesOperand (reader : Reader) : Prop :=
  ∀ ⦃input fault rest⦄, reader.outcome input = .error (.missing fault rest) →
    (fault = .expression ∨ fault = .operand) ∧ Awaits input rest

theorem Subtree.checked_ne_missing {input rest : List Lexeme} {formula : Formula} {depth : Nat}
    {fault : ParseFault} : checked input formula depth ≠ .error (.missing fault rest) := by
  unfold checked
  split <;> nofun

theorem Outcome.attempt_ne_missing {result : Outcome} {fault : ParseFault}
    {rest : List Lexeme} : result.attempt ≠ .error (.missing fault rest) := by
  cases result with
  | ok found => nofun
  | error failure => cases failure <;> nofun

namespace Reader

theorem eq_error_of_mapError {α : Type} {result : Except Failure α} {failure : Failure}
    (failed : result.mapError Failure.inOperand = .error failure) :
    ∃ inner, result = .error inner ∧ failure = inner.inOperand := by
  cases result with
  | ok value => cases failed
  | error inner =>
      cases failed
      exact ⟨inner, rfl, rfl⟩

section Bases

variable {unary : Reader} {input rest : List Lexeme} {fault : ParseFault}

theorem juxtaposed_missing
    (failed : (juxtaposed unary).outcome input = .error (.missing fault rest)) :
    rest = input ∧ fault = .expression ∧ ∀ name, front? input ≠ some (.name name) := by
  cases dataFront Token.name input with
  | carries name offset first following =>
      rw [outcome_juxtaposed_name] at failed
      rcases combined_error_cases failed with failed | ⟨argument, after, -, refused⟩
      · exact (Outcome.attempt_ne_missing failed).elim
      · exact (Subtree.checked_ne_missing refused).elim
  | other unnamed =>
      rw [outcome_juxtaposed_other unary unnamed] at failed
      rcases or_exists_of_bind_error failed with failed | ⟨inner, -, failed⟩
      · exact (Outcome.attempt_ne_missing failed).elim
      · cases inner with
        | none =>
            cases failed
            exact ⟨rfl, rfl, unnamed⟩
        | some inner => cases failed

/-- What can fail behind a base is the exponent, or the power of both. -/
theorem raised_error_cases {middle : List Lexeme} {base : Subtree} {failure : Failure}
    (failed : raised unary input base middle = .error failure) :
    ∃ offset first following, middle = ⟨.caret, offset, first⟩ :: following ∧
      ((unary.outcome following).attempt = .error failure ∨
        ∃ exponent after, unary.outcome following = .ok (exponent, after) ∧
          Subtree.ofOperands input .power base exponent = .error failure) := by
  unfold raised at failed
  split at failed
  · exact ⟨_, _, _, rfl, combined_error_cases failed⟩
  · cases failed

theorem raised_ne_missing {middle : List Lexeme} {base : Subtree} :
    raised unary input base middle ≠ .error (.missing fault rest) := by
  intro failed
  rcases raised_error_cases failed with ⟨_, _, _, -, failed | ⟨exponent, after, -, refused⟩⟩
  · exact Outcome.attempt_ne_missing failed
  · exact Subtree.checked_ne_missing refused

theorem power_missing {base : Reader}
    (failed : (power unary base).outcome input = .error (.missing fault rest)) :
    base.outcome input = .error (.missing fault rest) := by
  rw [outcome_power] at failed
  rcases or_exists_of_bind_error failed with failed | ⟨found, -, failed⟩
  · exact failed
  · exact (raised_ne_missing failed).elim

theorem atom_missing (failed : (atom unary).outcome input = .error (.missing fault rest)) :
    rest = input ∧ fault = .expression ∧ (∀ name, front? input ≠ some (.name name)) ∧
      ∀ value, front? input ≠ some (.number value) := by
  cases dataFront Token.number input with
  | carries value offset first following =>
      rw [outcome_atom_number] at failed
      rcases combined_error_cases failed with failed | ⟨factor, after, -, refused⟩
      · exact (Outcome.attempt_ne_missing failed).elim
      · exact (Subtree.checked_ne_missing refused).elim
  | other uncounted =>
      rw [outcome_atom_other unary uncounted] at failed
      rcases juxtaposed_missing failed with ⟨rfl, rfl, unnamed⟩
      exact ⟨rfl, rfl, unnamed, uncounted⟩

end Bases

theorem missesOperand_unary (levels : Nat) : (unary levels).MissesOperand := by
  induction levels with
  | zero =>
      intro input fault rest failed
      cases failed
  | succ levels ih =>
      intro input fault rest failed
      cases signFront input with
      | minus offset first following =>
          rw [outcome_unary_minus] at failed
          rcases or_exists_of_bind_error failed with failed | ⟨inner, -, failed⟩
          · rcases ih failed with ⟨wording, awaits⟩
            exact ⟨wording, awaits.sign rfl⟩
          · rcases or_exists_of_bind_error failed with failed | ⟨negation, -, failed⟩
            · exact (Subtree.checked_ne_missing failed).elim
            · cases failed
      | plus offset first following =>
          rw [outcome_unary_plus] at failed
          rcases ih failed with ⟨wording, awaits⟩
          exact ⟨wording, awaits.sign rfl⟩
      | unsigned notMinus notPlus =>
          rw [outcome_unary_other notMinus notPlus] at failed
          rcases atom_missing (power_missing failed) with ⟨rfl, rfl, unnamed, uncounted⟩
          refine ⟨.inl rfl, .refl ?_⟩
          intro token front
          cases token with
          | number value => exact (uncounted value front).elim
          | name name => exact (unnamed name front).elim
          | plus => exact (notPlus front).elim
          | minus => exact (notMinus front).elim
          | _ => rfl

/-! ## Chains -/

section Chains

variable {levels : Nat} {loose tight : Phrase} {operator? : Token → Option Operator}
  {operand : Reader} (sound : operand.Sound levels tight) (misses : operand.MissesOperand)
  (joins : ∀ {token operator leftTokens rightTokens left right},
    operator? token = some operator → Derives levels loose leftTokens left →
    Derives levels tight rightTokens right →
    Derives levels loose (leftTokens ++ token :: rightTokens)
      (.operation operator [left, right]))
  (operators : ∀ {token operator}, operator? token = some operator → token.isOperator = true)

include sound misses joins operators

theorem extension_missing {whole input rest : List Lexeme} {left : Subtree}
    {fault : ParseFault} (found : Found levels loose whole left input)
    (failed : extension operator? operand left input = .error (.missing fault rest)) :
    fault = .operand ∧ Awaits whole rest := by
  induction length : input.length using Nat.strongRecOn generalizing input left with
  | ind length' ih =>
      subst length
      cases input with
      | nil =>
          rw [extension_nil] at failed
          cases failed
      | cons lexeme following =>
          rw [extension_cons] at failed
          cases joining : operator? lexeme.token with
          | none =>
              rw [joining] at failed
              cases failed
          | some operator =>
              rw [joining] at failed
              rcases or_exists_of_bind_error failed with missed | ⟨⟨right, middle⟩, reads, failed⟩
              · rcases eq_error_of_mapError missed with ⟨failure, operandFailed, same⟩
                cases failure with
                | nesting => cases same
                | missing fault' rest' =>
                    cases same
                    rcases found with ⟨-, front, rfl, derives⟩
                    exact ⟨rfl, (misses operandFailed).2.behind derives.balanced
                      derives.stray_not_mem (operators joining)⟩
              · rcases or_exists_of_bind_error failed with failed | ⟨combined, joined, failed⟩
                · exact (Subtree.checked_ne_missing failed).elim
                · have operandReads := eq_ok_of_mapError reads
                  apply ih middle.length _ (found_of_joined sound joins found joining operandReads
                    joined) failed rfl
                  exact Nat.lt_succ_of_lt (length_lt_of_outcome operandReads)

theorem missesOperand_chain
    (embeds : ∀ {tokens formula}, Derives levels tight tokens formula →
      Derives levels loose tokens formula) :
    (chain operator? operand).MissesOperand := by
  intro input fault rest failed
  rw [outcome_chain] at failed
  rcases or_exists_of_bind_error failed with failed | ⟨⟨first, middle⟩, reads, failed⟩
  · exact misses failed
  · rcases extension_missing sound misses joins operators ((sound reads).as embeds) failed with
      ⟨wording, awaits⟩
    exact ⟨.inr wording, awaits⟩

end Chains

theorem missesOperand_product (levels : Nat) :
    (chain multiplicative? (unary levels)).MissesOperand := by
  apply missesOperand_chain (sound_unary levels) (missesOperand_unary levels) product_joins _ .unary
  intro token operator joining
  cases token <;> cases joining <;> rfl

theorem missesOperand_sum (levels : Nat) : (sum (unary levels)).MissesOperand := by
  apply missesOperand_chain (sound_product (sound_unary levels)) (missesOperand_product levels)
    sum_joins _ .product
  intro token operator joining
  cases token <;> cases joining <;> rfl

end Reader

/-! ## Complete phrases -/

/-- An input divided where nothing belongs to a phrase any more.  The rest starts with none
of some operators, and a name does not stand behind a number. -/
structure Complete (isJoining : Token → Bool) (input rest : List Lexeme) : Prop where
  consumed : ∃ front, input = front ++ rest ∧ front ≠ [] ∧
    ∀ value name, (tokensOf front).getLast? = some (.number value) →
      front? rest ≠ some (.name name)
  head : ∀ token, front? rest = some token → isJoining token = false

namespace Complete

variable {isJoining : Token → Bool} {input rest : List Lexeme}

theorem prepend (complete : Complete isJoining input rest) (front : List Lexeme) :
    Complete isJoining (front ++ input) rest := by
  rcases complete with ⟨⟨back, rfl, filled, apart⟩, head⟩
  refine ⟨⟨front ++ back, by simp, by simp [filled], ?_⟩, head⟩
  intro value name last
  apply apart value name
  rw [tokensOf, List.map_append, List.getLast?_append] at last
  cases back with
  | nil => exact (filled rfl).elim
  | cons lexeme back =>
      rw [List.map_cons, List.getLast?_cons] at last
      rw [tokensOf, List.map_cons, List.getLast?_cons]
      exact last

theorem behind (complete : Complete isJoining input rest) (front : List Lexeme)
    (lexeme : Lexeme) : Complete isJoining (front ++ lexeme :: input) rest := by
  rw [List.append_cons]
  exact complete.prepend _

end Complete

/-- A reader that leaves nothing that belongs to what it found. -/
def Reader.Completes (isJoining : Token → Bool) (reader : Reader) : Prop :=
  ∀ ⦃input found rest⦄, reader.outcome input = .ok (found, rest) →
    Complete isJoining input rest

/-- A primary phrase ends with a name or a parenthesis. -/
theorem Derives.primary_last {levels : Nat} {tokens : List Token} {formula : Formula}
    (derives : Derives levels .primary tokens formula) (value : Float) :
    tokens.getLast? ≠ some (.number value) := by
  cases derives with
  | symbol => nofun
  | call | parenthesized =>
      rw [List.getLast?_concat]
      nofun

namespace Reader

theorem exists_missing_of_attempt {result : Outcome} (skipped : result.attempt = .ok none) :
    ∃ fault rest, result = .error (.missing fault rest) := by
  cases result with
  | ok found => cases skipped
  | error failure =>
      cases failure with
      | missing fault rest => exact ⟨fault, rest, rfl⟩
      | nesting rest => cases skipped

section Powers

variable {levels : Nat} {isJoining : Token → Bool}
  (completes : (unary levels).Completes fun _ => false)

include completes

theorem complete_of_raised {whole input middle rest : List Lexeme} {base found : Subtree}
    (complete : Complete (fun _ => false) whole middle)
    (reads : raised (unary levels) input base middle = .ok (found, rest)) :
    Complete (fun _ => false) whole rest := by
  rcases raised_cases reads with
    ⟨-, rfl, -⟩ | ⟨offset, first, following, exponent, rfl, exponentReads, -⟩
  · exact complete
  · rcases complete.consumed with ⟨front, rfl, -⟩
    exact (completes exponentReads).behind front _

theorem completes_factor :
    (power (unary levels) (juxtaposed (unary levels))).Completes fun _ => false := by
  intro input found rest reads
  rw [outcome_power] at reads
  rcases exists_of_bind_ok reads with ⟨⟨base, middle⟩, baseReads, reads⟩
  apply complete_of_raised completes _ reads
  rcases (sound_juxtaposed (sound_unary levels) baseReads).derives with ⟨front, split, derives⟩
  refine ⟨⟨front, split, ?_, ?_⟩, fun _ _ => rfl⟩
  · rintro rfl
    rcases derives.exists_first with ⟨first, others, none, -⟩
    cases none
  · intro value name last
    exact (derives.primary_last value last).elim

theorem completes_power :
    (power (unary levels) (atom (unary levels))).Completes fun _ => false := by
  intro input found rest reads
  cases dataFront Token.number input with
  | carries value offset first following =>
      rw [outcome_power, outcome_atom_number] at reads
      rcases exists_of_bind_ok reads with ⟨⟨base, middle⟩, baseReads, reads⟩
      apply complete_of_raised completes _ reads
      rcases combined_ok_cases baseReads with ⟨skipped, same⟩ | ⟨factor, factorReads, -⟩
      · cases same
        rcases exists_missing_of_attempt skipped with ⟨fault, missed, failed⟩
        rcases juxtaposed_missing (power_missing failed) with ⟨-, -, unnamed⟩
        exact ⟨⟨[⟨.number value, offset, first⟩], rfl, nofun, fun _ name _ => unnamed name⟩,
          fun _ _ => rfl⟩
      · exact (completes_factor completes factorReads).prepend [⟨.number value, offset, first⟩]
  | other uncounted =>
      rw [outcome_power, outcome_atom_other _ uncounted, ← outcome_power] at reads
      exact completes_factor completes reads

end Powers

theorem completes_unary (levels : Nat) : (unary levels).Completes fun _ => false := by
  induction levels with
  | zero =>
      intro input found rest reads
      cases reads
  | succ levels ih =>
      intro input found rest reads
      cases signFront input with
      | minus offset first following =>
          rw [outcome_unary_minus] at reads
          rcases exists_of_bind_ok reads with ⟨⟨inner, after⟩, innerReads, reads⟩
          rcases exists_of_bind_ok reads with ⟨negation, -, same⟩
          cases same
          exact (ih innerReads).prepend [_]
      | plus offset first following =>
          rw [outcome_unary_plus] at reads
          exact (ih reads).prepend [_]
      | unsigned notMinus notPlus =>
          rw [outcome_unary_other notMinus notPlus] at reads
          exact completes_power ih reads

/-! ## Complete chains -/

section Chains

variable {isJoining : Token → Bool} {operator? : Token → Option Operator} {operand : Reader}
  (completes : operand.Completes isJoining)

include completes

theorem complete_of_extension {whole input rest : List Lexeme} {left result : Subtree}
    (complete : Complete isJoining whole input)
    (reads : extension operator? operand left input = .ok (result, rest)) :
    Complete (fun token => isJoining token || (operator? token).isSome) whole rest := by
  induction length : input.length using Nat.strongRecOn generalizing input left with
  | ind length' ih =>
      subst length
      cases input with
      | nil =>
          rw [extension_nil] at reads
          cases reads
          exact ⟨complete.consumed, nofun⟩
      | cons lexeme following =>
          rw [extension_cons] at reads
          cases joining : operator? lexeme.token with
          | none =>
              rw [joining] at reads
              cases reads
              refine ⟨complete.consumed, ?_⟩
              intro token front
              cases front
              rw [complete.head _ rfl, joining]
              rfl
          | some operator =>
              rw [joining] at reads
              rcases exists_of_bind_ok reads with ⟨⟨right, middle⟩, operandReads, remaining⟩
              rcases exists_of_bind_ok remaining with ⟨combined, -, continues⟩
              have operandReads := eq_ok_of_mapError operandReads
              rcases complete.consumed with ⟨front, rfl, -⟩
              apply ih middle.length _ ((completes operandReads).behind front lexeme) continues rfl
              exact Nat.lt_succ_of_lt (length_lt_of_outcome operandReads)

theorem completes_chain : (chain operator? operand).Completes
    fun token => isJoining token || (operator? token).isSome := by
  intro input found rest reads
  rw [outcome_chain] at reads
  rcases exists_of_bind_ok reads with ⟨⟨first, middle⟩, firstReads, reads⟩
  exact complete_of_extension completes (completes firstReads) reads

end Chains

/-- A sum is left where none of its operators follows. -/
theorem completes_sum (levels : Nat) : (sum (unary levels)).Completes Token.isOperator := by
  intro input found rest reads
  rcases completes_chain (completes_chain (completes_unary levels)) reads with ⟨consumed, head⟩
  refine ⟨consumed, ?_⟩
  intro token front
  have unjoined := head token front
  revert unjoined
  cases token <;> simp [multiplicative?, additive?, Token.isOperator]

end Reader

end Stereograph.Formula
