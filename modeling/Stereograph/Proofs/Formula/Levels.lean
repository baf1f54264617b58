import Stereograph.Proofs.Formula.Outcome

/-!
# Levels of nesting

Readers with more levels of nesting find what readers with fewer levels find, and stop
where these stop, except where the latter run out of levels.  Hence a caret that is left
over by a reader is left over by every reader around it.
-/

namespace Stereograph.Formula

/-- Two outcomes agree, unless the first is a lack of levels. -/
def Within {α : Type} (few many : Except Failure α) : Prop :=
  (∃ rest, few = .error (.nesting rest)) ∨ few = many

namespace Within

variable {α β : Type}

theorem refl (result : Except Failure α) : Within result result :=
  .inr rfl

theorem bind {few many : Except Failure α} {fewNext manyNext : α → Except Failure β}
    (first : Within few many)
    (next : ∀ value, few = .ok value → Within (fewNext value) (manyNext value)) :
    Within (few >>= fewNext) (many >>= manyNext) := by
  rcases first with ⟨rest, rfl⟩ | rfl
  · exact .inl ⟨rest, rfl⟩
  · cases few with
    | error failure => exact .inr rfl
    | ok value => exact next value rfl

theorem inOperand {few many : Except Failure α} (within : Within few many) :
    Within (few.mapError Failure.inOperand) (many.mapError Failure.inOperand) := by
  rcases within with ⟨rest, rfl⟩ | rfl
  · exact .inl ⟨rest, rfl⟩
  · exact refl _

theorem attempt {few many : Outcome} (within : Within few many) :
    Within few.attempt many.attempt := by
  rcases within with ⟨rest, rfl⟩ | rfl
  · exact .inl ⟨rest, rfl⟩
  · exact refl _

end Within

namespace Reader

/-- One reader agrees with another, unless it runs out of levels. -/
def Refines (few many : Reader) : Prop :=
  ∀ input, Within (few.outcome input) (many.outcome input)

theorem length_lt_of_outcome {reader : Reader} {input rest : List Lexeme}
    {subtree : Subtree} (reads : reader.outcome input = .ok (subtree, rest)) :
    rest.length < input.length := by
  unfold outcome at reads
  cases parsed : reader input with
  | error failure =>
      rw [parsed] at reads
      cases reads
  | ok parsed' =>
      rw [parsed] at reads
      cases reads
      exact parsed'.shorter

section Combinators

variable {few many : Reader} (refines : Refines few many)

include refines

theorem within_extension (operator? : Token → Option Operator) (left : Subtree)
    (input : List Lexeme) :
    Within (extension operator? few left input) (extension operator? many left input) := by
  induction length : input.length using Nat.strongRecOn generalizing left input with
  | ind length' ih =>
      subst length
      cases input with
      | nil =>
          rw [extension_nil, extension_nil]
          exact .refl _
      | cons lexeme following =>
          rw [extension_cons, extension_cons]
          cases operator? lexeme.token with
          | none => exact .refl _
          | some operator =>
              apply Within.bind (refines following).inOperand
              intro found reads
              apply Within.bind (.refl _)
              intro combined _
              cases result : few.outcome following with
              | error failure =>
                  rw [result] at reads
                  cases reads
              | ok found' =>
                  rw [result] at reads
                  cases reads
                  apply ih _ _ combined found.2 rfl
                  exact Nat.lt_succ_of_lt (length_lt_of_outcome result)

theorem refines_chain (operator? : Token → Option Operator) :
    Refines (chain operator? few) (chain operator? many) := by
  intro input
  rw [outcome_chain, outcome_chain]
  apply Within.bind (refines input)
  intro found _
  exact within_extension refines operator? found.1 found.2

theorem refines_parenthesized : Refines (parenthesized few) (parenthesized many) := by
  intro input
  by_cases opening : front? input = some .opening
  · rcases exists_cons_of_front? opening with ⟨offset, first, following, rfl⟩
    rw [outcome_parenthesized_opening, outcome_parenthesized_opening]
    apply Within.bind
      (refines_chain (refines_chain refines multiplicative?) additive? following)
    intro inner _
    exact .refl _
  · rw [outcome_parenthesized_other few opening, outcome_parenthesized_other many opening]
    exact .refl _

theorem refines_juxtaposed : Refines (juxtaposed few) (juxtaposed many) := by
  intro input
  cases dataFront Token.name input with
  | carries name offset first following =>
      rw [outcome_juxtaposed_name, outcome_juxtaposed_name]
      apply Within.bind (refines_parenthesized refines following).attempt
      intro argument _
      exact .refl _
  | other unnamed =>
      rw [outcome_juxtaposed_other few unnamed, outcome_juxtaposed_other many unnamed]
      apply Within.bind (refines_parenthesized refines input).attempt
      intro inner _
      exact .refl _

theorem within_raised (input : List Lexeme) (base : Subtree) (middle : List Lexeme) :
    Within (raised few input base middle) (raised many input base middle) := by
  unfold raised
  split
  · rename_i following
    apply Within.bind (refines following).attempt
    intro exponent _
    exact .refl _
  · exact .refl _

theorem refines_power {fewBase manyBase : Reader} (bases : Refines fewBase manyBase) :
    Refines (power few fewBase) (power many manyBase) := by
  intro input
  rw [outcome_power, outcome_power]
  apply Within.bind (bases input)
  intro found _
  exact within_raised refines input found.1 found.2

theorem refines_atom : Refines (atom few) (atom many) := by
  intro input
  cases dataFront Token.number input with
  | carries value offset first following =>
      rw [outcome_atom_number, outcome_atom_number]
      apply Within.bind
        (refines_power refines (refines_juxtaposed refines) following).attempt
      intro factor _
      exact .refl _
  | other uncounted =>
      rw [outcome_atom_other few uncounted, outcome_atom_other many uncounted]
      exact refines_juxtaposed refines input

end Combinators

/-- A level more changes nothing but the point where the levels run out. -/
theorem refines_unary (levels : Nat) : Refines (unary levels) (unary (levels + 1)) := by
  induction levels with
  | zero =>
      intro input
      exact .inl ⟨input, rfl⟩
  | succ levels ih =>
      intro input
      cases signFront input with
      | minus offset first following =>
          rw [outcome_unary_minus, outcome_unary_minus]
          apply Within.bind (ih following)
          intro inner _
          exact .refl _
      | plus offset first following =>
          rw [outcome_unary_plus, outcome_unary_plus]
          exact ih following
      | unsigned notMinus notPlus =>
          rw [outcome_unary_other notMinus notPlus, outcome_unary_other notMinus notPlus]
          exact refines_power ih (refines_atom ih) input

/-! ## Carets that are left over -/

/-- No exponent is read after a caret at the front of an input. -/
def LeavesCaret (unary : Reader) (input : List Lexeme) : Prop :=
  ∀ offset first following, input = ⟨.caret, offset, first⟩ :: following →
    (unary.outcome following).attempt = .ok none

theorem LeavesCaret.raised {unary : Reader} {middle : List Lexeme}
    (leaves : LeavesCaret unary middle) (input : List Lexeme) (base : Subtree) :
    raised unary input base middle = .ok (base, middle) := by
  unfold Reader.raised
  split
  · rw [leaves _ _ _ rfl]
    rfl
  · rfl

theorem LeavesCaret.refines {few many : Reader} {input : List Lexeme}
    (refines : Refines few many) (leaves : LeavesCaret few input) :
    LeavesCaret many input := by
  intro offset first following same
  have skipped := leaves offset first following same
  rcases refines following with ⟨rest, exhausted⟩ | agree
  · rw [exhausted] at skipped
    cases skipped
  · rw [← agree]
    exact skipped

/-- A base is left as it is where no exponent can be read behind it, or it is raised to the
exponent that follows it. -/
theorem raised_cases {unary : Reader} {input middle rest : List Lexeme} {base result : Subtree}
    (reads : raised unary input base middle = .ok (result, rest)) :
    (result = base ∧ rest = middle ∧ LeavesCaret unary middle) ∨
      ∃ offset first following exponent, middle = ⟨.caret, offset, first⟩ :: following ∧
        unary.outcome following = .ok (exponent, rest) ∧
        Subtree.ofOperands input .power base exponent = .ok result := by
  unfold Reader.raised at reads
  split at reads
  · rename_i offset first following
    rcases combined_ok_cases reads with ⟨skipped, same⟩ | ⟨exponent, found, joined⟩
    · cases same
      refine .inl ⟨rfl, rfl, ?_⟩
      intro _ _ _ same
      cases same
      exact skipped
    · exact .inr ⟨offset, first, following, exponent, rfl, found, joined⟩
  · rename_i bare
    cases reads
    exact .inl ⟨rfl, rfl, fun _ _ _ same => (bare _ _ _ same).elim⟩

/-- A power leaves no caret behind that could be read. -/
theorem leavesCaret_of_power {unary base : Reader} {input rest : List Lexeme} {result : Subtree}
    (exponents : ∀ {input rest subtree}, unary.outcome input = .ok (subtree, rest) →
      LeavesCaret unary rest)
    (reads : (power unary base).outcome input = .ok (result, rest)) :
    LeavesCaret unary rest := by
  rw [outcome_power] at reads
  rcases exists_of_bind_ok reads with ⟨found, -, raises⟩
  rcases raised_cases raises with ⟨-, rfl, leaves⟩ | ⟨_, _, _, exponent, -, exponentReads, -⟩
  · exact leaves
  · exact exponents exponentReads

/-- What a reader of unary phrases leaves starts with no caret that it could read. -/
theorem leavesCaret_of_unary {levels : Nat} {input rest : List Lexeme} {subtree : Subtree}
    (reads : (unary levels).outcome input = .ok (subtree, rest)) :
    LeavesCaret (unary levels) rest := by
  induction levels generalizing input rest subtree with
  | zero => cases reads
  | succ levels ih =>
      apply LeavesCaret.refines (refines_unary levels)
      cases signFront input with
      | minus offset first following =>
          rw [outcome_unary_minus] at reads
          rcases exists_of_bind_ok reads with ⟨inner, found, reads⟩
          rcases exists_of_bind_ok reads with ⟨negated, -, same⟩
          cases same
          exact ih found
      | plus offset first following =>
          rw [outcome_unary_plus] at reads
          exact ih reads
      | unsigned notMinus notPlus =>
          rw [outcome_unary_other notMinus notPlus] at reads
          exact leavesCaret_of_power ih reads

end Reader

end Stereograph.Formula
