import Stereograph.Formula.Reader
import Stereograph.Proofs.Formula.Forms

/-!
# Outcomes of readers

A reader returns a proof that what it leaves is shorter than its input.  Only the
recursion needs the proof.  The outcome of a reader leaves it out, and every reader has
an equation between outcomes for each way in which its input may start.
-/

namespace Stereograph.Formula

/-- What was found and what is left, or the reason why nothing was found. -/
abbrev Outcome := Except Failure (Subtree × List Lexeme)

/-- The outcome of a construct that may be left out. -/
def Outcome.attempt : Outcome → Except Failure (Option (Subtree × List Lexeme))
  | .ok found => .ok (some found)
  | .error (.missing _ _) => .ok none
  | .error (.nesting rest) => .error (.nesting rest)

/-- What is built of a construct that may be left out, or else what stands alone. -/
def Outcome.combined (part : Outcome) (build : Subtree → Except Failure Subtree)
    (alone : Subtree × List Lexeme) : Outcome := do
  match ← part.attempt with
  | some (found, rest) =>
      let subtree ← build found
      .ok (subtree, rest)
  | none => .ok alone

/-- The token at the front of an input. -/
def front? (input : List Lexeme) : Option Token :=
  input.head?.map Lexeme.token

@[simp] theorem front?_nil : front? [] = none :=
  rfl

@[simp] theorem front?_cons (lexeme : Lexeme) (following : List Lexeme) :
    front? (lexeme :: following) = some lexeme.token :=
  rfl

theorem exists_cons_of_front? {input : List Lexeme} {token : Token}
    (front : front? input = some token) :
    ∃ offset first following, input = ⟨token, offset, first⟩ :: following := by
  rcases input with _ | ⟨⟨other, offset, first⟩, following⟩
  · cases front
  · cases front
    exact ⟨offset, first, following, rfl⟩

/-- Whether an input starts with a sign, as readers of unary phrases tell. -/
inductive SignFront : List Lexeme → Prop
  | minus (offset first following) : SignFront (⟨.minus, offset, first⟩ :: following)
  | plus (offset first following) : SignFront (⟨.plus, offset, first⟩ :: following)
  | unsigned {input} (notMinus : front? input ≠ some .minus)
      (notPlus : front? input ≠ some .plus) : SignFront input

theorem signFront (input : List Lexeme) : SignFront input := by
  by_cases minus : front? input = some .minus
  · rcases exists_cons_of_front? minus with ⟨offset, first, following, rfl⟩
    exact .minus offset first following
  · by_cases plus : front? input = some .plus
    · rcases exists_cons_of_front? plus with ⟨offset, first, following, rfl⟩
      exact .plus offset first following
    · exact .unsigned minus plus

/-- Whether an input starts with a token that carries data, a name or a number. -/
inductive DataFront {α : Type} (token : α → Token) : List Lexeme → Prop
  | carries (data offset first following) :
      DataFront token (⟨token data, offset, first⟩ :: following)
  | other {input} (absent : ∀ data, front? input ≠ some (token data)) : DataFront token input

theorem dataFront {α : Type} (token : α → Token) (input : List Lexeme) :
    DataFront token input := by
  by_cases present : ∃ data, front? input = some (token data)
  · rcases present with ⟨data, front⟩
    rcases exists_cons_of_front? front with ⟨offset, first, following, rfl⟩
    exact .carries data offset first following
  · exact .other (not_exists.mp present)

namespace Reader

/-- A reading that succeeded goes on with what it found. -/
theorem ok_bind {α β : Type} (found : α) (next : α → Except Failure β) :
    (Except.ok found >>= next) = next found :=
  rfl

/-- What a reader finds at the front of an input. -/
def outcome (reader : Reader) (input : List Lexeme) : Outcome :=
  (reader input).map fun parsed => (parsed.subtree, parsed.rest)

theorem optional_eq_attempt (reader : Reader) (input : List Lexeme) :
    (reader.optional input).map (Option.map fun parsed => (parsed.subtree, parsed.rest)) =
      (reader.outcome input).attempt := by
  unfold optional outcome
  cases reader input with
  | ok parsed => rfl
  | error failure => cases failure <;> rfl

theorem eq_ok_of_attempt {result : Outcome} {found : Subtree × List Lexeme}
    (reads : result.attempt = .ok (some found)) : result = .ok found := by
  cases result with
  | error failure => cases failure <;> cases reads
  | ok value =>
      cases reads
      rfl

theorem eq_error_of_attempt {result : Outcome} {failure : Failure}
    (failed : result.attempt = .error failure) : result = .error failure := by
  cases result with
  | ok found => cases failed
  | error other =>
      cases other <;> cases failed
      rfl

theorem or_exists_of_bind_error {α β : Type} {first : Except Failure α}
    {next : α → Except Failure β} {failure : Failure}
    (failed : first >>= next = .error failure) :
    first = .error failure ∨ ∃ value, first = .ok value ∧ next value = .error failure := by
  cases first with
  | error other =>
      cases failed
      exact .inl rfl
  | ok value => exact .inr ⟨value, rfl, failed⟩

section Combined

variable {part : Outcome} {build : Subtree → Except Failure Subtree}
  {alone : Subtree × List Lexeme}

theorem combined_ok_cases {found : Subtree} {rest : List Lexeme}
    (reads : part.combined build alone = .ok (found, rest)) :
    (part.attempt = .ok none ∧ (found, rest) = alone) ∨
      ∃ inner, part = .ok (inner, rest) ∧ build inner = .ok found := by
  rcases exists_of_bind_ok reads with ⟨attempted, attempt, reads⟩
  cases attempted with
  | none =>
      cases reads
      exact .inl ⟨attempt, rfl⟩
  | some inner =>
      rcases exists_of_bind_ok reads with ⟨subtree, builds, same⟩
      cases same
      exact .inr ⟨inner.1, eq_ok_of_attempt attempt, builds⟩

theorem combined_error_cases {failure : Failure}
    (failed : part.combined build alone = .error failure) :
    part.attempt = .error failure ∨
      ∃ inner rest, part = .ok (inner, rest) ∧ build inner = .error failure := by
  rcases or_exists_of_bind_error failed with failed | ⟨attempted, attempt, failed⟩
  · exact .inl failed
  · cases attempted with
    | none => cases failed
    | some inner =>
        rcases or_exists_of_bind_error failed with refused | ⟨subtree, -, failed⟩
        · exact .inr ⟨inner.1, inner.2, eq_ok_of_attempt attempt, refused⟩
        · cases failed

end Combined

/-! ## Chains -/

section Chains

variable (operator? : Token → Option Operator) (operand : Reader)

/-- What a left operand is extended to. -/
def extension (left : Subtree) (input : List Lexeme) : Outcome :=
  (extend operator? operand left input).map Subtype.val

@[simp] theorem extension_nil (left : Subtree) :
    extension operator? operand left [] = .ok (left, []) := by
  rw [extension, extend]
  rfl

theorem extension_cons (left : Subtree) (lexeme : Lexeme) (following : List Lexeme) :
    extension operator? operand left (lexeme :: following) =
      match operator? lexeme.token with
      | none => .ok (left, lexeme :: following)
      | some operator => (do
          let (right, middle) ← (operand.outcome following).mapError Failure.inOperand
          let combined ← Subtree.ofOperands (lexeme :: following) operator left right
          extension operator? operand combined middle) := by
  rw [extension, extend]
  cases operator? lexeme.token with
  | none => rfl
  | some operator =>
      simp only [outcome]
      cases operand following with
      | error failure => rfl
      | ok right =>
          change Except.map _ (Subtree.ofOperands _ _ _ _ >>= _) =
            Subtree.ofOperands _ _ _ _ >>= _
          cases Subtree.ofOperands (lexeme :: following) operator left right.subtree with
          | error failure => rfl
          | ok combined =>
              change Except.map _ (extend _ _ _ _ >>= _) = extension _ _ _ _
              rw [extension]
              cases extend operator? operand combined right.rest <;> rfl

/-- A chain is its first operand with the extension of it. -/
theorem outcome_chain (input : List Lexeme) :
    (chain operator? operand).outcome input = (do
      let (first, middle) ← operand.outcome input
      extension operator? operand first middle) := by
  simp only [outcome, chain]
  cases operand input with
  | error failure => rfl
  | ok first =>
      change Except.map _ (extend _ _ _ _ >>= _) = extension _ _ _ _
      rw [extension]
      cases extend operator? operand first.subtree first.rest <;> rfl

end Chains

/-! ## Phrases -/

section Phrases

variable (unary : Reader)

/-- What follows a sum in parentheses is a closing one. -/
def closed (input : List Lexeme) (inner : Subtree) : List Lexeme → Outcome
  | ⟨.closing, _, _⟩ :: rest => .ok (inner, rest)
  | _ => .error (.missing .expression input)

theorem outcome_parenthesized_opening (offset : Nat) (first : Char)
    (following : List Lexeme) :
    (parenthesized unary).outcome (⟨.opening, offset, first⟩ :: following) = (do
      let (inner, middle) ← (sum unary).outcome following
      closed (⟨.opening, offset, first⟩ :: following) inner middle) := by
  simp only [outcome, parenthesized]
  cases sum unary following with
  | error failure => rfl
  | ok inner =>
      rcases inner with ⟨subtree, middle, shorter⟩
      rw [ok_bind]
      change Except.map _ _ = closed _ subtree middle
      dsimp only
      unfold closed
      split
      · rfl
      · rename_i unclosed
        split
        · exact (unclosed _ _ _ rfl).elim
        · rfl

theorem outcome_parenthesized_other {input : List Lexeme}
    (other : front? input ≠ some .opening) :
    (parenthesized unary).outcome input = .error (.missing .expression input) := by
  unfold outcome parenthesized
  split
  · exact (other rfl).elim
  · rfl

theorem outcome_juxtaposed_name (name : String) (offset : Nat) (first : Char)
    (following : List Lexeme) :
    (juxtaposed unary).outcome (⟨.name name, offset, first⟩ :: following) = (do
      match ← ((parenthesized unary).outcome following).attempt with
      | some (argument, rest) =>
          let subtree ← Subtree.ofCall (⟨.name name, offset, first⟩ :: following) name argument
          .ok (subtree, rest)
      | none => .ok (.single (.symbol name), following)) := by
  rw [← optional_eq_attempt]
  simp only [outcome, juxtaposed]
  cases optional (parenthesized unary) following with
  | error failure => rfl
  | ok argument =>
      cases argument with
      | none => rfl
      | some argument =>
          change Except.map _ (Subtree.ofCall _ _ _ >>= _) = Subtree.ofCall _ _ _ >>= _
          cases Subtree.ofCall _ name argument.subtree <;> rfl

theorem outcome_juxtaposed_other {input : List Lexeme}
    (other : ∀ name, front? input ≠ some (.name name)) :
    (juxtaposed unary).outcome input = (do
      match ← ((parenthesized unary).outcome input).attempt with
      | some found => .ok found
      | none => .error (.missing .expression input)) := by
  rw [← optional_eq_attempt]
  unfold outcome juxtaposed
  split
  · exact (other _ rfl).elim
  · cases optional (parenthesized unary) input with
    | error failure => rfl
    | ok inner => cases inner <;> rfl

/-- What a base is raised to, when a caret follows it. -/
def raised (input : List Lexeme) (base : Subtree) : List Lexeme → Outcome
  | ⟨.caret, offset, first⟩ :: following => do
      match ← (unary.outcome following).attempt with
      | some (exponent, rest) =>
          let subtree ← Subtree.ofOperands input .power base exponent
          .ok (subtree, rest)
      | none => .ok (base, ⟨.caret, offset, first⟩ :: following)
  | middle => .ok (base, middle)

theorem outcome_power (base : Reader) (input : List Lexeme) :
    (power unary base).outcome input = (do
      let (found, middle) ← base.outcome input
      raised unary input found middle) := by
  simp only [outcome, power]
  cases base input with
  | error failure => rfl
  | ok base =>
      rcases base with ⟨found, middle, shorter⟩
      rw [ok_bind]
      change Except.map _ _ = raised unary input found middle
      dsimp only
      unfold raised
      split
      · rename_i following
        dsimp only
        rw [← optional_eq_attempt]
        cases optional unary following with
        | error failure => rfl
        | ok exponent =>
            cases exponent with
            | none => rfl
            | some exponent =>
                change Except.map _ (Subtree.ofOperands _ _ _ _ >>= _) =
                  Subtree.ofOperands _ _ _ _ >>= _
                cases Subtree.ofOperands input .power found exponent.subtree <;> rfl
      · rename_i bare
        split
        · exact (bare _ _ _ rfl).elim
        · rfl

theorem raised_of_ne {input middle : List Lexeme} {base : Subtree}
    (other : front? middle ≠ some .caret) :
    raised unary input base middle = .ok (base, middle) := by
  unfold raised
  split
  · exact (other rfl).elim
  · rfl

theorem outcome_atom_number (value : Float) (offset : Nat) (first : Char)
    (following : List Lexeme) :
    (atom unary).outcome (⟨.number value, offset, first⟩ :: following) = (do
      match ← ((power unary (juxtaposed unary)).outcome following).attempt with
      | some (factor, rest) =>
          let subtree ← Subtree.ofOperands (⟨.number value, offset, first⟩ :: following)
            .multiply (.single (.constant value)) factor
          .ok (subtree, rest)
      | none => .ok (.single (.constant value), following)) := by
  rw [← optional_eq_attempt]
  simp only [outcome, atom]
  cases optional (power unary (juxtaposed unary)) following with
  | error failure => rfl
  | ok factor =>
      cases factor with
      | none => rfl
      | some factor =>
          change Except.map _ (Subtree.ofOperands _ _ _ _ >>= _) =
            Subtree.ofOperands _ _ _ _ >>= _
          cases Subtree.ofOperands _ .multiply (.single (.constant value)) factor.subtree <;> rfl

theorem outcome_atom_other {input : List Lexeme}
    (other : ∀ value, front? input ≠ some (.number value)) :
    (atom unary).outcome input = (juxtaposed unary).outcome input := by
  unfold outcome atom
  split
  · exact (other _ rfl).elim
  · rfl

end Phrases

/-! ## Signs -/

theorem outcome_unary_minus (levels offset : Nat) (first : Char)
    (following : List Lexeme) :
    (Reader.unary (levels + 1)).outcome (⟨.minus, offset, first⟩ :: following) = (do
      let (inner, rest) ← (Reader.unary levels).outcome following
      let subtree ← Subtree.negated (⟨.minus, offset, first⟩ :: following) inner
      .ok (subtree, rest)) := by
  simp only [outcome, unary]
  cases Reader.unary levels following with
  | error failure => rfl
  | ok inner =>
      change Except.map _ (Subtree.negated _ _ >>= _) = Subtree.negated _ _ >>= _
      cases Subtree.negated _ inner.subtree <;> rfl

theorem outcome_unary_plus (levels offset : Nat) (first : Char) (following : List Lexeme) :
    (Reader.unary (levels + 1)).outcome (⟨.plus, offset, first⟩ :: following) =
      (Reader.unary levels).outcome following := by
  simp only [outcome, unary]
  cases Reader.unary levels following <;> rfl

theorem outcome_unary_other {levels : Nat} {input : List Lexeme}
    (notMinus : front? input ≠ some .minus) (notPlus : front? input ≠ some .plus) :
    (Reader.unary (levels + 1)).outcome input =
      (power (Reader.unary levels) (atom (Reader.unary levels))).outcome input := by
  simp only [outcome, unary]
  split
  · exact (notMinus rfl).elim
  · exact (notPlus rfl).elim
  · rfl

end Reader

/-! ## Complete texts -/

/-- A text is a formula when the outermost sum leaves nothing of it. -/
theorem parse_eq_ok_iff_outcome {text : String} {formula : Formula} :
    parse text = .ok formula ↔
      ∃ depth, Reader.top.outcome (lexemes text) = .ok (⟨formula, depth⟩, []) := by
  unfold parse Reader.outcome
  cases Reader.top (lexemes text) with
  | error failure =>
      constructor
      · intro accepted
        cases failure <;> cases accepted
      · rintro ⟨depth, found⟩
        cases found
  | ok parsed =>
      rcases parsed with ⟨⟨found, depth⟩, rest, shorter⟩
      cases rest with
      | nil =>
          constructor
          · intro accepted
            cases accepted
            exact ⟨depth, rfl⟩
          · rintro ⟨depth, accepted⟩
            cases accepted
            rfl
      | cons lexeme rest =>
          constructor
          · intro accepted
            cases accepted
          · rintro ⟨depth, accepted⟩
            cases accepted

/-- A text that is not read has a fault at one of its positions. -/
theorem exists_malformed_of_parse {text : String} {error : FormulaError}
    (refused : parse text = .error error) : ∃ offset fault, error = .malformed offset fault := by
  unfold parse at refused
  split at refused
  · split at refused
    · cases refused
    · cases refused
      exact ⟨_, _, rfl⟩
  · cases refused
    exact ⟨_, _, rfl⟩
  · cases refused
    exact ⟨_, _, rfl⟩

/-- The outcome of the outermost sum behind a fault. -/
theorem outcome_of_malformed {text : String} {offset : Nat} {fault : ParseFault}
    (refused : parse text = .error (.malformed offset fault)) :
    (∃ found lexeme rest, Reader.top.outcome (lexemes text) = .ok (found, lexeme :: rest) ∧
      offset = lexeme.offset ∧ fault = .unexpected lexeme.first) ∨
    (∃ rest, Reader.top.outcome (lexemes text) = .error (.missing fault rest) ∧
      offset = offsetOf text rest) ∨
    ∃ rest, Reader.top.outcome (lexemes text) = .error (.nesting rest) ∧
      offset = offsetOf text rest ∧ fault = .nesting := by
  unfold parse at refused
  unfold Reader.outcome
  cases reads : Reader.top (lexemes text) with
  | ok parsed =>
      rcases parsed with ⟨found, rest, shorter⟩
      rw [reads] at refused
      cases rest with
      | nil => cases refused
      | cons lexeme rest =>
          cases refused
          exact .inl ⟨found, lexeme, rest, rfl, rfl, rfl⟩
  | error failure =>
      rw [reads] at refused
      cases failure with
      | missing fault rest =>
          cases refused
          exact .inr (.inl ⟨rest, rfl, rfl⟩)
      | nesting rest =>
          cases refused
          exact .inr (.inr ⟨rest, rfl, rfl, rfl⟩)

end Stereograph.Formula
