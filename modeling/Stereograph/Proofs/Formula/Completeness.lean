import Stereograph.Proofs.Formula.Soundness
import Stereograph.Proofs.Formula.Splitting

/-!
# Completeness of reading

A reader finds what the grammar derives, when the derived tokens are followed by a token
that ends their phrase.  Nothing else can follow a phrase inside of a formula.  Operands
joined by operators are derived from the last operator and read from the first, so a
chain is described by what it still has to extend: reading a chain and a rest is reading
the rest with the tree of the chain as the left operand.

Together with soundness, a text is a formula exactly when its tokens derive the tree, with
the levels of nesting that a text has and a tree that is not too deep.
-/

namespace Stereograph.Formula

/-- The tokens that may follow a complete phrase. -/
def Phrase.follow : Phrase → List Token
  | .sum => [.closing]
  | .product => [.closing, .plus, .minus]
  | .unary | .power | .factor => [.closing, .plus, .minus, .times, .over]
  | .primary => [.closing, .plus, .minus, .times, .over, .caret]

/-- A phrase is complete where an input continues with one of its following tokens, or
where the input ends. -/
def Phrase.EndsAt (phrase : Phrase) (rest : List Lexeme) : Prop :=
  ∀ token, front? rest = some token → token ∈ phrase.follow

namespace Phrase

variable {rest : List Lexeme}

theorem EndsAt.nil (phrase : Phrase) : phrase.EndsAt [] := by
  intro token front
  cases front

theorem EndsAt.cons {phrase : Phrase} {lexeme : Lexeme}
    (follows : lexeme.token ∈ phrase.follow) (following : List Lexeme) :
    phrase.EndsAt (lexeme :: following) := by
  intro token front
  cases front
  exact follows

theorem EndsAt.mono {tight loose : Phrase} (ends : loose.EndsAt rest)
    (includes : loose.follow ⊆ tight.follow) : tight.EndsAt rest := by
  intro token front
  exact includes (ends token front)

theorem EndsAt.ne {phrase : Phrase} (ends : phrase.EndsAt rest) {token : Token}
    (other : token ∉ phrase.follow) : front? rest ≠ some token := by
  intro front
  exact other (ends token front)

end Phrase

/-! ## First tokens -/

/-- The first token of a power is no sign, and that of a factor is no number either. -/
theorem Derives.exists_first {levels : Nat} {phrase : Phrase} {tokens : List Token}
    {formula : Formula} (derives : Derives levels phrase tokens formula) :
    ∃ first others, tokens = first :: others ∧
      (phrase = .power → first ≠ .plus ∧ first ≠ .minus) ∧
      (phrase = .factor ∨ phrase = .primary →
        first = .opening ∨ ∃ name, first = .name name) := by
  induction derives with
  | product _ ih | unary _ ih =>
      rcases ih with ⟨first, others, same, -⟩
      exact ⟨first, others, same, by simp, by simp⟩
  | add _ _ leftIH _ | subtract _ _ leftIH _ | multiply _ _ leftIH _ | divide _ _ leftIH _ =>
      rcases leftIH with ⟨first, others, rfl, -⟩
      exact ⟨first, _, rfl, by simp, by simp⟩
  | negate _ _ | plus _ _ => exact ⟨_, _, rfl, by simp, by simp⟩
  | unsigned _ ih =>
      rcases ih with ⟨first, others, same, -⟩
      exact ⟨first, others, same, by simp, by simp⟩
  | number | numberPower _ _ | scaled _ _ => exact ⟨_, _, rfl, by simp, by simp⟩
  | unscaled _ ih =>
      rcases ih with ⟨first, others, same, -, starts⟩
      refine ⟨first, others, same, ?_, by simp⟩
      intro _
      rcases starts (.inl rfl) with rfl | ⟨name, rfl⟩ <;> simp
  | primary _ ih =>
      rcases ih with ⟨first, others, same, -, starts⟩
      exact ⟨first, others, same, by simp, fun _ => starts (.inr rfl)⟩
  | primaryPower _ _ baseIH _ =>
      rcases baseIH with ⟨first, others, rfl, -, starts⟩
      exact ⟨first, _, rfl, by simp, fun _ => starts (.inr rfl)⟩
  | symbol => exact ⟨_, [], rfl, by simp, fun _ => .inr ⟨_, rfl⟩⟩
  | call _ _ => exact ⟨_, _, rfl, by simp, fun _ => .inr ⟨_, rfl⟩⟩
  | parenthesized _ _ => exact ⟨_, _, rfl, by simp, fun _ => .inl rfl⟩

/-! ## Readers at the end of a phrase -/

namespace Subtree

/-- A tree with its height as the depth that is kept beside it. -/
def of (formula : Formula) : Subtree :=
  ⟨formula, formula.height⟩

theorem ofOperands_of {operator : Operator} {left right : Formula} (input : List Lexeme)
    (bounded : (operation operator [left, right]).height ≤ maximumNesting) :
    ofOperands input operator (of left) (of right) =
      .ok (of (operation operator [left, right])) := by
  apply checked_eq_ok_iff.mpr
  rw [height_binary] at bounded
  refine ⟨bounded, ?_⟩
  rw [of, height_binary]
  rfl

theorem negated_of {inner : Formula} (input : List Lexeme)
    (bounded : (operation .negate [inner]).height ≤ maximumNesting) :
    negated input (of inner) = .ok (of (operation .negate [inner])) := by
  apply checked_eq_ok_iff.mpr
  rw [height_negation] at bounded
  refine ⟨bounded, ?_⟩
  rw [of, height_negation]
  rfl

theorem ofCall_of {name : String} {argument : Formula} (input : List Lexeme)
    (bounded : (call name argument).height ≤ maximumNesting) :
    ofCall input name (of argument) = .ok (of (call name argument)) := by
  apply checked_eq_ok_iff.mpr
  rw [height] at bounded
  refine ⟨bounded, ?_⟩
  rw [of, height]
  rfl

end Subtree

namespace Reader

variable {unary operand : Reader} {rest : List Lexeme}

theorem extension_stops {operator? : Token → Option Operator} {phrase : Phrase}
    (ends : phrase.EndsAt rest) (stops : ∀ token ∈ phrase.follow, operator? token = none)
    (left : Subtree) : extension operator? operand left rest = .ok (left, rest) := by
  cases rest with
  | nil => exact extension_nil operator? operand left
  | cons lexeme following =>
      rw [extension_cons, stops lexeme.token (ends lexeme.token rfl)]

theorem attempt_parenthesized (other : front? rest ≠ some .opening) :
    ((parenthesized unary).outcome rest).attempt = .ok none := by
  rw [outcome_parenthesized_other unary other]
  rfl

/-- No factor starts where a primary phrase ends. -/
theorem attempt_factor (ends : Phrase.primary.EndsAt rest) :
    ((power unary (juxtaposed unary)).outcome rest).attempt = .ok none := by
  have unnamed : ∀ name, front? rest ≠ some (.name name) := by
    intro name
    exact ends.ne (by simp [Phrase.follow])
  rw [outcome_power, outcome_juxtaposed_other unary unnamed,
    attempt_parenthesized (ends.ne (by simp [Phrase.follow]))]
  rfl

theorem extension_joins {operator? : Token → Option Operator} {operator : Operator}
    {lexeme : Lexeme} {following : List Lexeme} {left right : Formula}
    (joins : operator? lexeme.token = some operator)
    (reads : operand.outcome following = .ok (.of right, rest))
    (bounded : (operation operator [left, right]).height ≤ maximumNesting) :
    extension operator? operand (.of left) (lexeme :: following) =
      extension operator? operand (.of (.operation operator [left, right])) rest := by
  rw [extension_cons, joins]
  simp only [reads, Except.mapError]
  change Subtree.ofOperands _ operator (.of left) (.of right) >>= _ = _
  rw [Subtree.ofOperands_of _ bounded]
  rfl

/-- A base that a caret and an exponent follow is raised to it. -/
theorem raised_caret {offset : Nat} {first : Char} {following : List Lexeme}
    {base exponent : Formula} (input : List Lexeme)
    (reads : unary.outcome following = .ok (.of exponent, rest))
    (bounded : (operation .power [base, exponent]).height ≤ maximumNesting) :
    raised unary input (.of base) (⟨.caret, offset, first⟩ :: following) =
      .ok (.of (.operation .power [base, exponent]), rest) := by
  rw [raised, reads]
  change Subtree.ofOperands _ .power (.of base) (.of exponent) >>= _ = _
  rw [Subtree.ofOperands_of _ bounded]
  rfl

end Reader

/-! ## Reading what is derived -/

/-- Reading a phrase and a rest recovers the tree of the phrase and leaves the rest.  A
chain is recovered as the left operand of what the rest extends it by. -/
def Recovers (levels : Nat) (phrase : Phrase) (consumed : List Lexeme)
    (formula : Formula) : Prop :=
  let unary := Reader.unary levels
  match phrase with
  | .sum => ∀ rest, Phrase.product.EndsAt rest →
      (Reader.sum unary).outcome (consumed ++ rest) =
        Reader.extension Reader.additive? (Reader.chain Reader.multiplicative? unary)
          (.of formula) rest
  | .product => ∀ rest, Phrase.unary.EndsAt rest →
      (Reader.chain Reader.multiplicative? unary).outcome (consumed ++ rest) =
        Reader.extension Reader.multiplicative? unary (.of formula) rest
  | .unary => ∀ rest, Phrase.unary.EndsAt rest →
      unary.outcome (consumed ++ rest) = .ok (.of formula, rest)
  | .power => ∀ rest, Phrase.power.EndsAt rest →
      (Reader.power unary (Reader.atom unary)).outcome (consumed ++ rest) =
        .ok (.of formula, rest)
  | .factor => ∀ rest, Phrase.factor.EndsAt rest →
      (Reader.power unary (Reader.juxtaposed unary)).outcome (consumed ++ rest) =
        .ok (.of formula, rest)
  | .primary => ∀ rest, Phrase.primary.EndsAt rest →
      (Reader.juxtaposed unary).outcome (consumed ++ rest) = .ok (.of formula, rest)

namespace Recovers

open Reader

variable {levels : Nat} {consumed : List Lexeme} {formula : Formula}

/-- A product is complete where no operator of products follows it. -/
theorem product_ends (recovers : Recovers levels .product consumed formula)
    {rest : List Lexeme} (ends : Phrase.product.EndsAt rest) :
    (chain multiplicative? (unary levels)).outcome (consumed ++ rest) =
      .ok (.of formula, rest) := by
  rw [recovers rest (ends.mono (by simp [Phrase.follow]))]
  exact extension_stops ends (by simp [Phrase.follow, multiplicative?]) _

/-- A sum is complete where no operator of sums follows it. -/
theorem sum_ends (recovers : Recovers levels .sum consumed formula)
    {rest : List Lexeme} (ends : Phrase.sum.EndsAt rest) :
    (sum (unary levels)).outcome (consumed ++ rest) = .ok (.of formula, rest) := by
  rw [recovers rest (ends.mono (by simp [Phrase.follow]))]
  exact extension_stops ends (by simp [Phrase.follow, additive?]) _

theorem parenthesized_of_sum (recovers : Recovers levels .sum consumed formula)
    (openingOffset closingOffset : Nat) (openingFirst closingFirst : Char)
    (rest : List Lexeme) :
    (parenthesized (unary levels)).outcome (⟨.opening, openingOffset, openingFirst⟩ ::
        (consumed ++ ⟨.closing, closingOffset, closingFirst⟩ :: rest)) =
      .ok (.of formula, rest) := by
  rw [outcome_parenthesized_opening, recovers.sum_ends (.cons (by simp [Phrase.follow]) rest)]
  rfl

/-- A sum with one more operand. -/
theorem sum_joins {front back : List Lexeme} {lexeme : Lexeme} {operator : Operator}
    {left right : Formula} (joins : additive? lexeme.token = some operator)
    (leftRecovers : Recovers levels .sum front left)
    (rightRecovers : Recovers levels .product back right)
    (bounded : (operation operator [left, right]).height ≤ maximumNesting) :
    Recovers levels .sum (front ++ lexeme :: back) (.operation operator [left, right]) := by
  have follows : lexeme.token ∈ Phrase.product.follow := by
    revert joins
    cases lexeme.token <;> simp [additive?, Phrase.follow]
  intro rest ends
  rw [List.append_assoc, List.cons_append, leftRecovers _ (.cons follows _)]
  exact extension_joins joins (rightRecovers.product_ends ends) bounded

/-- A product with one more operand. -/
theorem product_joins {front back : List Lexeme} {lexeme : Lexeme} {operator : Operator}
    {left right : Formula} (joins : multiplicative? lexeme.token = some operator)
    (leftRecovers : Recovers levels .product front left)
    (rightRecovers : Recovers levels .unary back right)
    (bounded : (operation operator [left, right]).height ≤ maximumNesting) :
    Recovers levels .product (front ++ lexeme :: back)
      (.operation operator [left, right]) := by
  have follows : lexeme.token ∈ Phrase.unary.follow := by
    revert joins
    cases lexeme.token <;> simp [multiplicative?, Phrase.follow]
  intro rest ends
  rw [List.append_assoc, List.cons_append, leftRecovers _ (.cons follows _)]
  exact extension_joins joins (rightRecovers rest ends) bounded

end Recovers

theorem exists_cons_of_tokens {consumed : List Lexeme} {token : Token} {right : List Token}
    (tokens : consumed.map Lexeme.token = token :: right) :
    ∃ offset first back, consumed = ⟨token, offset, first⟩ :: back ∧
      back.map Lexeme.token = right := by
  rcases List.map_eq_cons_iff.mp tokens with ⟨⟨_, offset, first⟩, back, rfl, rfl, rest⟩
  exact ⟨offset, first, back, rfl, rest⟩

theorem exists_append_of_tokens {consumed : List Lexeme} {token : Token}
    {left right : List Token} (tokens : consumed.map Lexeme.token = left ++ token :: right) :
    ∃ front offset first back, consumed = front ++ ⟨token, offset, first⟩ :: back ∧
      front.map Lexeme.token = left ∧ back.map Lexeme.token = right := by
  rcases List.map_eq_append_iff.mp tokens with ⟨front, back, rfl, left, right⟩
  rcases exists_cons_of_tokens right with ⟨offset, first, back, rfl, rest⟩
  exact ⟨front, offset, first, back, rfl, left, rest⟩

theorem exists_enclosed_of_tokens {consumed : List Lexeme} {tokens : List Token}
    (same : consumed.map Lexeme.token = .opening :: tokens ++ [.closing]) :
    ∃ openingOffset openingFirst inside closingOffset closingFirst,
      consumed = ⟨.opening, openingOffset, openingFirst⟩ ::
        (inside ++ [⟨.closing, closingOffset, closingFirst⟩]) ∧
      inside.map Lexeme.token = tokens := by
  rcases exists_cons_of_tokens same with ⟨openingOffset, openingFirst, others, rfl, rest⟩
  rcases exists_append_of_tokens rest with
    ⟨inside, closingOffset, closingFirst, back, rfl, insideSame, last⟩
  rcases List.map_eq_nil_iff.mp last with rfl
  exact ⟨openingOffset, openingFirst, inside, closingOffset, closingFirst, rfl, insideSame⟩

open Reader in
/-- Readers recover what the grammar derives. -/
theorem Derives.recovers {levels : Nat} {phrase : Phrase} {tokens : List Token}
    {formula : Formula} (derives : Derives levels phrase tokens formula)
    {consumed : List Lexeme} (whole : consumed.map Lexeme.token = tokens)
    (bounded : formula.height ≤ maximumNesting) :
    Recovers levels phrase consumed formula := by
  induction derives generalizing consumed with
  | product _ ih =>
      intro rest ends
      rw [Reader.sum, outcome_chain, (ih whole bounded).product_ends ends]
      rfl
  | add _ _ leftIH rightIH =>
      rcases exists_append_of_tokens whole with
        ⟨front, offset, first, back, rfl, leftSame, rightSame⟩
      rcases height_operands_le bounded with ⟨leftBounded, rightBounded⟩
      exact .sum_joins rfl (leftIH leftSame leftBounded) (rightIH rightSame rightBounded)
        bounded
  | subtract _ _ leftIH rightIH =>
      rcases exists_append_of_tokens whole with
        ⟨front, offset, first, back, rfl, leftSame, rightSame⟩
      rcases height_operands_le bounded with ⟨leftBounded, rightBounded⟩
      exact .sum_joins rfl (leftIH leftSame leftBounded) (rightIH rightSame rightBounded)
        bounded
  | unary _ ih =>
      intro rest ends
      rw [outcome_chain, ih whole bounded rest ends]
      rfl
  | multiply _ _ leftIH rightIH =>
      rcases exists_append_of_tokens whole with
        ⟨front, offset, first, back, rfl, leftSame, rightSame⟩
      rcases height_operands_le bounded with ⟨leftBounded, rightBounded⟩
      exact .product_joins rfl (leftIH leftSame leftBounded) (rightIH rightSame rightBounded)
        bounded
  | divide _ _ leftIH rightIH =>
      rcases exists_append_of_tokens whole with
        ⟨front, offset, first, back, rfl, leftSame, rightSame⟩
      rcases height_operands_le bounded with ⟨leftBounded, rightBounded⟩
      exact .product_joins rfl (leftIH leftSame leftBounded) (rightIH rightSame rightBounded)
        bounded
  | negate _ ih =>
      rcases exists_cons_of_tokens whole with ⟨offset, first, back, rfl, same⟩
      have innerBounded := bounded
      rw [height_negation] at innerBounded
      intro rest ends
      rw [List.cons_append, outcome_unary_minus,
        ih same (Nat.le_of_succ_le innerBounded) rest ends]
      change Subtree.negated _ (.of _) >>= _ = _
      rw [Subtree.negated_of _ bounded]
      rfl
  | plus _ ih =>
      rcases exists_cons_of_tokens whole with ⟨offset, first, back, rfl, same⟩
      intro rest ends
      rw [List.cons_append, outcome_unary_plus]
      exact ih same bounded rest ends
  | unsigned derives ih =>
      rcases derives.exists_first with ⟨first, others, rfl, unsigned, -⟩
      rcases unsigned rfl with ⟨notPlus, notMinus⟩
      have recovers := ih whole bounded
      rcases exists_cons_of_tokens whole with ⟨offset, character, back, rfl, -⟩
      intro rest ends
      rw [outcome_unary_other (by simpa using notMinus) (by simpa using notPlus)]
      exact recovers rest ends
  | number =>
      rcases exists_cons_of_tokens whole with ⟨offset, first, back, rfl, same⟩
      rcases List.map_eq_nil_iff.mp same with rfl
      intro rest ends
      rw [outcome_power, List.cons_append, List.nil_append, outcome_atom_number,
        attempt_factor (ends.mono (by simp [Phrase.follow]))]
      exact raised_of_ne _ (ends.ne (by simp [Phrase.follow]))
  | numberPower _ ih =>
      rcases exists_cons_of_tokens whole with ⟨offset, first, back, rfl, same⟩
      rcases exists_cons_of_tokens same with ⟨caretOffset, caretFirst, exponent, rfl, raised⟩
      rcases height_operands_le bounded with ⟨-, exponentBounded⟩
      intro rest ends
      rw [outcome_power, List.cons_append, List.cons_append, outcome_atom_number,
        attempt_factor (.cons (by simp [Phrase.follow]) _)]
      exact raised_caret _ (ih raised exponentBounded rest ends) bounded
  | scaled _ ih =>
      rcases exists_cons_of_tokens whole with ⟨offset, first, back, rfl, same⟩
      rcases height_operands_le bounded with ⟨-, factorBounded⟩
      intro rest ends
      rw [outcome_power, List.cons_append, outcome_atom_number,
        ih same factorBounded rest ends]
      change (Subtree.ofOperands _ .multiply (.of _) (.of _) >>= _) >>= _ = _
      rw [Subtree.ofOperands_of _ bounded]
      exact raised_of_ne _ (ends.ne (by simp [Phrase.follow]))
  | unscaled derives ih =>
      rcases derives.exists_first with ⟨first, others, rfl, -, starts⟩
      have recovers := ih whole bounded
      rcases exists_cons_of_tokens whole with ⟨offset, character, back, rfl, -⟩
      intro rest ends
      have uncounted : ∀ value, front? ((⟨first, offset, character⟩ :: back) ++ rest) ≠
          some (.number value) := by
        intro value
        rcases starts (.inl rfl) with rfl | ⟨name, rfl⟩ <;> simp
      rw [outcome_power, outcome_atom_other _ uncounted, ← outcome_power]
      exact recovers rest ends
  | primary _ ih =>
      intro rest ends
      rw [outcome_power, ih whole bounded rest (ends.mono (by simp [Phrase.follow]))]
      exact raised_of_ne _ (ends.ne (by simp [Phrase.follow]))
  | primaryPower _ _ baseIH exponentIH =>
      rcases exists_append_of_tokens whole with
        ⟨front, offset, first, back, rfl, baseSame, exponentSame⟩
      rcases height_operands_le bounded with ⟨baseBounded, exponentBounded⟩
      intro rest ends
      rw [outcome_power, List.append_assoc, List.cons_append,
        baseIH baseSame baseBounded _ (.cons (by simp [Phrase.follow]) _)]
      exact raised_caret _ (exponentIH exponentSame exponentBounded rest ends) bounded
  | symbol =>
      rcases exists_cons_of_tokens whole with ⟨offset, first, back, rfl, same⟩
      rcases List.map_eq_nil_iff.mp same with rfl
      intro rest ends
      rw [List.cons_append, List.nil_append, outcome_juxtaposed_name,
        attempt_parenthesized (ends.ne (by simp [Phrase.follow]))]
      rfl
  | call _ ih =>
      rcases exists_cons_of_tokens whole with ⟨offset, first, back, rfl, same⟩
      rcases exists_enclosed_of_tokens same with ⟨openingOffset, openingFirst, inside,
        closingOffset, closingFirst, rfl, argument⟩
      have argumentBounded := bounded
      rw [height] at argumentBounded
      intro rest ends
      rw [List.cons_append, outcome_juxtaposed_name, List.cons_append, List.append_assoc,
        List.cons_append, List.nil_append,
        (ih argument (Nat.le_of_succ_le argumentBounded)).parenthesized_of_sum]
      change Subtree.ofCall _ _ (.of _) >>= _ = _
      rw [Subtree.ofCall_of _ bounded]
      rfl
  | parenthesized _ ih =>
      rcases exists_enclosed_of_tokens whole with ⟨openingOffset, openingFirst, inside,
        closingOffset, closingFirst, rfl, same⟩
      intro rest ends
      rw [outcome_juxtaposed_other _ (by simp), List.cons_append, List.append_assoc,
        List.cons_append, List.nil_append, (ih same bounded).parenthesized_of_sum]
      rfl

/-! ## Texts -/

/-- No formula has a stray token. -/
theorem Derives.stray_not_mem {levels : Nat} {phrase : Phrase} {tokens : List Token}
    {formula : Formula} (derives : Derives levels phrase tokens formula) :
    .stray ∉ tokens := by
  induction derives with
  | product _ ih | unary _ ih | unsigned _ ih | unscaled _ ih | primary _ ih => exact ih
  | number | symbol => simp
  | add _ _ leftIH rightIH | subtract _ _ leftIH rightIH | multiply _ _ leftIH rightIH
  | divide _ _ leftIH rightIH | primaryPower _ _ leftIH rightIH =>
      simp [leftIH, rightIH]
  | negate _ ih | plus _ ih | numberPower _ ih | scaled _ ih | call _ ih
  | parenthesized _ ih =>
      simp [ih]

/-- The outermost reader finds exactly the trees that all of its input derives. -/
theorem top_eq_ok_iff {input : List Lexeme} {found : Subtree} :
    Reader.top.outcome input = .ok (found, []) ↔
      Derives (maximumNesting + 1) .sum (input.map Lexeme.token) found.formula ∧
        found = .of found.formula ∧ found.formula.height ≤ maximumNesting := by
  constructor
  · intro reads
    rcases Reader.sound_sum (Reader.sound_unary _) reads with
      ⟨measured, consumed, split, derives⟩
    rw [List.append_nil] at split
    rw [split]
    have same : found = .of found.formula := by
      rw [Subtree.of, ← measured.depth]
    exact ⟨derives, same, measured.depth ▸ measured.bounded⟩
  · rintro ⟨derives, same, bounded⟩
    have recovers := (derives.recovers rfl bounded).sum_ends (.nil .sum)
    rw [List.append_nil, ← same] at recovers
    exact recovers

/-- A text is read as a formula exactly when it splits into tokens that derive the
formula, with no unary phrase inside of more signs, exponents and parentheses than are
allowed, and the formula is not too deep. -/
theorem parse_eq_ok_iff {text : String} {formula : Formula} :
    parse text = .ok formula ↔
      ∃ tokens, Splits text.toList tokens ∧
        Derives (maximumNesting + 1) .sum tokens formula ∧
        formula.depth ≤ maximumNesting := by
  rw [parse_eq_ok_iff_outcome, depth_eq_height]
  constructor
  · rintro ⟨depth, reads⟩
    rcases top_eq_ok_iff.mp reads with ⟨derives, -, bounded⟩
    exact ⟨_, splits_iff.mpr ⟨rfl, derives.stray_not_mem⟩, derives, bounded⟩
  · rintro ⟨tokens, splits, derives, bounded⟩
    rcases splits_iff.mp splits with ⟨rfl, -⟩
    exact ⟨formula.height, top_eq_ok_iff.mpr ⟨derives, rfl, bounded⟩⟩

end Stereograph.Formula
