import Stereograph.Proofs.Formula.Positions
import Stereograph.Proofs.Formula.Printing
import Stereograph.Proofs.Shader.Brackets

/-!
# Formulas cut short

Which tokens of a formula stand next to each other, and what is left of a formula when the
rest of it is dropped behind a token outside of parentheses.  A formula that is cut at an
opening parenthesis, at a caret or at a number becomes one again with a number in the place
of what was dropped, and it has become no deeper.
-/

namespace Stereograph.Formula

open Shader (excess Balanced)

/-! ## Neighbours -/

/-- Tokens that an operand may start with. -/
def Token.beginsOperand : Token → Bool
  | .number _ | .name _ | .opening | .plus | .minus => true
  | _ => false

/-- Tokens that an operand may end with. -/
def Token.endsOperand : Token → Bool
  | .number _ | .name _ | .closing => true
  | _ => false

/-- Tokens that may come after an operand. -/
def Token.followsOperand : Token → Bool
  | .plus | .minus | .times | .over | .caret | .closing => true
  | _ => false

/-- Which tokens a token may have behind it.  Only a number and a name may have another
operand there. -/
def Token.mayPrecede : (left right : Token) → Bool
  | .number _, .name _ | .number _, .opening | .name _, .opening => true
  | left, right => if left.endsOperand then right.followsOperand else right.beginsOperand

/-- Tokens that start and end as an operand does, with neighbours that may be such. -/
structure Joined (tokens : List Token) : Prop where
  begins : ∃ first others, tokens = first :: others ∧ first.beginsOperand = true
  ends : ∃ last, tokens.getLast? = some last ∧ last.endsOperand = true
  neighbours : tokens.IsChain (·.mayPrecede ·)

namespace Joined

variable {left right tokens : List Token} {token : Token}

theorem mayPrecede_of_ends (ends : token.endsOperand = true) {next : Token}
    (follows : next.followsOperand = true) : token.mayPrecede next = true := by
  cases token <;> cases ends <;> cases next <;> cases follows <;> rfl

theorem mayPrecede_of_begins (open_ : token.endsOperand = false) {next : Token}
    (begins : next.beginsOperand = true) : token.mayPrecede next = true := by
  cases token <;> cases open_ <;> exact begins

theorem single (begins : token.beginsOperand = true) (ends : token.endsOperand = true) :
    Joined [token] :=
  ⟨⟨token, [], rfl, begins⟩, ⟨token, rfl, ends⟩, .singleton token⟩

/-- A token in front of an operand. -/
theorem cons {first : Token} {others : List Token} (joined : Joined (first :: others))
    (begins : token.beginsOperand = true) (precedes : token.mayPrecede first = true) :
    Joined (token :: first :: others) := by
  rcases joined with ⟨-, ⟨last, isLast, ends⟩, neighbours⟩
  refine ⟨⟨token, _, rfl, begins⟩, ⟨last, ?_, ends⟩, .cons_cons precedes neighbours⟩
  rw [List.getLast?_cons_cons, isLast]

/-- A sign in front of an operand. -/
theorem signed (joined : Joined tokens) (begins : token.beginsOperand = true)
    (unfinished : token.endsOperand = false) : Joined (token :: tokens) := by
  rcases joined.begins with ⟨first, others, rfl, firstBegins⟩
  exact joined.cons begins (mayPrecede_of_begins unfinished firstBegins)

/-- An operator between two operands. -/
theorem between (leftJoined : Joined left) (rightJoined : Joined right)
    (follows : token.followsOperand = true) (unfinished : token.endsOperand = false) :
    Joined (left ++ token :: right) := by
  rcases leftJoined with ⟨⟨first, others, rfl, firstBegins⟩, ⟨last, isLast, ends⟩, chain⟩
  rcases rightJoined with ⟨⟨second, more, rfl, secondBegins⟩, ⟨final, isFinal, ends'⟩, chain'⟩
  refine ⟨⟨first, _, rfl, firstBegins⟩, ⟨final, ?_, ends'⟩, ?_⟩
  · rw [List.getLast?_append, List.getLast?_cons_cons, isFinal]
    rfl
  · rw [List.isChain_append]
    refine ⟨chain, .cons_cons (mayPrecede_of_begins unfinished secondBegins) chain', ?_⟩
    intro before isBefore next isNext
    rw [isLast] at isBefore
    cases isBefore
    cases isNext
    exact mayPrecede_of_ends ends follows

/-- An operand in parentheses. -/
theorem enclosed (joined : Joined tokens) : Joined (.opening :: tokens ++ [.closing]) := by
  rcases joined with ⟨⟨first, others, rfl, firstBegins⟩, ⟨last, isLast, ends⟩, chain⟩
  refine ⟨⟨.opening, _, rfl, rfl⟩, ⟨.closing, List.getLast?_concat .., rfl⟩, ?_⟩
  rw [List.isChain_append]
  refine ⟨.cons_cons (mayPrecede_of_begins rfl firstBegins) chain, .singleton _, ?_⟩
  intro before isBefore next isNext
  rw [List.getLast?_cons_cons, isLast] at isBefore
  cases isBefore
  cases isNext
  exact mayPrecede_of_ends ends rfl

/-- The neighbours at a place inside. -/
theorem mayPrecede_of_getLast? {next : Token} (joined : Joined (left ++ next :: right))
    (isLast : left.getLast? = some token) : token.mayPrecede next = true :=
  (List.isChain_append.mp joined.neighbours).2.2 token isLast next rfl

end Joined

/-- What the grammar derives is joined. -/
theorem Derives.joined {levels : Nat} {phrase : Phrase} {tokens : List Token}
    {formula : Formula} (derives : Derives levels phrase tokens formula) : Joined tokens := by
  induction derives with
  | product _ ih | unary _ ih | unsigned _ ih | unscaled _ ih | primary _ ih => exact ih
  | number | symbol => exact .single rfl rfl
  | add _ _ leftIH rightIH | subtract _ _ leftIH rightIH | multiply _ _ leftIH rightIH
  | divide _ _ leftIH rightIH | primaryPower _ _ leftIH rightIH =>
      exact leftIH.between rightIH rfl rfl
  | negate _ ih | plus _ ih => exact ih.signed rfl rfl
  | @numberPower _ value _ _ _ ih =>
      have base : Joined [.number value] := .single rfl rfl
      exact base.between ih rfl rfl
  | scaled derives ih =>
      rcases derives.exists_first with ⟨first, others, rfl, -, starts⟩
      rcases starts (.inl rfl) with rfl | ⟨name, rfl⟩
      · exact ih.cons rfl rfl
      · exact ih.cons rfl rfl
  | call _ ih => exact ih.enclosed.cons rfl rfl
  | parenthesized _ ih => exact ih.enclosed

/-! ## Parentheses -/

/-- A token as a character of a text in which only parentheses matter. -/
def Token.bracket : Token → Char
  | .opening => '('
  | .closing => ')'
  | _ => ' '

/-- The parentheses of a list of tokens. -/
def brackets (tokens : List Token) : List Char :=
  tokens.map Token.bracket

@[simp] theorem brackets_append (left right : List Token) :
    brackets (left ++ right) = brackets left ++ brackets right :=
  List.map_append

@[simp] theorem brackets_cons (token : Token) (tokens : List Token) :
    brackets (token :: tokens) = token.bracket :: brackets tokens :=
  rfl

theorem balanced_cons {token : Token} {tokens : List Token} (plain : token.bracket = ' ')
    (balanced : Balanced (brackets tokens)) : Balanced (brackets (token :: tokens)) := by
  rw [brackets_cons, plain]
  exact balanced.cons (by decide) (by decide)

theorem balanced_enclosed {tokens : List Token} (balanced : Balanced (brackets tokens)) :
    Balanced (brackets (.opening :: tokens ++ [.closing])) := by
  rw [brackets_append]
  exact balanced.enclosed

theorem excess_brackets_cons {token : Token} (plain : token.bracket = ' ')
    (tokens : List Token) : excess (brackets (token :: tokens)) = excess (brackets tokens) := by
  rw [brackets_cons, plain]
  exact Shader.excess_cons_of_ne (by decide) (by decide) _

/-- Every parenthesis of a formula has a partner in it. -/
theorem Derives.balanced {levels : Nat} {phrase : Phrase} {tokens : List Token}
    {formula : Formula} (derives : Derives levels phrase tokens formula) :
    Balanced (brackets tokens) := by
  induction derives with
  | product _ ih | unary _ ih | unsigned _ ih | unscaled _ ih | primary _ ih => exact ih
  | number | symbol => exact balanced_cons rfl .nil
  | add _ _ leftIH rightIH | subtract _ _ leftIH rightIH | multiply _ _ leftIH rightIH
  | divide _ _ leftIH rightIH | primaryPower _ _ leftIH rightIH =>
      rw [brackets_append]
      exact leftIH.append (balanced_cons rfl rightIH)
  | negate _ ih | plus _ ih | scaled _ ih => exact balanced_cons rfl ih
  | numberPower _ ih => exact balanced_cons rfl (balanced_cons rfl ih)
  | call _ ih => exact balanced_cons rfl (balanced_enclosed ih)
  | parenthesized _ ih => exact balanced_enclosed ih

/-- The only place outside of two parentheses that are partners is the opening one. -/
theorem opening_of_outside {inside front rest : List Token} {token : Token}
    (balanced : Balanced (brackets inside))
    (cut : .opening :: inside ++ [.closing] = front ++ token :: rest)
    (outside : excess (brackets front) = 0) : front = [] ∧ token = .opening := by
  rcases List.cons_eq_append_iff.mp cut with ⟨rfl, same⟩ | ⟨front, rfl, same⟩
  · cases same
    exact ⟨rfl, rfl⟩
  · have front_nonneg : 0 ≤ excess (brackets front) := by
      rcases append_eq_append_cons same with ⟨others, rfl⟩ | ⟨others, rfl, last⟩
      · rw [brackets_append] at balanced
        exact balanced.front_nonneg _ _ rfl
      · rcases List.cons_eq_append_iff.mp last with ⟨rfl, -⟩ | ⟨more, rfl, none⟩
        · rw [List.append_nil, balanced.total]
        · simp at none
    rw [brackets_cons, Token.bracket, Shader.excess_opening] at outside
    exact absurd outside (Int.ne_of_gt (Int.lt_add_one_of_le front_nonneg))

/-! ## Cuts -/

/-- The tokens that complete a formula at the token behind which it was cut. -/
inductive Completes (value : Float) : Token → List Token → Prop
  | number {dropped} : Completes value (.number dropped) [.number value]
  | caret : Completes value .caret [.caret, .number value]
  | opening : Completes value .opening [.opening, .number value, .closing]

/-- Where a phrase that is cut outside of parentheses is completed, it is no deeper. -/
def Truncates (levels : Nat) (phrase : Phrase) (tokens : List Token) (formula : Formula) : Prop :=
  ∀ ⦃front token rest value completion⦄, tokens = front ++ token :: rest →
    excess (brackets front) = 0 → Completes value token completion →
    ∃ shorter, Derives levels phrase (front ++ completion) shorter ∧
      shorter.height ≤ formula.height

/-- A place between two operands is in one of them or at the operator. -/
theorem cut_between {α : Type} {left right front rest : List α} {middle next : α}
    (same : left ++ middle :: right = front ++ next :: rest) :
    (∃ others, left = front ++ next :: others) ∨
      (front = left ∧ next = middle) ∨
        ∃ others, front = left ++ middle :: others ∧ right = others ++ next :: rest := by
  rcases append_eq_append_cons same with cut | ⟨others, rfl, tail⟩
  · exact .inl cut
  · cases others with
    | nil =>
        cases tail
        exact .inr (.inl ⟨List.append_nil left, rfl⟩)
    | cons first others =>
        cases tail
        exact .inr (.inr ⟨others, rfl, rfl⟩)

/-- A level of nesting is used up by every unary phrase. -/
theorem Derives.exists_levels {levels : Nat} {phrase : Phrase} {tokens : List Token}
    {formula : Formula} (derives : Derives levels phrase tokens formula)
    (own : phrase.ownLevels = 1) : ∃ inner, levels = inner + 1 := by
  rcases derives.exists_leads with ⟨count, -, bounded⟩
  rw [own] at bounded
  exact ⟨levels - 1, by omega⟩

theorem derives_number (levels : Nat) (value : Float) :
    Derives (levels + 1) .unary [.number value] (.constant value) :=
  .unsigned .number

namespace Truncates

variable {levels : Nat} {loose tight : Phrase} {tokens leftTokens rightTokens : List Token}
  {formula left right : Formula}

/-- A phrase that is also another phrase is completed as that one. -/
theorem as {more : Nat} (truncates : Truncates levels tight tokens formula)
    (embeds : ∀ {tokens formula}, Derives levels tight tokens formula →
      Derives more loose tokens formula) :
    Truncates more loose tokens formula := by
  intro front token rest value completion cut outside completes
  rcases truncates cut outside completes with ⟨shorter, derives, bounded⟩
  exact ⟨shorter, embeds derives, bounded⟩

theorem number (base : Float) : Truncates levels .power [.number base] (.constant base) := by
  intro front token rest value completion cut outside completes
  rcases List.cons_eq_append_iff.mp cut with ⟨rfl, same⟩ | ⟨others, rfl, none⟩
  · cases same
    cases completes
    exact ⟨_, .number, Nat.le_refl _⟩
  · simp at none

/-- A phrase behind a token, if what is dropped at the token can be completed. -/
theorem behind {more : Nat} {head : Token} {around : Formula → Formula}
    (plain : head.bracket = ' ')
    (embeds : ∀ {tokens formula}, Derives levels tight tokens formula →
      Derives more loose (head :: tokens) (around formula))
    (mono : ∀ {shorter : Formula}, shorter.height ≤ formula.height →
      (around shorter).height ≤ (around formula).height)
    (atHead : ∀ {value completion}, Completes value head completion →
      ∃ shorter, Derives more loose completion shorter ∧
        shorter.height ≤ (around formula).height)
    (truncates : Truncates levels tight tokens formula) :
    Truncates more loose (head :: tokens) (around formula) := by
  intro front token rest value completion cut outside completes
  rcases List.cons_eq_append_iff.mp cut with ⟨rfl, same⟩ | ⟨others, rfl, same⟩
  · cases same
    exact atHead completes
  · rw [excess_brackets_cons plain] at outside
    rcases truncates same outside completes with ⟨shorter, derives, bounded⟩
    exact ⟨around shorter, embeds derives, mono bounded⟩

/-- Two operands that an operator joins.  What is dropped at the operator and in the left
operand has to be completed in a way of its own. -/
theorem joined {token : Token} {operator : Operator} (plain : token.bracket = ' ')
    (joins : ∀ {tokens formula}, Derives levels tight tokens formula →
      Derives levels loose (leftTokens ++ token :: tokens) (.operation operator [left, formula]))
    (balanced : Balanced (brackets leftTokens))
    (leftTruncates : Truncates levels loose leftTokens left)
    (atOperator : ∀ {value completion}, Completes value token completion →
      ∃ shorter, Derives levels tight [.number value] shorter ∧ shorter.height = 1 ∧
        completion = [token, .number value])
    (rightTruncates : Truncates levels tight rightTokens right) :
    Truncates levels loose (leftTokens ++ token :: rightTokens)
      (.operation operator [left, right]) := by
  intro front next rest value completion cut outside completes
  rw [height_binary]
  rcases cut_between cut with ⟨others, same⟩ | ⟨rfl, rfl⟩ | ⟨others, rfl, same⟩
  · rcases leftTruncates same outside completes with ⟨shorter, derives, bounded⟩
    exact ⟨shorter, derives, bounded.trans (Nat.le_succ_of_le (Nat.le_max_left ..))⟩
  · rcases atOperator completes with ⟨shorter, derives, height, rfl⟩
    refine ⟨.operation operator [left, shorter], joins derives, ?_⟩
    rw [height_binary, height]
    exact Nat.succ_le_succ (max_le_max le_rfl right.height_pos)
  · rw [brackets_append, Shader.excess_append, balanced.total, Int.zero_add,
      excess_brackets_cons plain] at outside
    rcases rightTruncates same outside completes with ⟨shorter, derives, bounded⟩
    refine ⟨.operation operator [left, shorter], ?_, ?_⟩
    · rw [List.append_assoc]
      exact joins derives
    · rw [height_binary]
      exact Nat.succ_le_succ (max_le_max le_rfl bounded)

end Truncates

/-- Every phrase that is cut outside of parentheses can be completed. -/
theorem Derives.truncates {levels : Nat} {phrase : Phrase} {tokens : List Token}
    {formula : Formula} (derives : Derives levels phrase tokens formula) :
    Truncates levels phrase tokens formula := by
  -- Inside of parentheses nothing is cut, so the cases of calls and parentheses need no
  -- induction hypothesis.
  induction derives with
  | product _ ih => exact ih.as .product
  | unary _ ih => exact ih.as .unary
  | unsigned _ ih => exact ih.as .unsigned
  | unscaled _ ih => exact ih.as .unscaled
  | primary _ ih => exact ih.as .primary
  | add left _ leftIH rightIH => exact .joined rfl (.add left) left.balanced leftIH nofun rightIH
  | subtract left _ leftIH rightIH =>
      exact .joined rfl (.subtract left) left.balanced leftIH nofun rightIH
  | multiply left _ leftIH rightIH =>
      exact .joined rfl (.multiply left) left.balanced leftIH nofun rightIH
  | divide left _ leftIH rightIH =>
      exact .joined rfl (.divide left) left.balanced leftIH nofun rightIH
  | primaryPower base exponent baseIH exponentIH =>
      refine .joined rfl (.primaryPower base) base.balanced (baseIH.as .primary) ?_ exponentIH
      intro value completion completes
      rcases exponent.exists_levels rfl with ⟨inner, rfl⟩
      cases completes
      exact ⟨_, derives_number inner value, rfl, rfl⟩
  | @numberPower _ base tokens _ exponent ih =>
      change Truncates _ .power ([.number base] ++ .caret :: tokens) _
      refine .joined rfl .numberPower (balanced_cons rfl .nil) (.number base) ?_ ih
      intro value completion completes
      rcases exponent.exists_levels rfl with ⟨inner, rfl⟩
      cases completes
      exact ⟨_, derives_number inner value, rfl, rfl⟩
  | number => exact .number _
  | symbol =>
      intro front token rest value completion cut outside completes
      rcases List.cons_eq_append_iff.mp cut with ⟨rfl, same⟩ | ⟨others, rfl, none⟩
      · cases same
        cases completes
      · simp at none
  | negate _ ih =>
      apply ih.behind rfl .negate _ nofun
      intro shorter bounded
      rw [height_negation, height_negation]
      exact Nat.succ_le_succ bounded
  | plus _ ih => exact ih.behind rfl .plus id nofun
  | scaled _ ih =>
      refine ih.behind rfl .scaled ?_ ?_
      · intro shorter bounded
        rw [height_binary, height_binary]
        exact Nat.succ_le_succ (max_le_max le_rfl bounded)
      · intro value completion completes
        cases completes
        exact ⟨_, .number, height_pos _⟩
  | call argument _ =>
      intro front token rest value completion cut outside completes
      rcases List.cons_eq_append_iff.mp cut with ⟨rfl, same⟩ | ⟨others, rfl, same⟩
      · cases same
        cases completes
      · rw [excess_brackets_cons rfl] at outside
        rcases opening_of_outside argument.balanced same outside with ⟨rfl, rfl⟩
        rcases argument.exists_levels rfl with ⟨inner, rfl⟩
        cases completes
        refine ⟨_, .call (.product (.unary (derives_number inner value))), ?_⟩
        rw [height, height]
        exact Nat.succ_le_succ (height_pos _)
  | parenthesized inside _ =>
      intro front token rest value completion cut outside completes
      rcases opening_of_outside inside.balanced cut outside with ⟨rfl, rfl⟩
      rcases inside.exists_levels rfl with ⟨inner, rfl⟩
      cases completes
      exact ⟨_, .parenthesized (.product (.unary (derives_number inner value))), height_pos _⟩

end Stereograph.Formula
