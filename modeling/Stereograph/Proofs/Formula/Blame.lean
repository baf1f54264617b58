import Mathlib.Data.List.DropRight
import Stereograph.Proofs.Formula.Positions
import Stereograph.Proofs.Formula.Stops
import Stereograph.Proofs.Formula.WellFormed

/-!
# The position that is blamed

A text that is no formula is blamed at one of its positions.  No beginning of the text that
reaches past this position can be continued to a formula, unless the character at the
position is an opening parenthesis, a caret or a point.  What is missing behind one of these
leaves out the construct that the character would have opened, and the text is blamed at the
character itself.  Whether a beginning can be continued there is decided by one candidate: if
any continuation is a formula, the one with a zero in the place of what is missing is one.
-/

namespace Stereograph.Formula

open Decimal
open Shader (excess Balanced)

/-! ## What a character can start -/

section Kinds

variable {first : Char} {rest : List Char}

/-- A token is a mark, a number or a name, according to its first character. -/
theorem start_cases (notStray : (Token.start first rest).1 ≠ .stray) :
    IsMark first (Token.start first rest).1 ∨
      (∃ value, (Token.start first rest).1 = .number value ∧
        (first.isDigit = true ∨ first = '.')) ∨
      ∃ name, (Token.start first rest).1 = .name name ∧ isNameStart first = true := by
  rcases startsWith_of_start notStray with ⟨others, tail, -, -, starts⟩
  generalize (Token.start first rest).1 = token at starts
  generalize whole : first :: rest = text at starts
  cases starts with
  | mark isMark =>
      cases whole
      exact .inl isMark
  | number spelled _ =>
      rcases exists_cons_of_spells spelled with ⟨first', others', rfl, starts⟩
      cases whole
      exact .inr (.inl ⟨_, rfl, starts⟩)
  | name isName _ =>
      rcases isName with ⟨first', others', spelled, start, -⟩
      rw [spelled] at whole
      cases whole
      exact .inr (.inr ⟨_, rfl, start⟩)

theorem exists_number_of_isDigit (digit : first.isDigit = true) (rest : List Char) :
    ∃ value, (Token.start first rest).1 = .number value := by
  have isDigits : IsDigits [first] := ⟨nofun, by simpa using digit⟩
  rcases Literal.exists_read?_append (.whole isDigits .absent) rest with ⟨literal, reads, -⟩
  rw [List.append_nil, List.singleton_append] at reads
  rw [start_of_unmarked (not_isMark_of_isDigit digit), reads]
  exact ⟨_, rfl⟩

theorem exists_name_of_isNameStart (start : isNameStart first = true) (rest : List Char) :
    ∃ name, (Token.start first rest).1 = .name name := by
  rw [start_of_unmarked (unmarked_of_isNameStart start).2, read?_of_isNameStart start]
  simp [start]

end Kinds

/-! ## What could have followed -/

/-- The characters at which a text is blamed although it could have gone on there, with the
tokens that they start in a longer text. -/
inductive Opens : Char → Token → Prop
  | parenthesis : Opens '(' .opening
  | exponent : Opens '^' .caret
  | fraction {value} : Opens '.' (.number value)

/-- Lexemes in front of a lexeme that is blamed.  In a formula that starts with them, the
character that is blamed starts a token that it does not start here, or one that opens more
than itself. -/
structure Blamed (front : List Lexeme) (lexeme : Lexeme) : Prop where
  total : excess (brackets (tokensOf front)) = 0
  absent : .stray ∉ tokensOf front
  steady : Steady front lexeme.first
  opens : ∀ {levels after rest formula}, Derives levels .sum
    (tokensOf front ++ (Token.start lexeme.first after).1 :: rest) formula →
      Opens lexeme.first (Token.start lexeme.first after).1

section Blamed

variable {levels : Nat} {front rest : List Lexeme} {lexeme : Lexeme} {after : List Char}

/-- A closing parenthesis has no partner behind closed parentheses. -/
theorem closing_not_derived {phrase : Phrase} {front rest : List Token} {formula : Formula}
    (total : excess (brackets front) = 0)
    (derives : Derives levels phrase (front ++ .closing :: rest) formula) : False := by
  have balanced := derives.balanced
  rw [List.append_cons, brackets_append] at balanced
  have nonneg := balanced.front_nonneg _ _ rfl
  rw [brackets_append, Shader.excess_append, total] at nonneg
  exact absurd nonneg (by decide)

/-- A text that goes on behind a complete sum is blamed where it goes on. -/
theorem blamed_of_complete {found : Subtree}
    (reads : (Reader.sum (Reader.unary levels)).outcome (front ++ lexeme :: rest) =
      .ok (found, lexeme :: rest))
    (starts : lexeme.token = (Token.start lexeme.first after).1) : Blamed front lexeme := by
  rcases Reader.sound_sum (Reader.sound_unary levels) reads with ⟨-, consumed, same, derives⟩
  rcases List.append_cancel_right same with rfl
  rcases Reader.completes_sum levels reads with ⟨⟨consumed, same, -, apart⟩, head⟩
  rcases List.append_cancel_right same with rfl
  have unjoined : lexeme.token.isOperator = false := head _ rfl
  have unnamed : isNameStart lexeme.first = true →
      ∀ value, (tokensOf front).getLast? ≠ some (.number value) := by
    intro isStart value counted
    rcases exists_name_of_isNameStart isStart after with ⟨name, named⟩
    exact apart value name counted (congrArg some (starts.trans named))
  have marked : ∀ {token}, IsMark lexeme.first token → token.isOperator = false := by
    intro token isMark
    rw [starts, start_of_mark isMark] at unjoined
    exact unjoined
  refine ⟨derives.balanced.total, derives.stray_not_mem, ⟨?_, ?_, ?_⟩, ?_⟩
  · intro same
    cases marked (same ▸ IsMark.plus)
  · intro same
    cases marked (same ▸ IsMark.minus)
  · intro isMark value counted
    rw [← List.getLast?_map] at counted
    refine unnamed ?_ value counted
    rcases isMark with same | same <;> rw [same] <;> rfl
  · intro levels after' rest' formula longer
    rcases derives.joined.ends with ⟨last, isLast, ends⟩
    have precedes := longer.joined.mayPrecede_of_getLast? isLast
    have notStray : (Token.start lexeme.first after').1 ≠ .stray := by
      intro stray
      rw [stray] at longer
      exact longer.stray_not_mem (by simp)
    -- What was left is no operator of sums or products, and no name behind a number.  Of
    -- what a formula may have behind an operand, only two marks remain.
    rcases start_cases notStray with isMark | ⟨value, counted, -⟩ | ⟨name, named, isStart⟩
    · generalize (Token.start lexeme.first after').1 = next at *
      generalize lexeme.first = first at *
      cases isMark with
      | plus => cases marked .plus
      | minus => cases marked .minus
      | times => cases marked .times
      | slash => cases marked .slash
      | caret => exact .exponent
      | opening => exact .parenthesis
      | closing => exact (closing_not_derived derives.balanced.total longer).elim
    · rw [counted] at precedes
      cases last <;> cases ends <;> cases precedes
    · rw [named] at precedes
      cases last with
      | number value => exact (unnamed isStart value isLast).elim
      | name | closing => cases precedes
      | _ => cases ends

/-- A text is blamed where an operand is missing. -/
theorem blamed_of_awaits (awaits : Awaits (front ++ lexeme :: rest) (lexeme :: rest))
    (starts : lexeme.token = (Token.start lexeme.first after).1) : Blamed front lexeme := by
  rcases awaits with ⟨⟨consumed, same, balanced, absent, unfinished⟩, head⟩
  rcases List.append_cancel_right same with rfl
  have unpassed : lexeme.token.isPassed = false := head _ rfl
  have marked : ∀ {token}, IsMark lexeme.first token → token.isPassed = false := by
    intro token isMark
    rw [starts, start_of_mark isMark] at unpassed
    exact unpassed
  refine ⟨balanced.total, absent, ⟨?_, ?_, ?_⟩, ?_⟩
  · intro same
    cases marked (same ▸ IsMark.plus)
  · intro same
    cases marked (same ▸ IsMark.minus)
  · intro _ value counted
    rw [← List.getLast?_map] at counted
    cases unfinished _ counted
  · intro levels after' rest' formula longer
    have begins : (Token.start lexeme.first after').1.beginsOperand = true := by
      cases isLast : (tokensOf front).getLast? with
      | none =>
          rw [List.getLast?_eq_none_iff.mp isLast] at longer
          rcases longer.joined.begins with ⟨first, others, same, begins⟩
          cases same
          exact begins
      | some last =>
          have precedes := longer.joined.mayPrecede_of_getLast? isLast
          have operator := unfinished last isLast
          cases last <;> cases operator <;> exact precedes
    have notStray : (Token.start lexeme.first after').1 ≠ .stray := by
      intro stray
      rw [stray] at begins
      cases begins
    -- Signs, names and digits would have been read here.  An operand that was not starts
    -- with a parenthesis, or with the point of a fraction.
    rcases start_cases notStray with isMark | ⟨value, counted, digit⟩ | ⟨name, -, isStart⟩
    · generalize (Token.start lexeme.first after').1 = next at *
      generalize lexeme.first = first at *
      cases isMark with
      | plus => cases marked .plus
      | minus => cases marked .minus
      | opening => exact .parenthesis
      | times | slash | caret | closing => cases begins
    · rw [counted]
      rcases digit with digit | point
      · rcases exists_number_of_isDigit digit after with ⟨value', counted'⟩
        rw [starts, counted'] at unpassed
        cases unpassed
      · rw [point]
        exact .fraction
    · rcases exists_name_of_isNameStart isStart after with ⟨name', named⟩
      rw [starts, named] at unpassed
      cases unpassed

end Blamed

/-! ## Texts -/

/-- How a text is continued at a character that opens more than it says. -/
def completion? : Char → Option String
  | '(' => some "(0)"
  | '^' => some "^0"
  | '.' => some ".0"
  | _ => none

theorem Opens.exists_completion {first : Char} {token : Token} (opens : Opens first token) :
    ∃ completion others tokens value, completion? first = some completion ∧
      completion.toList = first :: others ∧ Completes value token tokens ∧
      ∀ offset, tokensOf (lexemesFrom 0 offset (first :: others)) = tokens := by
  cases opens with
  | parenthesis => exact ⟨_, ['0', ')'], _, _, rfl, rfl, .opening, fun _ => rfl⟩
  | exponent => exact ⟨_, ['0'], _, _, rfl, rfl, .caret, fun _ => rfl⟩
  | fraction => exact ⟨_, ['0'], _, _, rfl, rfl, .number, fun _ => rfl⟩

section Texts

variable {text : String} {front rest : List Lexeme} {lexeme : Lexeme} {before after : List Char}

/-- Where a text is blamed that is not nested too deeply. -/
theorem exists_blamed {offset : Nat} {fault : ParseFault}
    (refused : parse text = .error (.malformed offset fault)) (shallow : fault ≠ .nesting) :
    offset = text.utf8ByteSize ∨ ∃ front lexeme before after,
      Stands 0 text.toList front lexeme before after ∧ Blamed front lexeme ∧
        offset = lexeme.offset := by
  rcases outcome_of_malformed refused with
    ⟨found, lexeme, rest, reads, rfl, -⟩ | ⟨rest, failed, rfl⟩ | ⟨rest, -, -, nested⟩
  · rcases (Reader.sound_sum (Reader.sound_unary _) reads).derives with ⟨front, split, -⟩
    rcases exists_stands split with ⟨before, after, stands⟩
    rw [split] at reads
    exact .inr ⟨front, lexeme, before, after, stands, blamed_of_complete reads stands.token_eq,
      rfl⟩
  · have awaits := (Reader.missesOperand_sum _ failed).2
    cases rest with
    | nil => exact .inl rfl
    | cons lexeme rest =>
        rcases awaits.consumed with ⟨front, split, -⟩
        rcases exists_stands split with ⟨before, after, stands⟩
        rw [split] at awaits
        exact .inr ⟨front, lexeme, before, after, stands,
          blamed_of_awaits awaits stands.token_eq, rfl⟩
  · exact (shallow nested).elim

/-- A formula that starts like a blamed text, and goes on with the character that is blamed,
can be cut there. -/
theorem exists_completed (stands : Stands 0 text.toList front lexeme before after)
    (blamed : Blamed front lexeme) {more : List Char} {formula : Formula}
    (reads : parse (String.ofList (before ++ lexeme.first :: more)) = .ok formula) :
    ∃ completion shorter, completion? lexeme.first = some completion ∧
      parse (String.ofList before ++ completion) = .ok shorter := by
  have continued := stands.steady blamed.absent blamed.steady
  rcases parse_eq_ok_iff_derives.mp reads with ⟨derives, bounded⟩
  rcases exists_start_append lexeme.first more with ⟨others, tail, rfl, size, -⟩
  rw [lexemes, String.toList_ofList, continued, lexemesFrom_start _ stands.isBlank size,
    List.map_append, List.map_cons] at derives
  rcases (blamed.opens derives).exists_completion with
    ⟨completion, behind, tokens, value, isCompletion, characters, completes, lexed⟩
  rcases derives.truncates rfl blamed.total completes with ⟨shorter, shorterDerives, lower⟩
  refine ⟨completion, shorter, isCompletion, parse_eq_ok_iff_derives.mpr ⟨?_, lower.trans bounded⟩⟩
  rw [lexemes, String.toList_append, String.toList_ofList, characters, continued,
    List.map_append]
  rw [← lexed lexeme.offset] at shorterDerives
  exact shorterDerives

end Texts

/-- The position at which a text is blamed, with what is wrong there. -/
def blame? (text : String) : Option (Nat × ParseFault) :=
  match parse text with
  | .error (.malformed offset fault) => some (offset, fault)
  | _ => none

theorem parse_eq_malformed_iff {text : String} {offset : Nat} {fault : ParseFault} :
    parse text = .error (.malformed offset fault) ↔ blame? text = some (offset, fault) := by
  unfold blame?
  constructor
  · intro refused
    rw [refused]
  · intro blamed
    split at blamed
    · rename_i refused
      cases blamed
      exact refused
    · cases blamed

/-! ## Progress -/

/-- The size of a text without the blanks at its end, in bytes. -/
def trimmedSize (text : String) : Nat :=
  (String.ofList (text.toList.rdropWhile isBlank)).utf8ByteSize

theorem trimmedSize_le (text : String) : trimmedSize text ≤ text.utf8ByteSize := by
  rcases List.rdropWhile_prefix isBlank text.toList with ⟨blanks, same⟩
  have split : text = String.ofList (text.toList.rdropWhile isBlank) ++ String.ofList blanks := by
    rw [← String.ofList_append, same, String.ofList_toList]
  conv => rhs; rw [split, String.utf8ByteSize_append]
  exact Nat.le_add_right _ _

theorem trimmedSize_append_toString (before : String) {first : Char}
    (notBlank : isBlank first = false) :
    trimmedSize (before ++ first.toString) = before.utf8ByteSize + first.utf8Size := by
  have kept : (before.toList ++ [first]).rdropWhile isBlank = before.toList ++ [first] :=
    List.rdropWhile_concat_neg _ _ _ (by simp [notBlank])
  have characters : (before ++ first.toString).toList = before.toList ++ [first] := by
    rw [String.toList_append, Char.toString_eq_singleton, String.toList_singleton]
  rw [trimmedSize, characters, kept, String.ofList_append, String.utf8ByteSize_append,
    String.ofList_toList, ← String.singleton_eq_ofList, String.utf8ByteSize_singleton]

theorem exists_of_completion {first : Char} {completion : String}
    (isCompletion : completion? first = some completion) :
    isBlank first = false ∧ ∃ behind, completion = first.toString ++ behind := by
  unfold completion? at isCompletion
  split at isCompletion
  · cases isCompletion
    exact ⟨rfl, "0)", rfl⟩
  · cases isCompletion
    exact ⟨rfl, "0", rfl⟩
  · cases isCompletion
    exact ⟨rfl, "0", rfl⟩
  · cases isCompletion

/-- A text that is not nested too deeply is blamed behind all of its beginnings that could
be continued to a formula, except where it is blamed at a parenthesis, a caret or a point
behind which it could have gone on. -/
theorem blamed_at_furthest_progress_iff {text : String} {offset : Nat} {fault : ParseFault}
    (refused : parse text = .error (.malformed offset fault)) (shallow : fault ≠ .nesting) :
    (∀ front back more formula, text = front ++ back → parse (front ++ more) = .ok formula →
      trimmedSize front ≤ offset) ↔
    ¬∃ before first after completion formula, text = before ++ Char.toString first ++ after ∧
      before.utf8ByteSize = offset ∧ completion? first = some completion ∧
      parse (before ++ completion) = .ok formula := by
  constructor
  · rintro furthest ⟨before, first, after, completion, formula, rfl, rfl, isCompletion, reads⟩
    rcases exists_of_completion isCompletion with ⟨notBlank, behind, rfl⟩
    rw [← String.append_assoc] at reads
    have bounded := furthest _ after behind formula rfl reads
    rw [trimmedSize_append_toString before notBlank] at bounded
    exact absurd bounded (Nat.not_le.mpr (Nat.lt_add_of_pos_right (Char.utf8Size_pos first)))
  · intro closed front back more formula split reads
    rcases exists_blamed refused shallow with
      rfl | ⟨blameless, lexeme, before, after, stands, blamed, rfl⟩
    · rw [split, String.utf8ByteSize_append]
      exact (trimmedSize_le front).trans (Nat.le_add_right _ _)
    · have characters := stands.text_eq
      have whole : text = String.ofList before ++ lexeme.first.toString ++ String.ofList after := by
        rw [← String.ofList_toList (s := text), characters, List.append_cons, String.ofList_append,
          String.ofList_append]
        rfl
      rw [split, String.toList_append] at characters
      rcases append_eq_append_cons characters with ⟨others, inside⟩ | ⟨others, outside, -⟩
      · have longer : front ++ more =
            String.ofList (before ++ lexeme.first :: (others ++ more.toList)) := by
          rw [← List.cons_append, ← List.append_assoc, ← inside, ← String.toList_append,
            String.ofList_toList]
        rw [longer] at reads
        rcases exists_completed stands blamed reads with
          ⟨completion, shorter, isCompletion, shorterReads⟩
        refine (closed ⟨_, _, _, completion, shorter, whole, ?_, isCompletion, shorterReads⟩).elim
        rw [stands.offset_eq, Nat.zero_add]
      · rw [stands.offset_eq, outside, String.ofList_append, String.utf8ByteSize_append,
          String.ofList_toList, Nat.zero_add]
        exact (trimmedSize_le front).trans (Nat.le_add_right _ _)

/-- A parenthesis that no other opens cannot be continued. -/
theorem blamed_at_furthest_progress_closing :
    (parse "z )" = .error (.malformed 2 (.unexpected ')')) ∧
      ParseFault.unexpected ')' ≠ .nesting) ∧
    ∀ front back more formula, "z )" = front ++ back → parse (front ++ more) = .ok formula →
      trimmedSize front ≤ 2 := by
  have refused : parse "z )" = .error (.malformed 2 (.unexpected ')')) :=
    parse_eq_malformed_iff.mpr (by decide +kernel)
  have shallow : ParseFault.unexpected ')' ≠ .nesting := by decide
  refine ⟨⟨refused, shallow⟩, (blamed_at_furthest_progress_iff refused shallow).mpr ?_⟩
  rintro ⟨before, first, after, completion, formula, split, size, isCompletion, -⟩
  have characters : ['z', ' ', ')'] = before.toList ++ first :: after.toList := by
    have same := congrArg String.toList split
    rw [String.toList_append, String.toList_append, Char.toString_eq_singleton,
      String.toList_singleton, ← List.append_cons] at same
    exact same
  rw [← String.ofList_toList (s := before)] at size
  generalize before.toList = front at characters size
  generalize after.toList = rest at characters
  rcases front with _ | ⟨letter, _ | ⟨blank, _ | ⟨third, front⟩⟩⟩
  · cases size
  · cases characters
    cases size
  · cases characters
    cases isCompletion
  · simp at characters

/-- A caret without an exponent is blamed itself, although an exponent could follow. -/
theorem unfinished_exponent_blamed_at_caret :
    ¬∀ text offset fault, parse text = .error (.malformed offset fault) → fault ≠ .nesting →
      ∀ front back more formula, text = front ++ back → parse (front ++ more) = .ok formula →
        trimmedSize front ≤ offset := by
  intro furthest
  have refused : parse "z^" = .error (.malformed 1 (.unexpected '^')) :=
    parse_eq_malformed_iff.mpr (by decide +kernel)
  have tokens : (lexemes ("z^" ++ "2")).map Lexeme.token = [.name "z", .caret, .number 2] := by
    decide +kernel
  have reads : parse ("z^" ++ "2") = .ok (.operation .power [.symbol "z", .constant 2]) := by
    apply parse_eq_ok_iff_derives.mpr
    rw [tokens]
    have base : Derives 128 .primary [.name "z"] (.symbol "z") := .symbol
    exact ⟨.product (.unary (.unsigned (.unscaled (.primaryPower base (.unsigned .number))))),
      by decide⟩
  have bounded := furthest _ _ _ refused (by decide) "z^" "" "2" _ rfl reads
  exact absurd bounded (by decide +kernel)

end Stereograph.Formula
