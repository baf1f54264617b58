import Stereograph.Formula.Token
import Stereograph.Proofs.Decimal.Spelling

/-!
# Splitting of texts into tokens

How a text may be divided into blanks and tokens, as a relation that knows nothing of how
tokens are read.  Literals and names are the longest at their place, so a text has one
division at most, and the lexemes of a text are the tokens of that division.  A text
without a division has a stray lexeme.
-/

namespace Stereograph.Formula

open Decimal

/-- The characters that are tokens by themselves. -/
inductive IsMark : Char → Token → Prop
  | plus : IsMark '+' .plus
  | minus : IsMark '-' .minus
  | times : IsMark '*' .times
  | slash : IsMark '/' .over
  | caret : IsMark '^' .caret
  | opening : IsMark '(' .opening
  | closing : IsMark ')' .closing

/-- The token that starts a text, and the text after it.  Literals and names are the
longest that the text starts with. -/
inductive StartsWith : List Char → Token → List Char → Prop
  | mark {character token rest} (isMark : IsMark character token) :
      StartsWith (character :: rest) token rest
  | number {spelling numeral rest} (spelled : Spells spelling numeral)
      (longest : ∀ longer other, Spells longer other → longer <+: spelling ++ rest →
        longer.length ≤ spelling.length) :
      StartsWith (spelling ++ rest) (.number numeral.toFloat) rest
  | name {name rest} (isName : IsName name)
      (longest : ∀ character ∈ rest.head?, isNamePart character = false) :
      StartsWith (name.toList ++ rest) (.name name) rest

/-- The token lists of texts.  Blanks may stand in front of every token and after the
last one. -/
inductive Splits : List Char → List Token → Prop
  | finished : Splits [] []
  | blank {character rest tokens} (isBlank : isBlank character = true)
      (splits : Splits rest tokens) :
      Splits (character :: rest) tokens
  | token {text token rest tokens} (starts : StartsWith text token rest)
      (splits : Splits rest tokens) :
      Splits text (token :: tokens)

/-! ## Characters of names -/

theorem isNamePart_of_mem {name : String} (isName : IsName name) {character : Char}
    (member : character ∈ name.toList) : isNamePart character = true := by
  obtain ⟨first, rest, text, start, part⟩ := isName
  rw [text, List.mem_cons] at member
  obtain rfl | member := member
  · simp only [isNameStart, isNamePart, Char.isAlphanum, Bool.or_eq_true] at start ⊢
    exact start.imp_right .inl
  · exact List.all_eq_true.mp part character member

theorem not_mem_name {name : String} (isName : IsName name) {character : Char}
    (other : isNamePart character = false) : character ∉ name.toList := by
  intro member
  rw [isNamePart_of_mem isName member] at other
  cases other

theorem name_ne_nil {name : String} (isName : IsName name) : name.toList ≠ [] := by
  obtain ⟨first, rest, text, -⟩ := isName
  simp [text]

theorem isDigit_of_isNameStart {character : Char} (start : isNameStart character = true) :
    character.isDigit = false := by
  by_contra digit
  delta isNameStart Char.isAlpha Char.isUpper Char.isLower at start
  simp only [Char.isDigit, Bool.or_eq_true, beq_iff_eq, Bool.and_eq_true, decide_eq_true_eq,
    Bool.not_eq_false, UInt32.le_iff_toNat_le] at start digit
  obtain rfl | upper | lower := start
  · simp at digit
  · have := upper.1.trans digit.2
    simp at this
  · have := lower.1.trans digit.2
    simp at this

/-! ## First characters of tokens -/

theorem IsMark.not_isBlank {character : Char} {token : Token}
    (isMark : IsMark character token) : isBlank character = false := by
  cases isMark <;> rfl

theorem IsMark.ne_stray {character : Char} {token : Token}
    (isMark : IsMark character token) : token ≠ .stray := by
  intro stray
  cases isMark <;> cases stray

theorem not_isBlank_of_isDigit {character : Char} (digit : character.isDigit = true) :
    isBlank character = false := by
  cases blank : isBlank character with
  | false => rfl
  | true =>
      simp only [isBlank, Bool.or_eq_true, beq_iff_eq] at blank
      rcases blank with ((rfl | rfl) | rfl) | rfl <;> cases digit

theorem not_isMark_of_isDigit {character : Char} (digit : character.isDigit = true)
    (token : Token) : ¬IsMark character token := by
  intro isMark
  cases isMark <;> cases digit

/-- A literal starts with a digit or with a point. -/
theorem exists_cons_of_spells {spelling : List Char} {numeral : Numeral}
    (spelled : Spells spelling numeral) :
    ∃ first others, spelling = first :: others ∧
      (first.isDigit = true ∨ first = '.') := by
  cases spelled with
  | @whole digits exponentText exponent isDigits tail =>
      cases digits with
      | nil => exact (isDigits.ne_nil rfl).elim
      | cons first others =>
          exact ⟨first, others ++ exponentText, rfl,
            .inl (isDigits.isDigit first (List.mem_cons_self ..))⟩
  | @pointed whole fraction exponentText exponent isDigits tail =>
      cases whole with
      | nil => exact ⟨'.', fraction ++ exponentText, rfl, .inr rfl⟩
      | cons first others =>
          exact ⟨first, others ++ '.' :: (fraction ++ exponentText), rfl,
            .inl (isDigits.isDigit first (List.mem_cons_self ..))⟩

/-! ## The token at a character -/

theorem start_of_mark {character : Char} {token : Token} (isMark : IsMark character token)
    (rest : List Char) : Token.start character rest = (token, 0) := by
  cases isMark <;> rfl

theorem start_of_unmarked {character : Char} (unmarked : ∀ token, ¬IsMark character token)
    (rest : List Char) :
    Token.start character rest =
      match Literal.read? (character :: rest) with
      | some literal => (.number literal.numeral.toFloat, literal.length - 1)
      | none =>
          if isNameStart character then
            (.name (String.ofList (character :: rest.takeWhile isNamePart)),
              (rest.takeWhile isNamePart).length)
          else
            (.stray, 0) := by
  unfold Token.start
  split
  · exact (unmarked _ .plus).elim
  · exact (unmarked _ .minus).elim
  · exact (unmarked _ .times).elim
  · exact (unmarked _ .slash).elim
  · exact (unmarked _ .caret).elim
  · exact (unmarked _ .opening).elim
  · exact (unmarked _ .closing).elim
  · rfl

/-- A literal starts with neither a mark nor a letter. -/
theorem unmarked_of_spells {first : Char} {others : List Char} {numeral : Numeral}
    (spelled : Spells (first :: others) numeral) :
    isBlank first = false ∧ (∀ token, ¬IsMark first token) ∧
      isNameStart first = false := by
  rcases exists_cons_of_spells spelled with ⟨first', others', same, digit⟩
  cases same
  rcases digit with digit | rfl
  · refine ⟨not_isBlank_of_isDigit digit, not_isMark_of_isDigit digit, ?_⟩
    by_contra start
    rw [Bool.not_eq_false] at start
    rw [isDigit_of_isNameStart start] at digit
    cases digit
  · refine ⟨rfl, ?_, rfl⟩
    intro token isMark
    cases isMark

/-- A name starts with neither a mark nor a blank. -/
theorem unmarked_of_isNameStart {character : Char} (start : isNameStart character = true) :
    isBlank character = false ∧ ∀ token, ¬IsMark character token := by
  constructor
  · cases blank : isBlank character with
    | false => rfl
    | true =>
        simp only [isBlank, Bool.or_eq_true, beq_iff_eq] at blank
        rcases blank with ((rfl | rfl) | rfl) | rfl <;> cases start
  · intro token isMark
    cases isMark <;> cases start

/-- No literal is read where a name starts. -/
theorem read?_of_isNameStart {character : Char} (start : isNameStart character = true)
    (rest : List Char) : Literal.read? (character :: rest) = none := by
  rw [Literal.read?_eq_none_iff]
  intro spelling numeral spelled front
  rcases exists_cons_of_spells spelled with ⟨first, others, rfl, -⟩
  rcases front with ⟨tail, same⟩
  cases same
  rw [(unmarked_of_spells spelled).2.2] at start
  cases start

/-- The token that starts a text is the one that is read there. -/
theorem start_of_startsWith {character : Char} {rest tail : List Char} {token : Token}
    (starts : StartsWith (character :: rest) token tail) :
    isBlank character = false ∧ token ≠ .stray ∧
      ∃ others, rest = others ++ tail ∧
        Token.start character rest = (token, others.length) := by
  generalize whole : character :: rest = text at starts
  cases starts with
  | mark isMark =>
      cases whole
      exact ⟨isMark.not_isBlank, isMark.ne_stray, [], rfl, start_of_mark isMark _⟩
  | @number spelling numeral tail spelled longest =>
      rcases exists_cons_of_spells spelled with ⟨first, others, rfl, -⟩
      rw [List.cons_append, List.cons.injEq] at whole
      rcases whole with ⟨rfl, rfl⟩
      rcases unmarked_of_spells spelled with ⟨notBlank, unmarked, -⟩
      have reads : Literal.read? (character :: (others ++ tail)) =
          some ⟨numeral, others.length + 1⟩ :=
        Literal.read?_eq_some_iff.mpr ⟨_, tail, rfl, spelled, rfl, longest⟩
      refine ⟨notBlank, nofun, others, rfl, ?_⟩
      rw [start_of_unmarked unmarked, reads]
      rfl
  | @name name tail isName longest =>
      rcases isName with ⟨first, others, text, start, parts⟩
      rw [text, List.cons_append, List.cons.injEq] at whole
      rcases whole with ⟨rfl, rfl⟩
      rcases unmarked_of_isNameStart start with ⟨notBlank, unmarked⟩
      have taken : (others ++ tail).takeWhile isNamePart = others := by
        rw [List.takeWhile_append_of_pos (List.all_eq_true.mp parts)]
        cases tail with
        | nil => simp
        | cons next _ => simp [longest next rfl]
      refine ⟨notBlank, nofun, others, rfl, ?_⟩
      rw [start_of_unmarked unmarked, read?_of_isNameStart start, taken, ← text,
        String.ofList_toList]
      simp [start]

/-- What is read at a character starts the text, unless it is stray. -/
theorem startsWith_of_start {character : Char} {rest : List Char}
    (notStray : (Token.start character rest).1 ≠ .stray) :
    ∃ others tail, rest = others ++ tail ∧
      (Token.start character rest).2 = others.length ∧
      StartsWith (character :: rest) (Token.start character rest).1 tail := by
  by_cases marked : ∃ token, IsMark character token
  · rcases marked with ⟨token, isMark⟩
    rw [start_of_mark isMark]
    exact ⟨[], rest, rfl, rfl, .mark isMark⟩
  · rw [start_of_unmarked (not_exists.mp marked)] at notStray ⊢
    cases reads : Literal.read? (character :: rest) with
    | some literal =>
        rcases Literal.read?_eq_some_iff.mp reads with
          ⟨spelling, tail, split, spelled, length, longest⟩
        rcases exists_cons_of_spells spelled with ⟨first, others, rfl, -⟩
        cases split
        refine ⟨others, tail, rfl, ?_, ?_⟩
        · simp [length]
        · exact .number spelled longest
    | none =>
        rw [reads] at notStray
        by_cases start : isNameStart character = true
        · have isName : IsName (String.ofList
              (character :: rest.takeWhile isNamePart)) := by
            refine ⟨character, rest.takeWhile isNamePart, String.toList_ofList, start, ?_⟩
            rw [List.all_eq_true]
            intro part member
            exact List.mem_takeWhile_imp member
          have named := @StartsWith.name _ (rest.dropWhile isNamePart) isName (by
            intro next isNext
            have stops := List.head?_dropWhile_not isNamePart rest
            rw [Option.mem_def.mp isNext] at stops
            simpa using stops)
          rw [String.toList_ofList, List.cons_append, List.takeWhile_append_dropWhile] at named
          simp only [start, if_true]
          exact ⟨_, _, List.takeWhile_append_dropWhile.symm, rfl, named⟩
        · rw [if_neg start] at notStray
          exact (notStray rfl).elim

/-! ## Lexemes of a text -/

theorem utf8ByteSize_ofList_cons (character : Char) (rest : List Char) :
    (String.ofList (character :: rest)).utf8ByteSize =
      character.utf8Size + (String.ofList rest).utf8ByteSize := by
  rw [String.ofList_cons, String.utf8ByteSize_append, String.utf8ByteSize_singleton]

/-- The characters inside of a token are passed over. -/
theorem lexemesFrom_append (skipped rest : List Char) (offset : Nat) :
    lexemesFrom skipped.length offset (skipped ++ rest) =
      lexemesFrom 0 (offset + (String.ofList skipped).utf8ByteSize) rest := by
  induction skipped generalizing offset with
  | nil => rfl
  | cons character skipped ih =>
      rw [utf8ByteSize_ofList_cons, ← Nat.add_assoc]
      exact ih _

/-- A text that splits into tokens has them as its lexemes. -/
theorem tokens_of_splits {text : List Char} {tokens : List Token}
    (splits : Splits text tokens) (offset : Nat) :
    (lexemesFrom 0 offset text).map Lexeme.token = tokens ∧ .stray ∉ tokens := by
  induction splits generalizing offset with
  | finished => exact ⟨rfl, nofun⟩
  | blank isBlank splits ih =>
      rw [lexemesFrom, if_pos isBlank]
      exact ih _
  | @token text token tail tokens starts splits ih =>
      cases text with
      | nil =>
          generalize whole : ([] : List Char) = text at starts
          cases starts with
          | mark => cases whole
          | number spelled _ =>
              rcases exists_cons_of_spells spelled with ⟨first, others, rfl, -⟩
              cases whole
          | name isName _ =>
              rcases isName with ⟨first, others, text, -⟩
              rw [text] at whole
              cases whole
      | cons character rest =>
          rcases start_of_startsWith starts with ⟨notBlank, notStray, others, rfl, read⟩
          rw [lexemesFrom, if_neg (by simp [notBlank]), read]
          dsimp only
          rw [lexemesFrom_append, List.map_cons]
          rcases ih _ with ⟨same, absent⟩
          refine ⟨congrArg _ same, ?_⟩
          intro member
          rcases List.mem_cons.mp member with stray | member
          · exact notStray stray.symm
          · exact absent member

/-- A text splits into its lexemes when none of them is stray. -/
theorem splits_of_lexemes (text : List Char) (offset : Nat)
    (absent : .stray ∉ (lexemesFrom 0 offset text).map Lexeme.token) :
    Splits text ((lexemesFrom 0 offset text).map Lexeme.token) := by
  induction length : text.length using Nat.strong_induction_on generalizing text offset with
  | _ length' ih =>
      subst length
      cases text with
      | nil => exact .finished
      | cons character rest =>
          rw [lexemesFrom] at absent ⊢
          by_cases blank : isBlank character = true
          · rw [if_pos blank] at absent ⊢
            exact .blank blank (ih rest.length (Nat.lt_succ_self _) rest _ absent rfl)
          · rw [if_neg blank] at absent ⊢
            simp only [List.map_cons, List.mem_cons, not_or] at absent ⊢
            rcases startsWith_of_start (Ne.symm absent.1) with
              ⟨others, tail, rfl, size, starts⟩
            rw [size, lexemesFrom_append] at absent ⊢
            refine .token starts (ih tail.length ?_ tail _ absent.2 rfl)
            simp only [List.length_cons, List.length_append]
            exact Nat.lt_succ_of_le (Nat.le_add_left _ _)

/-- A text splits into tokens in one way at most, and its lexemes are these tokens. -/
theorem splits_iff {text : String} {tokens : List Token} :
    Splits text.toList tokens ↔
      (lexemes text).map Lexeme.token = tokens ∧ .stray ∉ tokens := by
  constructor
  · intro splits
    exact tokens_of_splits splits 0
  · rintro ⟨rfl, absent⟩
    exact splits_of_lexemes _ _ absent

end Stereograph.Formula
