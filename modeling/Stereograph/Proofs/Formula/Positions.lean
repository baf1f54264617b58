import Stereograph.Proofs.Formula.Splitting

/-!
# Positions of lexemes

A lexeme stands in the text at the byte offset that it keeps, and the text goes on there with
its first character.  What comes before it is divided into lexemes without regard to what
comes after that character.  The only token that looks further ahead than the next character
is a number, which an exponent may lengthen, so a number must not be followed by an exponent
mark and the character must be no sign.
-/

namespace Stereograph.Formula

open Decimal

/-! ## Literals cut short -/

/-- Where a list is divided in two ways, the second part of one of them begins inside of
the other. -/
theorem append_eq_append_cons {α : Type} {left right front rest : List α} {next : α}
    (same : left ++ right = front ++ next :: rest) :
    (∃ others, left = front ++ next :: others) ∨
      ∃ others, front = left ++ others ∧ right = others ++ next :: rest := by
  rcases List.append_eq_append_iff.mp same with ⟨others, rfl, rfl⟩ | ⟨others, rfl, tail⟩
  · exact .inr ⟨others, rfl, rfl⟩
  · rcases List.cons_eq_append_iff.mp tail with ⟨rfl, rfl⟩ | ⟨others, rfl, -⟩
    · exact .inr ⟨[], by simp, rfl⟩
    · exact .inl ⟨others, rfl⟩

section Cuts

variable {front rest : List Char} {next : Char}

theorem isDigits_cut (isDigits : IsDigits (front ++ next :: rest)) :
    IsDigits (front ++ [next]) := by
  refine ⟨by simp, ?_⟩
  intro character member
  apply isDigits.isDigit
  rw [List.append_cons]
  exact List.mem_append_left rest member

variable (notPlus : next ≠ '+') (notMinus : next ≠ '-')

include notPlus notMinus

/-- An exponent that is cut behind a digit or behind its mark. -/
theorem spellsExponent_cut {exponent : Int}
    (spelled : SpellsExponent (front ++ next :: rest) exponent) :
    (front = [] ∧ (next = 'e' ∨ next = 'E')) ∨
      ∃ shorter, SpellsExponent (front ++ [next]) shorter := by
  generalize whole : front ++ next :: rest = text at spelled
  cases spelled with
  | absent => simp at whole
  | unsigned isMark isDigits =>
      rcases List.append_eq_cons_iff.mp whole with ⟨rfl, same⟩ | ⟨others, rfl, rfl⟩
      · cases same
        exact .inl ⟨rfl, isMark⟩
      · exact .inr ⟨_, .unsigned isMark (isDigits_cut isDigits)⟩
  | plus isMark isDigits =>
      rcases List.append_eq_cons_iff.mp whole with ⟨rfl, same⟩ | ⟨others, rfl, same⟩
      · cases same
        exact .inl ⟨rfl, isMark⟩
      · rcases List.append_eq_cons_iff.mp same.symm with ⟨rfl, sign⟩ | ⟨digits, rfl, rfl⟩
        · cases sign
          exact (notPlus rfl).elim
        · exact .inr ⟨_, .plus isMark (isDigits_cut isDigits)⟩
  | minus isMark isDigits =>
      rcases List.append_eq_cons_iff.mp whole with ⟨rfl, same⟩ | ⟨others, rfl, same⟩
      · cases same
        exact .inl ⟨rfl, isMark⟩
      · rcases List.append_eq_cons_iff.mp same.symm with ⟨rfl, sign⟩ | ⟨digits, rfl, rfl⟩
        · cases sign
          exact (notMinus rfl).elim
        · exact .inr ⟨_, .minus isMark (isDigits_cut isDigits)⟩

/-- A literal that is cut in its exponent is still one, or the cut is in front of the
exponent. -/
theorem spells_cut_exponent {mantissa : List Char} {exponent : Int}
    (spells : ∀ {tail exponent}, SpellsExponent tail exponent →
      ∃ numeral, Spells (mantissa ++ tail) numeral)
    (tail : SpellsExponent (front ++ next :: rest) exponent) :
    (∃ shorter, Spells ((mantissa ++ front) ++ [next]) shorter) ∨
      ((next = 'e' ∨ next = 'E') ∧ ∃ shorter, Spells (mantissa ++ front) shorter) := by
  rcases spellsExponent_cut notPlus notMinus tail with ⟨rfl, isMark⟩ | ⟨shorter, spelled⟩
  · exact .inr ⟨isMark, spells .absent⟩
  · rw [List.append_assoc]
    exact .inl (spells spelled)

/-- A literal is still one when it is cut behind a character that is neither its first nor
a sign, or in front of the mark of its exponent. -/
theorem spells_cut {numeral : Numeral} (filled : front ≠ [])
    (spelled : Spells (front ++ next :: rest) numeral) :
    (∃ shorter, Spells (front ++ [next]) shorter) ∨
      ((next = 'e' ∨ next = 'E') ∧ ∃ shorter, Spells front shorter) := by
  generalize cut : front ++ next :: rest = text at spelled
  cases spelled with
  | @whole digits _ _ isDigits tail =>
      have spells : ∀ {tail exponent}, SpellsExponent tail exponent →
          ∃ numeral, Spells (digits ++ tail) numeral :=
        fun tail => ⟨_, .whole isDigits tail⟩
      rcases append_eq_append_cons cut.symm with ⟨others, rfl⟩ | ⟨others, rfl, rfl⟩
      · have shorter := Spells.whole (isDigits_cut isDigits) .absent
        rw [List.append_nil] at shorter
        exact .inl ⟨_, shorter⟩
      · exact spells_cut_exponent notPlus notMinus spells tail
  | @pointed digits fraction _ _ isDigits tail =>
      have spells : ∀ {tail exponent}, SpellsExponent tail exponent →
          ∃ numeral, Spells (digits ++ '.' :: fraction ++ tail) numeral := by
        intro tail exponent spelled
        rw [List.append_assoc, List.cons_append]
        exact ⟨_, .pointed isDigits spelled⟩
      rcases append_eq_append_cons cut.symm with ⟨others, rfl⟩ | ⟨others, rfl, same⟩
      · rw [List.append_assoc, List.cons_append] at isDigits
        have shorter := Spells.whole (isDigits_cut isDigits) .absent
        rw [List.append_nil] at shorter
        exact .inl ⟨_, shorter⟩
      · rcases List.cons_eq_append_iff.mp same with ⟨rfl, point⟩ | ⟨others, rfl, same⟩
        · cases point
          rw [List.append_nil] at filled ⊢
          have shorter := @Spells.pointed digits [] [] 0
            ⟨by simpa using filled, fun character member =>
              isDigits.isDigit character (List.mem_append_left _ (by simpa using member))⟩
            .absent
          exact .inl ⟨_, shorter⟩
        · rw [List.cons_append, List.cons.injEq] at same
          rcases append_eq_append_cons same.2 with ⟨others, rfl⟩ | ⟨others, rfl, rfl⟩
          · rw [← List.append_assoc] at isDigits
            have shorter := @Spells.pointed digits (_ ++ [_]) [] 0
              (by rw [← List.append_assoc]; exact isDigits_cut isDigits) .absent
            rw [List.append_nil] at shorter
            rw [List.append_assoc, List.cons_append]
            exact .inl ⟨_, shorter⟩
          · have cuts := spells_cut_exponent notPlus notMinus spells tail
            simpa using cuts

end Cuts

/-! ## Tokens cut short -/

/-- What a token takes of a text does not change when the text is changed behind the first
character of a later token. -/
theorem startsWith_cut {inside between after : List Char} {next : Char} {token : Token}
    (starts : StartsWith (inside ++ (between ++ next :: after)) token (between ++ next :: after))
    (notPlus : next ≠ '+') (notMinus : next ≠ '-')
    (apart : next = 'e' ∨ next = 'E' → between = [] → ∀ value, token ≠ .number value)
    (more : List Char) :
    StartsWith (inside ++ (between ++ next :: more)) token (between ++ next :: more) := by
  generalize whole : inside ++ (between ++ next :: after) = text at starts
  generalize left : between ++ next :: after = rest at starts
  cases starts with
  | @mark character _ _ isMark =>
      rw [left, ← List.singleton_append] at whole
      rcases List.append_cancel_right whole with rfl
      exact .mark isMark
  | @number spelling _ _ spelled longest =>
      rw [left] at whole
      rcases List.append_cancel_right whole with rfl
      refine .number spelled ?_
      intro longer other spelledLonger front
      rcases front with ⟨tail, same⟩
      rw [← List.append_assoc] at same
      -- A literal that reaches the later token can be cut there, and is too long in the
      -- unchanged text already.
      rcases append_eq_append_cons same with ⟨others, rfl⟩ | ⟨others, same, -⟩
      · rcases exists_cons_of_spells spelled with ⟨first, inside, rfl, -⟩
        rcases spells_cut notPlus notMinus (by simp) spelledLonger with
          ⟨shorter, spelledShorter⟩ | ⟨isMark, shorter, spelledShorter⟩
        · have bounded := longest _ _ spelledShorter (by simp [← left])
          simp only [List.length_append, List.length_cons, List.length_nil] at bounded
          omega
        · have bounded := longest _ _ spelledShorter (by simp [← left])
          rw [List.length_append] at bounded
          have adjacent : between = [] := List.length_eq_zero_iff.mp (by omega)
          exact (apart isMark adjacent _ rfl).elim
      · apply longest longer other spelledLonger
        rw [← left, ← List.append_assoc, same, List.append_assoc]
        exact List.prefix_append longer _
  | @name name _ isName longest =>
      rw [left] at whole
      rcases List.append_cancel_right whole with rfl
      refine .name isName ?_
      intro character front
      apply longest character
      rw [← left]
      cases between <;> exact front

/-! ## The place of a lexeme -/

/-- The characters that a token takes up behind its first one are there. -/
theorem exists_start_append (character : Char) (rest : List Char) :
    ∃ others tail, rest = others ++ tail ∧
      (Token.start character rest).2 = others.length ∧
      ((Token.start character rest).1 ≠ .stray →
        StartsWith (character :: rest) (Token.start character rest).1 tail) := by
  by_cases stray : (Token.start character rest).1 = .stray
  · refine ⟨[], rest, rfl, ?_, fun notStray => (notStray stray).elim⟩
    have unmarked : ∀ token, ¬IsMark character token := by
      intro token isMark
      rw [start_of_mark isMark] at stray
      exact isMark.ne_stray stray
    rw [start_of_unmarked unmarked] at stray ⊢
    cases reads : Literal.read? (character :: rest) with
    | some literal =>
        rw [reads] at stray
        cases stray
    | none =>
        rw [reads] at stray
        by_cases start : isNameStart character = true
        · rw [if_pos start] at stray
          cases stray
        · rw [if_neg start]
          rfl
  · rcases startsWith_of_start stray with ⟨others, tail, same, size, starts⟩
    exact ⟨others, tail, same, size, fun _ => starts⟩

/-- The lexeme at the front of a text and the lexemes behind it. -/
theorem lexemesFrom_start {character : Char} {others tail : List Char} (offset : Nat)
    (notBlank : isBlank character = false)
    (size : (Token.start character (others ++ tail)).2 = others.length) :
    lexemesFrom 0 offset (character :: (others ++ tail)) =
      ⟨(Token.start character (others ++ tail)).1, offset, character⟩ ::
        lexemesFrom 0 (offset + (String.ofList (character :: others)).utf8ByteSize) tail := by
  rw [lexemesFrom, if_neg (by simp [notBlank])]
  change _ :: lexemesFrom (Token.start _ _).2 _ _ = _
  rw [size, lexemesFrom_append, utf8ByteSize_ofList_cons, Nat.add_assoc]
  rfl

/-- A character that changes no token in front of it. -/
def Steady (front : List Lexeme) (next : Char) : Prop :=
  next ≠ '+' ∧ next ≠ '-' ∧
    (next = 'e' ∨ next = 'E' → ∀ value, front.getLast?.map Lexeme.token ≠ some (.number value))

theorem Steady.tail {head : Lexeme} {front : List Lexeme} {next : Char}
    (steady : Steady (head :: front) next) : Steady front next := by
  rcases steady with ⟨notPlus, notMinus, apart⟩
  refine ⟨notPlus, notMinus, ?_⟩
  intro isMark value
  cases front with
  | nil => nofun
  | cons second others => exact apart isMark value

/-- A lexeme behind others stands in a text behind some characters, and its first character
comes next.  What is behind that character matters only to the lexeme itself and to those
after it. -/
structure Stands (offset : Nat) (text : List Char) (front : List Lexeme) (lexeme : Lexeme)
    (before after : List Char) : Prop where
  text_eq : text = before ++ lexeme.first :: after
  offset_eq : lexeme.offset = offset + (String.ofList before).utf8ByteSize
  isBlank : isBlank lexeme.first = false
  token_eq : lexeme.token = (Token.start lexeme.first after).1
  front_eq : before = [] → front = []
  steady : .stray ∉ front.map Lexeme.token → Steady front lexeme.first →
    ∀ more, lexemesFrom 0 offset (before ++ lexeme.first :: more) =
      front ++ lexemesFrom 0 lexeme.offset (lexeme.first :: more)

namespace Stands

variable {offset : Nat} {character : Char} {text others tail between before after : List Char}
  {front : List Lexeme} {lexeme : Lexeme}

theorem behind_blank (blank : Formula.isBlank character = true)
    (stands : Stands (offset + character.utf8Size) text front lexeme before after) :
    Stands offset (character :: text) front lexeme (character :: before) after := by
  refine ⟨?_, ?_, stands.isBlank, stands.token_eq, nofun, ?_⟩
  · rw [stands.text_eq, List.cons_append]
  · rw [stands.offset_eq, utf8ByteSize_ofList_cons, Nat.add_assoc]
  · intro absent steady more
    rw [List.cons_append, lexemesFrom, if_pos blank]
    exact stands.steady absent steady more

/-- The characters of a token and those behind it do not matter to one another, unless the next
lexeme changes the token. -/
theorem behind_token (notBlank : Formula.isBlank character = false)
    (size : (Token.start character (others ++ tail)).2 = others.length)
    (starts : (Token.start character (others ++ tail)).1 ≠ .stray →
      StartsWith (character :: (others ++ tail)) (Token.start character (others ++ tail)).1 tail)
    (stands : Stands (offset + (String.ofList (character :: others)).utf8ByteSize) tail front
      lexeme between after) :
    Stands offset (character :: (others ++ tail))
      (⟨(Token.start character (others ++ tail)).1, offset, character⟩ :: front) lexeme
      (character :: others ++ between) after := by
  rcases stands.text_eq with rfl
  refine ⟨?_, ?_, stands.isBlank, stands.token_eq, nofun, ?_⟩
  · simp
  · rw [stands.offset_eq, String.ofList_append, String.utf8ByteSize_append, Nat.add_assoc]
  · intro absent steady more
    rw [List.map_cons, List.mem_cons, not_or] at absent
    have apart : lexeme.first = 'e' ∨ lexeme.first = 'E' → between = [] →
        ∀ value, (Token.start character
          (others ++ (between ++ lexeme.first :: after))).1 ≠ .number value := by
      intro isMark adjacent value counted
      apply steady.2.2 isMark value
      rw [stands.front_eq adjacent]
      exact congrArg some counted
    have cut := @startsWith_cut (character :: others) between after _ _
      (starts (Ne.symm absent.1)) steady.1 steady.2.1 apart more
    rcases start_of_startsWith cut with ⟨-, -, others', same, start⟩
    rcases List.append_cancel_right same with rfl
    have start : Token.start character (others ++ (between ++ lexeme.first :: more)) = _ := start
    rw [List.append_assoc, List.cons_append,
      lexemesFrom_start offset notBlank (congrArg Prod.snd start), start,
      stands.steady absent.2 steady.tail more, List.cons_append]

end Stands

/-- Every lexeme stands somewhere in the text. -/
theorem exists_stands {text : List Char} {offset : Nat} {front rest : List Lexeme}
    {lexeme : Lexeme} (lexed : lexemesFrom 0 offset text = front ++ lexeme :: rest) :
    ∃ before after, Stands offset text front lexeme before after := by
  -- A token takes up several characters, so the induction is on the length of the text.
  induction length : text.length using Nat.strong_induction_on generalizing text offset front with
  | _ length' ih =>
      subst length
      cases text with
      | nil =>
          rw [lexemesFrom] at lexed
          simp at lexed
      | cons character text =>
          by_cases blank : isBlank character = true
          · rw [lexemesFrom, if_pos blank] at lexed
            rcases ih text.length (Nat.lt_succ_self _) lexed rfl with ⟨before, after, stands⟩
            exact ⟨character :: before, after, stands.behind_blank blank⟩
          · rw [Bool.not_eq_true] at blank
            rcases exists_start_append character text with ⟨others, tail, rfl, size, starts⟩
            rw [lexemesFrom_start offset blank size] at lexed
            cases front with
            | nil =>
                rw [List.nil_append, List.cons.injEq] at lexed
                rcases lexed with ⟨rfl, -⟩
                exact ⟨[], others ++ tail, rfl, rfl, blank, rfl, fun _ => rfl, fun _ _ _ => rfl⟩
            | cons head front =>
                rw [List.cons_append, List.cons.injEq] at lexed
                rcases lexed with ⟨rfl, lexed⟩
                have shorter : tail.length < (character :: (others ++ tail)).length := by
                  rw [List.length_cons, List.length_append]
                  omega
                rcases ih tail.length shorter lexed rfl with ⟨between, after, stands⟩
                exact ⟨character :: others ++ between, after,
                  stands.behind_token blank size starts⟩

end Stereograph.Formula
