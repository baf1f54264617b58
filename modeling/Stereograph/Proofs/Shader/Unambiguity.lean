import Stereograph.Proofs.Formula.Splitting
import Stereograph.Proofs.Shader.Brackets
import Stereograph.Shader.Grammar

/-!
# Unambiguity of shader expressions

A text derives one expression at most.  The proof takes two derivations of one text and
shows that the last rule of the first is also the last rule of the second, apart from
blanks.  Blanks around a derivable text can be stripped, so a derivation that ends with
a blank never stands in the way.  Operators are found by counting parentheses: the
operator of a sum is the last plus sign outside of all of them.

A plus sign may also belong to the exponent of a literal.  Texts with such a sign are
left out here; generated code has none.
-/

namespace Stereograph.Shader

open Decimal Formula

/-- Induction over the rules of the grammar, without a hypothesis for the arguments of
a call. -/
theorem Derives.byRule
    {motive : ∀ {phrase text expression}, Derives phrase text expression → Prop}
    (blankBefore : ∀ {phrase text expression} (inner : Derives phrase text expression),
      motive inner → motive inner.blankBefore)
    (blankAfter : ∀ {phrase text expression} (inner : Derives phrase text expression),
      motive inner → motive inner.blankAfter)
    (quotient : ∀ {text expression} (inner : Derives .quotient text expression),
      motive inner → motive inner.quotient)
    (add : ∀ {leftText rightText left right} (first : Derives .sum leftText left)
      (second : Derives .quotient rightText right), motive first → motive second →
      motive (first.add second))
    (signed : ∀ {text expression} (inner : Derives .signed text expression),
      motive inner → motive inner.signed)
    (divide : ∀ {leftText rightText left right} (first : Derives .quotient leftText left)
      (second : Derives .signed rightText right), motive first → motive second →
      motive (first.divide second))
    (selection : ∀ {text expression} (inner : Derives .selection text expression),
      motive inner → motive inner.selection)
    (opposite : ∀ {text operand} (inner : Derives .signed text operand),
      motive inner → motive inner.opposite)
    (primary : ∀ {text expression} (inner : Derives .primary text expression),
      motive inner → motive inner.primary)
    (select : ∀ {text vector letters} (inner : Derives .selection text vector)
      (isName : IsName letters), motive inner → motive (inner.select isName))
    (reference : ∀ {name} (isName : IsName name), motive (.reference isName))
    (number : ∀ {text value} (literal : IsLiteral text value), motive (.number literal))
    (parenthesized : ∀ {text expression} (inner : Derives .sum text expression),
      motive inner → motive inner.parenthesized)
    (call : ∀ {name text arguments} (isName : IsName name)
      (inner : DerivesAll text arguments), motive (.call isName inner))
    {phrase text expression} (derivation : Derives phrase text expression) :
    motive derivation :=
  @Derives.rec (fun _ _ _ derivation => motive derivation) (fun _ _ _ => True)
    blankBefore blankAfter quotient add signed divide selection opposite primary select
    reference number parenthesized (fun isName inner _ => call isName inner)
    (fun _ _ => trivial) (fun _ _ _ _ => trivial) phrase text expression derivation

/-! ## Characters of names and literals -/

theorem IsLiteral.spells {text : List Char} {value : Float} (literal : IsLiteral text value) :
    ∃ numeral, Spells text numeral := by
  obtain ⟨-, found, reads, length, -⟩ := literal
  obtain ⟨-, spelled⟩ := Literal.spells_of_read? reads
  rw [length, List.take_length] at spelled
  exact ⟨_, spelled⟩

/-- Characters of literals other than the point. -/
def isExponentPart (character : Char) : Bool :=
  character.isDigit || character == 'e' || character == 'E' || character == '+' ||
    character == '-'

/-- Characters of literals. -/
def isLiteralPart (character : Char) : Bool :=
  character == '.' || isExponentPart character

theorem isExponentPart_of_isDigits {digits : List Char} (isDigits : IsDigits digits)
    {character : Char} (member : character ∈ digits) : isExponentPart character = true := by
  simp [isExponentPart, isDigits.isDigit character member]

theorem isExponentPart_of_spellsExponent {text : List Char} {exponent : Int}
    (spelled : SpellsExponent text exponent) {character : Char} (member : character ∈ text) :
    isExponentPart character = true := by
  cases spelled with
  | absent => cases member
  | unsigned isMark isDigits =>
      obtain rfl | inside := List.mem_cons.mp member
      · obtain rfl | rfl := isMark <;> rfl
      · exact isExponentPart_of_isDigits isDigits inside
  | plus isMark isDigits | minus isMark isDigits =>
      obtain rfl | inside := List.mem_cons.mp member
      · obtain rfl | rfl := isMark <;> rfl
      obtain rfl | inside := List.mem_cons.mp inside
      · rfl
      · exact isExponentPart_of_isDigits isDigits inside

/-- A literal with a point has digits in front of the first point and no other point. -/
theorem exists_point_of_spells {text : List Char} {numeral : Numeral}
    (spelled : Spells text numeral) (point : '.' ∈ text) :
    ∃ whole rest, text = whole ++ '.' :: rest ∧
      (∀ digit ∈ whole, digit.isDigit = true) ∧
      ∀ character ∈ rest, isExponentPart character = true := by
  cases spelled with
  | whole isDigits tail =>
      obtain inside | inside := List.mem_append.mp point
      · cases isExponentPart_of_isDigits isDigits inside
      · cases isExponentPart_of_spellsExponent tail inside
  | pointed isDigits tail =>
      refine ⟨_, _, rfl, fun digit member => ?_, fun character member => ?_⟩
      · exact isDigits.isDigit digit (List.mem_append_left _ member)
      · obtain inside | inside := List.mem_append.mp member
        · exact isExponentPart_of_isDigits isDigits (List.mem_append_right _ inside)
        · exact isExponentPart_of_spellsExponent tail inside

theorem IsLiteral.exists_point {text : List Char} {value : Float}
    (literal : IsLiteral text value) :
    ∃ whole rest, text = whole ++ '.' :: rest ∧
      (∀ digit ∈ whole, digit.isDigit = true) ∧
      ∀ character ∈ rest, isExponentPart character = true := by
  obtain ⟨numeral, spelled⟩ := literal.spells
  exact exists_point_of_spells spelled literal.1

theorem not_mem_literal {text : List Char} {value : Float} (literal : IsLiteral text value)
    {character : Char} (other : isLiteralPart character = false) : character ∉ text := by
  obtain ⟨whole, rest, rfl, wholeDigits, restParts⟩ := literal.exists_point
  simp only [isLiteralPart, Bool.or_eq_false_iff, beq_eq_false_iff_ne] at other
  obtain ⟨point, exponent⟩ := other
  intro member
  obtain inside | inside := List.mem_append.mp member
  · simp [isExponentPart, wholeDigits _ inside] at exponent
  obtain same | inside := List.mem_cons.mp inside
  · exact point same
  · rw [restParts _ inside] at exponent
    cases exponent

/-- No exponent in a text has a plus sign. -/
def PlainExponents (text : List Char) : Prop :=
  ∀ front mark back, text = front ++ mark :: '+' :: back → mark ≠ 'e' ∧ mark ≠ 'E'

namespace PlainExponents

variable {front back : List Char}

theorem left (plain : PlainExponents (front ++ back)) : PlainExponents front := by
  rintro start mark rest rfl
  exact plain start mark (rest ++ back) (by simp)

theorem right (plain : PlainExponents (front ++ back)) : PlainExponents back := by
  rintro start mark rest rfl
  exact plain (front ++ start) mark rest (by simp)

theorem tail {character : Char} (plain : PlainExponents (character :: back)) :
    PlainExponents back :=
  @PlainExponents.right [character] back plain

end PlainExponents

theorem plus_not_mem_of_isDigits {digits : List Char} (isDigits : IsDigits digits) :
    '+' ∉ digits := by
  intro member
  simpa using isDigits.isDigit '+' member

theorem plus_not_mem_of_spellsExponent {front tail : List Char} {exponent : Int}
    (spelled : SpellsExponent tail exponent) (plain : PlainExponents (front ++ tail)) :
    '+' ∉ tail := by
  intro member
  cases spelled with
  | absent => cases member
  | unsigned isMark isDigits =>
      obtain rfl | inside := List.mem_cons.mp member
      · simp at isMark
      · exact plus_not_mem_of_isDigits isDigits inside
  | plus isMark isDigits =>
      exact isMark.elim (plain front _ _ rfl).1 (plain front _ _ rfl).2
  | minus isMark isDigits =>
      obtain rfl | inside := List.mem_cons.mp member
      · simp at isMark
      obtain sign | inside := List.mem_cons.mp inside
      · cases sign
      · exact plus_not_mem_of_isDigits isDigits inside

theorem plus_not_mem_literal {text : List Char} {value : Float}
    (literal : IsLiteral text value) (plain : PlainExponents text) : '+' ∉ text := by
  obtain ⟨numeral, spelled⟩ := literal.spells
  intro member
  cases spelled with
  | whole isDigits tail =>
      obtain inside | inside := List.mem_append.mp member
      · exact plus_not_mem_of_isDigits isDigits inside
      · exact plus_not_mem_of_spellsExponent tail plain inside
  | @pointed whole fraction exponentText _ isDigits tail =>
      obtain inside | inside := List.mem_append.mp member
      · exact plus_not_mem_of_isDigits isDigits (List.mem_append_left _ inside)
      obtain point | inside := List.mem_cons.mp inside
      · cases point
      obtain inside | inside := List.mem_append.mp inside
      · exact plus_not_mem_of_isDigits isDigits (List.mem_append_right _ inside)
      · refine @plus_not_mem_of_spellsExponent (whole ++ '.' :: fraction) _ _ tail ?_ inside
        simpa using plain

/-! ## Separators -/

theorem Derives.ne_nil {phrase : Phrase} {text : List Char} {expression : Expression}
    (derivation : Derives phrase text expression) : text ≠ [] := by
  induction derivation using Derives.byRule with
  | blankBefore | opposite | parenthesized => simp
  | blankAfter | add | divide | select | call => simp
  | quotient _ ih | signed _ ih | selection _ ih | primary _ ih => exact ih
  | reference isName => exact name_ne_nil isName
  | number literal =>
      rintro rfl
      cases literal.1

mutual
/-- Parentheses are balanced in what derives an expression. -/
theorem Derives.balanced {phrase : Phrase} {text : List Char} {expression : Expression} :
    Derives phrase text expression → Balanced text
  | .blankBefore inner => inner.balanced.cons (by decide) (by decide)
  | .blankAfter inner => inner.balanced.append (.of_not_mem (by decide) (by decide))
  | .quotient inner => inner.balanced
  | .add left right => left.balanced.append (right.balanced.cons (by decide) (by decide))
  | .signed inner => inner.balanced
  | .divide left right => left.balanced.append (right.balanced.cons (by decide) (by decide))
  | .selection inner => inner.balanced
  | .opposite inner => inner.balanced.cons (by decide) (by decide)
  | .primary inner => inner.balanced
  | .select inner isName =>
      inner.balanced.append (.cons (by decide) (by decide)
        (.of_not_mem (not_mem_name isName (by decide)) (not_mem_name isName (by decide))))
  | .reference isName =>
      .of_not_mem (not_mem_name isName (by decide)) (not_mem_name isName (by decide))
  | .number literal =>
      .of_not_mem (not_mem_literal literal (by decide)) (not_mem_literal literal (by decide))
  | .parenthesized inner => inner.balanced.enclosed
  | .call isName arguments => by
      rw [List.append_assoc]
      exact .append (.of_not_mem (not_mem_name isName (by decide))
        (not_mem_name isName (by decide))) arguments.balanced.enclosed

theorem DerivesAll.balanced {text : List Char} {expressions : List Expression} :
    DerivesAll text expressions → Balanced text
  | .one inner => inner.balanced
  | .more first others =>
      first.balanced.append (others.balanced.cons (by decide) (by decide))
end

/-- Place of a phrase in the order of binding. -/
def Phrase.tightness : Phrase → Nat
  | .sum => 0
  | .quotient => 1
  | .signed => 2
  | .selection => 3
  | .primary => 4

/-- A separator that a phrase can have inside of parentheses only. -/
def Phrase.Seals (phrase : Phrase) (mark : Char) : Prop :=
  mark = ',' ∨ (mark = '+' ∧ 1 ≤ phrase.tightness) ∨ (mark = '/' ∧ 2 ≤ phrase.tightness)

theorem Phrase.Seals.of_le {loose tight : Phrase} {mark : Char} (seals : loose.Seals mark)
    (order : loose.tightness ≤ tight.tightness) : tight.Seals mark := by
  obtain comma | ⟨plus, bound⟩ | ⟨slash, bound⟩ := seals
  · exact .inl comma
  · exact .inr (.inl ⟨plus, bound.trans order⟩)
  · exact .inr (.inr ⟨slash, bound.trans order⟩)

theorem Phrase.Seals.ne {phrase : Phrase} {mark character : Char}
    (seals : phrase.Seals mark) (other : character ∉ [',', '+', '/']) :
    character ≠ mark := by
  rintro rfl
  obtain rfl | ⟨rfl, -⟩ | ⟨rfl, -⟩ := seals <;> simp at other

theorem Derives.sealed {phrase : Phrase} {text : List Char} {expression : Expression}
    (derivation : Derives phrase text expression) (plain : PlainExponents text)
    {mark : Char} (seals : phrase.Seals mark) : Sealed mark text := by
  induction derivation using Derives.byRule with
  | blankBefore inner ih =>
      exact .cons (by decide) (by decide) (seals.ne (by decide)) (ih plain.tail seals)
  | blankAfter inner ih =>
      refine .append inner.balanced (ih plain.left seals) (.of_not_mem ?_)
      simpa using (seals.ne (by decide)).symm
  | quotient inner ih =>
      exact ih plain (seals.of_le (by decide))
  | add first second leftSealed rightSealed =>
      have other : '+' ≠ mark := by
        rintro rfl
        simp [Phrase.Seals, Phrase.tightness] at seals
      refine .append first.balanced (leftSealed plain.left seals) ?_
      exact .cons (by decide) (by decide) other
        (rightSealed plain.right.tail (seals.of_le (by decide)))
  | signed inner ih =>
      exact ih plain (seals.of_le (by decide))
  | divide first second leftSealed rightSealed =>
      have other : '/' ≠ mark := by
        rintro rfl
        simp [Phrase.Seals, Phrase.tightness] at seals
      refine .append first.balanced (leftSealed plain.left seals) ?_
      exact .cons (by decide) (by decide) other
        (rightSealed plain.right.tail (seals.of_le (by decide)))
  | selection inner ih =>
      exact ih plain (seals.of_le (by decide))
  | opposite inner ih =>
      exact .cons (by decide) (by decide) (seals.ne (by decide)) (ih plain.tail seals)
  | primary inner ih =>
      exact ih plain (seals.of_le (by decide))
  | select inner isName ih =>
      refine .append inner.balanced (ih plain.left seals) ?_
      refine .cons (by decide) (by decide) (seals.ne (by decide)) (.of_not_mem ?_)
      intro member
      have part := isNamePart_of_mem isName member
      obtain rfl | ⟨rfl, -⟩ | ⟨rfl, -⟩ := seals <;> cases part
  | reference isName =>
      refine .of_not_mem fun member => ?_
      have part := isNamePart_of_mem isName member
      obtain rfl | ⟨rfl, -⟩ | ⟨rfl, -⟩ := seals <;> cases part
  | number literal =>
      obtain rfl | ⟨rfl, -⟩ | ⟨rfl, -⟩ := seals
      · exact .of_not_mem (not_mem_literal literal (by decide))
      · exact .of_not_mem (plus_not_mem_literal literal plain)
      · exact .of_not_mem (not_mem_literal literal (by decide))
  | parenthesized inner ih =>
      exact .enclosed (seals.ne (by decide)).symm (seals.ne (by decide)).symm inner.balanced
  | call isName inner =>
      rw [List.append_assoc]
      refine .append (.of_not_mem (not_mem_name isName (by decide))
        (not_mem_name isName (by decide))) (.of_not_mem fun member => ?_)
        (.enclosed (seals.ne (by decide)).symm (seals.ne (by decide)).symm inner.balanced)
      have part := isNamePart_of_mem isName member
      obtain rfl | ⟨rfl, -⟩ | ⟨rfl, -⟩ := seals <;> cases part

/-! ## Blanks at the ends -/

theorem exists_of_append_eq_concat {left right text : List Char} {character : Char}
    (filled : right ≠ []) (same : left ++ right = text ++ [character]) :
    ∃ rest, right = rest ++ [character] ∧ text = left ++ rest := by
  obtain rfl | ⟨rest, last, rfl⟩ := List.eq_nil_or_concat right
  · exact (filled rfl).elim
  · rw [List.concat_eq_append, ← List.append_assoc] at same
    obtain ⟨rfl, ends⟩ := List.append_inj' same rfl
    cases ends
    exact ⟨rest, by simp, rfl⟩

theorem exists_of_append_cons_eq_concat {left right text : List Char}
    {mark character : Char} (filled : right ≠ [])
    (same : left ++ mark :: right = text ++ [character]) :
    ∃ rest, right = rest ++ [character] ∧ text = left ++ mark :: rest := by
  rw [List.append_cons] at same
  obtain ⟨rest, ends, rfl⟩ := exists_of_append_eq_concat filled same
  exact ⟨rest, ends, by simp⟩

theorem exists_of_append_eq_cons {left right text : List Char} {character : Char}
    (filled : left ≠ []) (same : left ++ right = character :: text) :
    ∃ rest, left = character :: rest ∧ text = rest ++ right := by
  obtain ⟨rfl, -⟩ | split := List.append_eq_cons_iff.mp same
  · exact (filled rfl).elim
  · exact split

/-- A blank in front of a derivable text can be taken away. -/
theorem Derives.of_blankBefore {phrase : Phrase} {text : List Char} {expression : Expression}
    (derivation : Derives phrase (' ' :: text) expression) :
    Derives phrase text expression := by
  generalize same : ' ' :: text = input at derivation
  induction derivation using Derives.byRule generalizing text with
  | blankBefore inner _ =>
      obtain ⟨-, rfl⟩ := List.cons_eq_cons.mp same
      exact inner
  | blankAfter inner ih =>
      obtain ⟨rest, start, rfl⟩ := exists_of_append_eq_cons inner.ne_nil same.symm
      exact (ih start.symm).blankAfter
  | quotient _ ih => exact (ih same).quotient
  | add first second ih _ =>
      obtain ⟨rest, start, rfl⟩ := exists_of_append_eq_cons first.ne_nil same.symm
      exact (ih start.symm).add second
  | signed _ ih => exact (ih same).signed
  | divide first second ih _ =>
      obtain ⟨rest, start, rfl⟩ := exists_of_append_eq_cons first.ne_nil same.symm
      exact (ih start.symm).divide second
  | selection _ ih => exact (ih same).selection
  | opposite _ _ => simp at same
  | primary _ ih => exact (ih same).primary
  | select inner isName ih =>
      obtain ⟨rest, start, rfl⟩ := exists_of_append_eq_cons inner.ne_nil same.symm
      exact (ih start.symm).select isName
  | reference isName =>
      have blank : ' ' ∉ _ := not_mem_name isName (by decide)
      simp [← same] at blank
  | number literal =>
      have blank : ' ' ∉ _ := not_mem_literal literal (by decide)
      simp [← same] at blank
  | parenthesized _ _ => simp at same
  | call isName _ =>
      rw [List.append_assoc] at same
      obtain ⟨rest, start, -⟩ := exists_of_append_eq_cons (name_ne_nil isName) same.symm
      have blank : ' ' ∉ _ := not_mem_name isName (by decide)
      simp [start] at blank

/-- A blank after a derivable text can be taken away. -/
theorem Derives.of_blankAfter {phrase : Phrase} {text : List Char} {expression : Expression}
    (derivation : Derives phrase (text ++ [' ']) expression) :
    Derives phrase text expression := by
  generalize same : text ++ [' '] = input at derivation
  induction derivation using Derives.byRule generalizing text with
  | blankBefore inner ih =>
      obtain ⟨rest, ends, rfl⟩ :=
        @exists_of_append_eq_concat [' '] _ _ _ inner.ne_nil same.symm
      exact (ih ends.symm).blankBefore
  | blankAfter inner _ =>
      obtain ⟨rfl, -⟩ := List.append_inj' same rfl
      exact inner
  | quotient _ ih => exact (ih same).quotient
  | add first second _ ih =>
      obtain ⟨rest, ends, rfl⟩ := exists_of_append_cons_eq_concat second.ne_nil same.symm
      exact first.add (ih ends.symm)
  | signed _ ih => exact (ih same).signed
  | divide first second _ ih =>
      obtain ⟨rest, ends, rfl⟩ := exists_of_append_cons_eq_concat second.ne_nil same.symm
      exact first.divide (ih ends.symm)
  | selection _ ih => exact (ih same).selection
  | opposite inner ih =>
      obtain ⟨rest, ends, rfl⟩ :=
        @exists_of_append_eq_concat ['-'] _ _ _ inner.ne_nil same.symm
      exact (ih ends.symm).opposite
  | primary _ ih => exact (ih same).primary
  | select inner isName ih =>
      obtain ⟨rest, ends, -⟩ :=
        exists_of_append_cons_eq_concat (name_ne_nil isName) same.symm
      have blank : ' ' ∉ _ := not_mem_name isName (by decide)
      simp [ends] at blank
  | reference isName =>
      have blank : ' ' ∉ _ := not_mem_name isName (by decide)
      simp [← same] at blank
  | number literal =>
      have blank : ' ' ∉ _ := not_mem_literal literal (by decide)
      simp [← same] at blank
  | parenthesized _ _ => simpa using List.append_inj' same rfl
  | call isName _ => simpa using List.append_inj' same rfl

/-! ## The last rule of a derivation -/

/-- A text with a character other than a digit. -/
theorem Derives.exists_not_digit {phrase : Phrase} {text : List Char}
    {expression : Expression} (derivation : Derives phrase text expression) :
    ∃ character ∈ text, character.isDigit = false := by
  induction derivation using Derives.byRule with
  | blankBefore => exact ⟨' ', by simp, rfl⟩
  | blankAfter => exact ⟨' ', by simp, rfl⟩
  | quotient _ ih | signed _ ih | selection _ ih | primary _ ih => exact ih
  | add => exact ⟨'+', by simp, rfl⟩
  | divide => exact ⟨'/', by simp, rfl⟩
  | opposite => exact ⟨'-', by simp, rfl⟩
  | select => exact ⟨'.', by simp, rfl⟩
  | reference isName =>
      obtain ⟨first, rest, text, start, -⟩ := isName
      exact ⟨first, by simp [text], isDigit_of_isNameStart start⟩
  | number literal => exact ⟨'.', literal.1, rfl⟩
  | parenthesized => exact ⟨'(', by simp, rfl⟩
  | call => exact ⟨'(', by simp, rfl⟩

/-- What derives a primary phrase does not end with a selection of components. -/
theorem Derives.not_primary_of_select {text front : List Char} {letters : String}
    {expression vector : Expression} (derivation : Derives .primary text expression)
    (same : text = front ++ '.' :: letters.toList) (isName : IsName letters)
    (selected : Derives .selection front vector) : False := by
  generalize phraseEq : Phrase.primary = phrase at derivation
  induction derivation using Derives.byRule generalizing front with
  | blankBefore inner ih =>
      obtain ⟨rest, rfl, rfl⟩ := exists_of_append_eq_cons selected.ne_nil same.symm
      exact ih rfl selected.of_blankBefore phraseEq
  | blankAfter inner _ =>
      obtain ⟨rest, ends, -⟩ :=
        exists_of_append_cons_eq_concat (name_ne_nil isName) same.symm
      have blank : ' ' ∉ _ := not_mem_name isName (by decide)
      simp [ends] at blank
  | quotient | add | signed | divide | selection | opposite | primary | select =>
      cases phraseEq
  | reference isName' =>
      have point : '.' ∉ _ := not_mem_name isName' (by decide)
      simp [same] at point
  | number literal =>
      -- the text in front of the only point would be digits alone
      obtain ⟨whole, rest, split, wholeDigits, restParts⟩ := literal.exists_point
      have noPoint : '.' ∉ rest := fun member => by cases restParts _ member
      have noPoint' : '.' ∉ letters.toList := not_mem_name isName (by decide)
      have wholeBalanced : Balanced whole :=
        .of_not_mem (fun member => by cases wholeDigits _ member)
          fun member => by cases wholeDigits _ member
      obtain ⟨rfl, -⟩ := Sealed.split_unique (by decide) (by decide) (split.symm.trans same)
        wholeBalanced.total selected.balanced.total (.of_not_mem noPoint)
        (.of_not_mem noPoint')
      obtain ⟨character, member, other⟩ := selected.exists_not_digit
      rw [wholeDigits character member] at other
      cases other
  | parenthesized inner _ =>
      obtain ⟨rest, ends, -⟩ :=
        exists_of_append_cons_eq_concat (name_ne_nil isName) same.symm
      have closing : ')' ∉ _ := not_mem_name isName (by decide)
      simp [ends] at closing
  | call isName' inner =>
      obtain ⟨rest, ends, -⟩ :=
        exists_of_append_cons_eq_concat (name_ne_nil isName) same.symm
      have closing : ')' ∉ _ := not_mem_name isName (by decide)
      simp [ends] at closing

theorem Derives.not_signed {text : List Char} {expression : Expression}
    (derivation : Derives .selection ('-' :: text) expression) : False := by
  generalize same : '-' :: text = input at derivation
  generalize phraseEq : Phrase.selection = phrase at derivation
  have primary : phrase = .selection ∨ phrase = .primary := .inl phraseEq.symm
  clear phraseEq
  induction derivation using Derives.byRule generalizing text with
  | blankBefore _ _ => simp at same
  | blankAfter inner ih =>
      obtain ⟨rest, start, -⟩ := exists_of_append_eq_cons inner.ne_nil same.symm
      exact ih start.symm primary
  | quotient | add | signed | divide | selection | opposite => simp at primary
  | primary _ ih => exact ih same (.inr rfl)
  | select inner isName ih =>
      obtain ⟨rest, start, -⟩ := exists_of_append_eq_cons inner.ne_nil same.symm
      exact ih start.symm (.inl rfl)
  | reference isName =>
      have sign : '-' ∉ _ := not_mem_name isName (by decide)
      simp [← same] at sign
  | number literal =>
      obtain ⟨whole, rest, split, wholeDigits, -⟩ := literal.exists_point
      cases whole with
      | nil => simp [split] at same
      | cons first others =>
          obtain ⟨rfl, -⟩ := List.cons_eq_cons.mp (same.trans split)
          cases wholeDigits '-' List.mem_cons_self
  | parenthesized _ _ => simp at same
  | call isName _ =>
      rw [List.append_assoc] at same
      obtain ⟨rest, start, -⟩ := exists_of_append_eq_cons (name_ne_nil isName) same.symm
      have sign : '-' ∉ _ := not_mem_name isName (by decide)
      simp [start] at sign

/-- A phrase that consists of another phrase or is built by a rule of its own. -/
inductive Phrase.Contains : Phrase → Phrase → Prop
  | quotient : Contains .sum .quotient
  | signed : Contains .quotient .signed
  | selection : Contains .signed .selection
  | primary : Contains .selection .primary

/-- Where a text derives a tighter phrase, it derives no expression in any other way. -/
theorem Derives.tighten {loose tight : Phrase} {text : List Char}
    {expression other : Expression} (derivation : Derives loose text expression)
    (plain : PlainExponents text) (contains : loose.Contains tight)
    (tighter : Derives tight text other) : Derives tight text expression := by
  induction derivation using Derives.byRule with
  | blankBefore _ ih => exact (ih plain.tail contains tighter.of_blankBefore).blankBefore
  | blankAfter _ ih => exact (ih plain.left contains tighter.of_blankAfter).blankAfter
  | quotient inner _ | signed inner _ | selection inner _ | primary inner _ =>
      cases contains
      exact inner
  | add first _ _ _ =>
      cases contains
      have inside := tighter.sealed plain (.inr (.inl ⟨rfl, by decide⟩)) _ _ rfl
      rw [first.balanced.total] at inside
      cases inside
  | divide first _ _ _ =>
      cases contains
      have inside := tighter.sealed plain (.inr (.inr ⟨rfl, by decide⟩)) _ _ rfl
      rw [first.balanced.total] at inside
      cases inside
  | opposite _ _ =>
      cases contains
      exact tighter.not_signed.elim
  | select inner isName _ =>
      cases contains
      exact (tighter.not_primary_of_select rfl isName inner).elim
  | reference | number | parenthesized | call => cases contains

/-- An operator between two phrases. -/
inductive Phrase.Joins :
    Phrase → Char → Phrase → (Expression → Expression → Expression) → Prop
  | sum : Joins .sum '+' .quotient .sum
  | quotient : Joins .quotient '/' .signed .quotient

/-- The last operator outside of all parentheses is the operator of the last rule. -/
theorem Derives.of_joins {loose tight : Phrase} {mark : Char}
    {build : Expression → Expression → Expression} {left right : List Char}
    {expression : Expression} (joins : loose.Joins mark tight build)
    (derivation : Derives loose (left ++ mark :: right) expression)
    (plain : PlainExponents (left ++ mark :: right)) (leftBalanced : excess left = 0)
    (rightSealed : Sealed mark right) :
    ∃ first second, expression = build first second ∧
      Derives loose left first ∧ Derives tight right second := by
  generalize same : left ++ mark :: right = input at derivation
  have notBlank : mark ≠ ' ' := by
    cases joins <;> decide
  induction derivation using Derives.byRule generalizing left right with
  | blankBefore inner ih =>
      have filled : left ≠ [] := by
        rintro rfl
        exact notBlank (List.cons_eq_cons.mp same).1
      obtain ⟨rest, rfl, rfl⟩ := exists_of_append_eq_cons filled same
      rw [excess_cons_of_ne (by decide) (by decide)] at leftBalanced
      obtain ⟨first, second, rfl, firstDerives, secondDerives⟩ :=
        ih joins plain.tail leftBalanced rightSealed rfl
      exact ⟨first, second, rfl, firstDerives.blankBefore, secondDerives⟩
  | blankAfter inner ih =>
      have filled : right ≠ [] := by
        rintro rfl
        exact notBlank (List.cons_eq_cons.mp (List.append_inj' same rfl).2).1
      obtain ⟨rest, rfl, rfl⟩ := exists_of_append_cons_eq_concat filled same
      rw [List.append_cons, ← List.append_assoc, ← List.append_cons] at plain
      obtain ⟨first, second, rfl, firstDerives, secondDerives⟩ :=
        ih joins plain.left leftBalanced rightSealed.left rfl
      exact ⟨first, second, rfl, firstDerives, secondDerives.blankAfter⟩
  | quotient inner _ =>
      cases joins
      subst same
      have inside := inner.sealed plain (.inr (.inl ⟨rfl, by decide⟩)) _ _ rfl
      rw [leftBalanced] at inside
      cases inside
  | add first second _ _ =>
      cases joins
      have secondSealed : Sealed '+' _ := second.sealed (same ▸ plain).right.tail
        (.inr (.inl ⟨rfl, by decide⟩))
      obtain ⟨rfl, rfl⟩ := Sealed.split_unique (by decide) (by decide) same leftBalanced
        first.balanced.total rightSealed secondSealed
      exact ⟨_, _, rfl, first, second⟩
  | signed inner _ =>
      cases joins
      subst same
      have inside := inner.sealed plain (.inr (.inr ⟨rfl, by decide⟩)) _ _ rfl
      rw [leftBalanced] at inside
      cases inside
  | divide first second _ _ =>
      cases joins
      have secondSealed : Sealed '/' _ := second.sealed (same ▸ plain).right.tail
        (.inr (.inr ⟨rfl, by decide⟩))
      obtain ⟨rfl, rfl⟩ := Sealed.split_unique (by decide) (by decide) same leftBalanced
        first.balanced.total rightSealed secondSealed
      exact ⟨_, _, rfl, first, second⟩
  | selection | opposite | primary | select | reference | number | parenthesized | call =>
      cases joins

theorem Derives.of_opposite {text : List Char} {expression : Expression}
    (derivation : Derives .signed ('-' :: text) expression) :
    ∃ operand, expression = .opposite operand ∧ Derives .signed text operand := by
  generalize same : '-' :: text = input at derivation
  generalize phraseEq : Phrase.signed = phrase at derivation
  induction derivation using Derives.byRule generalizing text with
  | blankBefore _ _ => simp at same
  | blankAfter inner ih =>
      subst phraseEq
      obtain ⟨rest, start, rfl⟩ := exists_of_append_eq_cons inner.ne_nil same.symm
      obtain ⟨operand, rfl, derives⟩ := ih start.symm rfl
      exact ⟨operand, rfl, derives.blankAfter⟩
  | selection inner _ =>
      subst same
      exact inner.not_signed.elim
  | opposite inner _ =>
      obtain ⟨-, rfl⟩ := List.cons_eq_cons.mp same
      exact ⟨_, rfl, inner⟩
  | quotient | add | signed | divide | primary | select | reference | number
  | parenthesized | call => cases phraseEq

theorem Derives.of_select {text : List Char} {letters : String}
    {expression vector : Expression} (isName : IsName letters)
    (derivation : Derives .selection (text ++ '.' :: letters.toList) expression)
    (selected : Derives .selection text vector) :
    ∃ other, expression = .components other letters ∧ Derives .selection text other := by
  generalize same : text ++ '.' :: letters.toList = input at derivation
  generalize phraseEq : Phrase.selection = phrase at derivation
  induction derivation using Derives.byRule generalizing text with
  | blankBefore _ ih =>
      subst phraseEq
      obtain ⟨rest, rfl, rfl⟩ := exists_of_append_eq_cons selected.ne_nil same
      obtain ⟨other, rfl, derives⟩ := ih selected.of_blankBefore rfl rfl
      exact ⟨other, rfl, derives.blankBefore⟩
  | blankAfter _ _ =>
      obtain ⟨rest, ends, -⟩ := exists_of_append_cons_eq_concat (name_ne_nil isName) same
      have blank : ' ' ∉ _ := not_mem_name isName (by decide)
      simp [ends] at blank
  | primary inner _ => exact (inner.not_primary_of_select same.symm isName selected).elim
  | select inner isName' _ =>
      obtain ⟨rfl, names⟩ := Sealed.split_unique (by decide) (by decide) same
        selected.balanced.total inner.balanced.total
        (.of_not_mem (not_mem_name isName (by decide)))
        (.of_not_mem (not_mem_name isName' (by decide)))
      rw [String.toList_inj.mp names]
      exact ⟨_, rfl, inner⟩
  | quotient | add | signed | divide | selection | opposite | reference | number
  | parenthesized | call => cases phraseEq

/-! ## Uniqueness -/

theorem IsLiteral.unique {text : List Char} {left right : Float}
    (leftLiteral : IsLiteral text left) (rightLiteral : IsLiteral text right) :
    left = right := by
  obtain ⟨-, found, reads, -, rfl⟩ := leftLiteral
  obtain ⟨-, found', reads', -, rfl⟩ := rightLiteral
  rw [reads] at reads'
  cases reads'
  rfl

theorem IsLiteral.not_isNameStart {first : Char} {rest : List Char} {value : Float}
    (literal : IsLiteral (first :: rest) value) : isNameStart first = false := by
  obtain ⟨whole, others, split, wholeDigits, -⟩ := literal.exists_point
  cases whole with
  | nil =>
      obtain ⟨rfl, -⟩ := List.cons_eq_cons.mp split
      rfl
  | cons digit whole =>
      obtain ⟨rfl, -⟩ := List.cons_eq_cons.mp split
      by_contra start
      rw [Bool.not_eq_false] at start
      have digit := wholeDigits first List.mem_cons_self
      rw [isDigit_of_isNameStart start] at digit
      cases digit

theorem not_isLiteral_of_isName {name : String} (isName : IsName name) {value : Float} :
    ¬IsLiteral name.toList value := by
  obtain ⟨first, rest, text, start, -⟩ := isName
  rw [text]
  intro literal
  rw [literal.not_isNameStart] at start
  cases start

theorem getLast?_closing (text : List Char) : (text ++ [')']).getLast? ≠ some ' ' := by
  simp

/-- The four forms of a primary phrase with no blank at either end. -/
theorem Derives.primary_cases {text : List Char} {expression : Expression}
    (derivation : Derives .primary text expression) (front : text.head? ≠ some ' ')
    (back : text.getLast? ≠ some ' ') :
    (∃ name, IsName name ∧ text = name.toList ∧ expression = .reference name) ∨
      (∃ value, IsLiteral text value ∧ expression = .number value) ∨
      (∃ inner, text = '(' :: inner ++ [')'] ∧ Derives .sum inner expression) ∨
      ∃ name inner arguments, IsName name ∧ text = name.toList ++ '(' :: inner ++ [')'] ∧
        DerivesAll inner arguments ∧ expression = .call name arguments := by
  cases derivation with
  | blankBefore _ => simp at front
  | blankAfter _ => simp at back
  | reference isName => exact .inl ⟨_, isName, rfl, rfl⟩
  | number literal => exact .inr (.inl ⟨_, literal, rfl⟩)
  | parenthesized inner => exact .inr (.inr (.inl ⟨_, rfl, inner⟩))
  | call isName inner => exact .inr (.inr (.inr ⟨_, _, _, isName, rfl, inner, rfl⟩))

theorem head?_ne_of_not_mem {text : List Char} {character : Char}
    (absent : character ∉ text) : text.head? ≠ some character := by
  intro first
  exact absent (List.mem_of_head? first)

theorem getLast?_ne_of_not_mem {text : List Char} {character : Char}
    (absent : character ∉ text) : text.getLast? ≠ some character := by
  intro last
  exact absent (List.mem_of_getLast? last)

theorem Derives.of_reference {name : String} (isName : IsName name) {expression : Expression}
    (derivation : Derives .primary name.toList expression) :
    expression = .reference name := by
  have blank : ' ' ∉ name.toList := not_mem_name isName (by decide)
  have opening : '(' ∉ name.toList := not_mem_name isName (by decide)
  obtain ⟨other, -, same, rfl⟩ | ⟨value, literal, -⟩ | ⟨inner, same, -⟩ |
      ⟨other, inner, arguments, -, same, -⟩ :=
    derivation.primary_cases (head?_ne_of_not_mem blank) (getLast?_ne_of_not_mem blank)
  · rw [String.toList_inj.mp same]
  · exact (not_isLiteral_of_isName isName literal).elim
  · simp [same] at opening
  · simp [same] at opening

theorem Derives.of_number {text : List Char} {value : Float} (literal : IsLiteral text value)
    {expression : Expression} (derivation : Derives .primary text expression) :
    expression = .number value := by
  have blank : ' ' ∉ text := not_mem_literal literal (by decide)
  have opening : '(' ∉ text := not_mem_literal literal (by decide)
  obtain ⟨name, isName, rfl, -⟩ | ⟨other, otherLiteral, rfl⟩ | ⟨inner, rfl, -⟩ |
      ⟨name, inner, arguments, -, rfl, -⟩ :=
    derivation.primary_cases (head?_ne_of_not_mem blank) (getLast?_ne_of_not_mem blank)
  · exact (not_isLiteral_of_isName isName literal).elim
  · rw [literal.unique otherLiteral]
  · simp at opening
  · simp at opening

theorem Derives.of_parenthesized {text : List Char} {expression : Expression}
    (derivation : Derives .primary ('(' :: text ++ [')']) expression) :
    Derives .sum text expression := by
  obtain ⟨name, isName, same, -⟩ | ⟨value, literal, -⟩ | ⟨inner, same, derives⟩ |
      ⟨name, inner, arguments, isName, same, -⟩ :=
    derivation.primary_cases (by simp) (getLast?_closing _)
  · have opening : '(' ∉ name.toList := not_mem_name isName (by decide)
    simp [← same] at opening
  · have opening : '(' ∉ _ := not_mem_literal literal (by decide)
    simp at opening
  · obtain ⟨same, -⟩ := List.append_inj' same rfl
    obtain ⟨-, rfl⟩ := List.cons_eq_cons.mp same
    exact derives
  · rw [List.append_assoc, List.cons_append] at same
    obtain ⟨rest, start, -⟩ := exists_of_append_eq_cons (name_ne_nil isName) same.symm
    have opening : '(' ∉ name.toList := not_mem_name isName (by decide)
    simp [start] at opening

theorem Derives.of_call {name : String} (isName : IsName name) {text : List Char}
    {expression : Expression}
    (derivation : Derives .primary (name.toList ++ '(' :: text ++ [')']) expression) :
    ∃ arguments, expression = .call name arguments ∧ DerivesAll text arguments := by
  have opening : ∀ {name : String}, IsName name → '(' ∉ name.toList :=
    fun isName => not_mem_name isName (by decide)
  have front : (name.toList ++ '(' :: text ++ [')']).head? ≠ some ' ' := by
    obtain ⟨first, rest, spelled, start, -⟩ := isName
    rw [spelled]
    rintro ⟨⟩
    cases start
  obtain ⟨other, isName', same, -⟩ | ⟨value, literal, -⟩ | ⟨inner, same, -⟩ |
      ⟨other, inner, arguments, isName', same, derives, rfl⟩ :=
    derivation.primary_cases front (getLast?_closing _)
  · have absent := opening isName'
    simp [← same] at absent
  · have absent : '(' ∉ _ := not_mem_literal literal (by decide)
    simp at absent
  · rw [List.append_assoc, List.cons_append] at same
    obtain ⟨rest, start, -⟩ := exists_of_append_eq_cons (name_ne_nil isName) same
    have absent := opening isName
    simp [start] at absent
  · have flat : ∀ {name : String}, IsName name → excess name.toList = 0 := fun isName =>
      (Derives.reference isName).balanced.total
    obtain ⟨same, -⟩ := List.append_inj' same rfl
    obtain ⟨names, rfl⟩ := Sealed.split_unique_left same (flat isName) (flat isName')
      (.of_not_mem (opening isName)) (.of_not_mem (opening isName'))
    exact ⟨arguments, by rw [String.toList_inj.mp names], derives⟩

theorem DerivesAll.of_sum {text : List Char} {expressions : List Expression}
    {expression : Expression} (derivation : DerivesAll text expressions)
    (plain : PlainExponents text) (single : Derives .sum text expression) :
    ∃ other, expressions = [other] ∧ Derives .sum text other := by
  cases derivation with
  | one inner => exact ⟨_, rfl, inner⟩
  | more first _ =>
      have inside := single.sealed plain (.inl rfl) _ _ rfl
      rw [first.balanced.total] at inside
      cases inside

theorem DerivesAll.of_comma {left right : List Char} {expressions : List Expression}
    {expression : Expression} (derivation : DerivesAll (left ++ ',' :: right) expressions)
    (plain : PlainExponents (left ++ ',' :: right)) (first : Derives .sum left expression) :
    ∃ other others, expressions = other :: others ∧ Derives .sum left other ∧
      DerivesAll right others := by
  generalize same : left ++ ',' :: right = text at derivation
  cases derivation with
  | one inner =>
      have inside := inner.sealed (same ▸ plain) (.inl rfl) left right same.symm
      rw [first.balanced.total] at inside
      cases inside
  | more otherFirst otherRest =>
      obtain ⟨rfl, rfl⟩ := Sealed.split_unique_left same first.balanced.total
        otherFirst.balanced.total (first.sealed plain.left (.inl rfl))
        (otherFirst.sealed (same ▸ plain).left (.inl rfl))
      exact ⟨_, _, rfl, otherFirst, otherRest⟩

mutual
/-- A text derives one expression at most. -/
theorem Derives.unique {phrase : Phrase} {text : List Char} {left right : Expression} :
    Derives phrase text left → PlainExponents text → Derives phrase text right →
      right = left
  | .blankBefore inner, plain, other => inner.unique plain.tail other.of_blankBefore
  | .blankAfter inner, plain, other => inner.unique plain.left other.of_blankAfter
  | .quotient inner, plain, other =>
      inner.unique plain (other.tighten plain .quotient inner)
  | .add first second, plain, other => by
      obtain ⟨left, right, rfl, firstOther, secondOther⟩ := other.of_joins .sum plain
        first.balanced.total (second.sealed plain.right.tail (.inr (.inl ⟨rfl, by decide⟩)))
      rw [first.unique plain.left firstOther, second.unique plain.right.tail secondOther]
  | .signed inner, plain, other => inner.unique plain (other.tighten plain .signed inner)
  | .divide first second, plain, other => by
      obtain ⟨left, right, rfl, firstOther, secondOther⟩ := other.of_joins .quotient plain
        first.balanced.total (second.sealed plain.right.tail (.inr (.inr ⟨rfl, by decide⟩)))
      rw [first.unique plain.left firstOther, second.unique plain.right.tail secondOther]
  | .selection inner, plain, other =>
      inner.unique plain (other.tighten plain .selection inner)
  | .opposite inner, plain, other => by
      obtain ⟨operand, rfl, operandOther⟩ := other.of_opposite
      rw [inner.unique plain.tail operandOther]
  | .primary inner, plain, other => inner.unique plain (other.tighten plain .primary inner)
  | .select inner isName, plain, other => by
      obtain ⟨vector, rfl, vectorOther⟩ := other.of_select isName inner
      rw [inner.unique plain.left vectorOther]
  | .reference isName, _, other => other.of_reference isName
  | .number literal, _, other => other.of_number literal
  | .parenthesized inner, plain, other =>
      inner.unique plain.left.tail other.of_parenthesized
  | .call isName arguments, plain, other => by
      obtain ⟨otherArguments, rfl, derives⟩ := other.of_call isName
      rw [arguments.unique plain.left.right.tail derives]

/-- A text derives one list of expressions at most. -/
theorem DerivesAll.unique {text : List Char} {left right : List Expression} :
    DerivesAll text left → PlainExponents text → DerivesAll text right → right = left
  | .one inner, plain, other => by
      obtain ⟨expression, rfl, single⟩ := other.of_sum plain inner
      rw [inner.unique plain single]
  | .more first others, plain, other => by
      obtain ⟨expression, rest, rfl, otherFirst, otherRest⟩ := other.of_comma plain first
      rw [first.unique plain.left otherFirst, others.unique plain.right.tail otherRest]
end

end Stereograph.Shader
