import Mathlib.Data.List.TakeWhile
import Stereograph.Decimal.Literal

/-!
# Spelling of literals

The texts of unsigned decimal literals, as a relation that knows nothing of how a
literal is read.  Reading finds the longest text of the relation at the front of its
input, and the numeral that it spells.
-/

namespace Stereograph.Decimal

/-- A text of digits that is not empty. -/
structure IsDigits (text : List Char) : Prop where
  ne_nil : text ≠ []
  isDigit : ∀ character ∈ text, character.isDigit = true

/-- The exponents of ten that may follow the digits of a literal. -/
inductive SpellsExponent : List Char → Int → Prop
  | absent : SpellsExponent [] 0
  | unsigned {mark digits} (isMark : mark = 'e' ∨ mark = 'E') (isDigits : IsDigits digits) :
      SpellsExponent (mark :: digits) (Numeral.ofDigits digits)
  | plus {mark digits} (isMark : mark = 'e' ∨ mark = 'E') (isDigits : IsDigits digits) :
      SpellsExponent (mark :: '+' :: digits) (Numeral.ofDigits digits)
  | minus {mark digits} (isMark : mark = 'e' ∨ mark = 'E') (isDigits : IsDigits digits) :
      SpellsExponent (mark :: '-' :: digits) (-(Numeral.ofDigits digits : Int))

/-- The texts of literals and the numerals that they spell. -/
inductive Spells : List Char → Numeral → Prop
  | whole {digits exponentText exponent} (isDigits : IsDigits digits)
      (tail : SpellsExponent exponentText exponent) :
      Spells (digits ++ exponentText) ⟨Numeral.ofDigits digits, exponent⟩
  | pointed {whole fraction exponentText exponent} (isDigits : IsDigits (whole ++ fraction))
      (tail : SpellsExponent exponentText exponent) :
      Spells (whole ++ '.' :: (fraction ++ exponentText))
        ⟨Numeral.ofDigits (whole ++ fraction), exponent - fraction.length⟩

theorem take_length_takeWhile {α : Type} (property : α → Bool) (text : List α) :
    text.take (text.takeWhile property).length = text.takeWhile property :=
  (List.prefix_iff_eq_take.mp (List.takeWhile_prefix property)).symm

theorem isDigits_takeWhile {text : List Char}
    (filled : text.takeWhile Char.isDigit ≠ []) :
    IsDigits (text.takeWhile Char.isDigit) :=
  ⟨filled, fun _ member => List.mem_takeWhile_imp member⟩

theorem IsDigits.append_head?_ne {digits : List Char} (isDigits : IsDigits digits)
    {character : Char} (other : character.isDigit = false) {rest : List Char} :
    (digits ++ rest).head? ≠ some character := by
  obtain ⟨ne_nil, isDigit⟩ := isDigits
  cases digits with
  | nil => exact (ne_nil rfl).elim
  | cons first others =>
      rintro ⟨⟩
      rw [isDigit _ List.mem_cons_self] at other
      cases other

theorem IsDigits.head?_ne {digits : List Char} (isDigits : IsDigits digits)
    {character : Char} (other : character.isDigit = false) :
    digits.head? ≠ some character := by
  simpa using @IsDigits.append_head?_ne digits isDigits character other []

theorem IsDigits.not_mem {digits : List Char} (isDigits : IsDigits digits) {character : Char}
    (other : character.isDigit = false) : character ∉ digits := by
  intro member
  rw [isDigits.isDigit character member] at other
  cases other

namespace Literal

/-! ## Reading an exponent -/

section Exponent

variable {mark : Char} (isMark : mark = 'e' ∨ mark = 'E') (rest : List Char)

include isMark

theorem exponentOf_minus :
    exponentOf (mark :: '-' :: rest) =
      if rest.takeWhile Char.isDigit = [] then (0, 0)
      else (-(Numeral.ofDigits (rest.takeWhile Char.isDigit) : Int),
        (rest.takeWhile Char.isDigit).length + 2) := by
  rw [exponentOf, if_pos isMark]
  simp only [List.isEmpty_iff, ↓reduceIte, List.length_cons]
  split
  · rfl
  · congr 1
    omega

theorem exponentOf_plus :
    exponentOf (mark :: '+' :: rest) =
      if rest.takeWhile Char.isDigit = [] then (0, 0)
      else ((Numeral.ofDigits (rest.takeWhile Char.isDigit) : Int),
        (rest.takeWhile Char.isDigit).length + 2) := by
  rw [exponentOf, if_pos isMark]
  simp only [List.isEmpty_iff, Bool.false_eq_true, ↓reduceIte, List.length_cons]
  split
  · rfl
  · congr 1
    omega

theorem exponentOf_unsigned (minus : rest.head? ≠ some '-') (plus : rest.head? ≠ some '+') :
    exponentOf (mark :: rest) =
      if rest.takeWhile Char.isDigit = [] then (0, 0)
      else ((Numeral.ofDigits (rest.takeWhile Char.isDigit) : Int),
        (rest.takeWhile Char.isDigit).length + 1) := by
  rw [exponentOf, if_pos isMark]
  · simp only [List.isEmpty_iff, Bool.false_eq_true, ↓reduceIte]
    split
    · rfl
    · congr 1
      omega
  · rintro _ rfl
    exact minus rfl
  · rintro _ rfl
    exact plus rfl

end Exponent

/-- The exponent that is read is spelled by the characters it takes up. -/
theorem spellsExponent_exponentOf (text : List Char) :
    (exponentOf text).2 ≤ text.length ∧
      SpellsExponent (text.take (exponentOf text).2) (exponentOf text).1 := by
  cases text with
  | nil => exact ⟨Nat.le_refl 0, .absent⟩
  | cons mark rest =>
      by_cases isMark : mark = 'e' ∨ mark = 'E'
      · by_cases minus : rest.head? = some '-'
        · obtain ⟨digits, rfl⟩ := List.head?_eq_some_iff.mp minus
          rw [exponentOf_minus isMark]
          split
          · exact ⟨Nat.zero_le _, .absent⟩
          · rename_i filled
            simp only [List.take_succ_cons, take_length_takeWhile]
            exact ⟨Nat.add_le_add_right (List.takeWhile_prefix _).length_le 2,
              .minus isMark (isDigits_takeWhile filled)⟩
        · by_cases plus : rest.head? = some '+'
          · obtain ⟨digits, rfl⟩ := List.head?_eq_some_iff.mp plus
            rw [exponentOf_plus isMark]
            split
            · exact ⟨Nat.zero_le _, .absent⟩
            · rename_i filled
              simp only [List.take_succ_cons, take_length_takeWhile]
              exact ⟨Nat.add_le_add_right (List.takeWhile_prefix _).length_le 2,
                .plus isMark (isDigits_takeWhile filled)⟩
          · rw [exponentOf_unsigned isMark rest minus plus]
            split
            · exact ⟨Nat.zero_le _, .absent⟩
            · rename_i filled
              simp only [List.take_succ_cons, take_length_takeWhile]
              exact ⟨Nat.add_le_add_right (List.takeWhile_prefix _).length_le 1,
                .unsigned isMark (isDigits_takeWhile filled)⟩
      · simp only [exponentOf, if_neg isMark]
        exact ⟨Nat.zero_le _, .absent⟩

theorem exponentOf_of_spellsExponent {text : List Char} {exponent : Int}
    (spelled : SpellsExponent text exponent) : exponentOf text = (exponent, text.length) := by
  have whole : ∀ {digits : List Char}, IsDigits digits →
      digits.takeWhile Char.isDigit = digits :=
    fun isDigits => List.takeWhile_eq_self_iff.mpr isDigits.isDigit
  cases spelled with
  | absent => rfl
  | unsigned isMark isDigits =>
      rw [exponentOf_unsigned isMark _ (isDigits.head?_ne (by decide))
        (isDigits.head?_ne (by decide)), whole isDigits, if_neg isDigits.ne_nil]
      rfl
  | plus isMark isDigits =>
      rw [exponentOf_plus isMark, whole isDigits, if_neg isDigits.ne_nil]
      rfl
  | minus isMark isDigits =>
      rw [exponentOf_minus isMark, whole isDigits, if_neg isDigits.ne_nil]
      rfl

/-- An exponent at the front of a text is read to its end at least. -/
theorem length_le_exponentOf {text : List Char} {exponent : Int}
    (spelled : SpellsExponent text exponent) (rest : List Char) :
    text.length ≤ (exponentOf (text ++ rest)).2 := by
  have taken : ∀ {digits : List Char}, IsDigits digits →
      (digits ++ rest).takeWhile Char.isDigit = digits ++ rest.takeWhile Char.isDigit :=
    fun isDigits => List.takeWhile_append_of_pos isDigits.isDigit
  cases spelled with
  | absent => exact Nat.zero_le _
  | unsigned isMark isDigits =>
      rw [List.cons_append, exponentOf_unsigned isMark _
        (isDigits.append_head?_ne (by decide)) (isDigits.append_head?_ne (by decide)),
        taken isDigits]
      simp [isDigits.ne_nil]
  | plus isMark isDigits =>
      rw [List.cons_append, List.cons_append, exponentOf_plus isMark, taken isDigits]
      simp [isDigits.ne_nil]
  | minus isMark isDigits =>
      rw [List.cons_append, List.cons_append, exponentOf_minus isMark, taken isDigits]
      simp [isDigits.ne_nil]

/-! ## Reading a literal -/

/-- The next character, if there is one, is no digit. -/
def StopsDigits (text : List Char) : Prop :=
  ∀ character, text.head? = some character → character.isDigit = false

theorem stopsDigits_dropWhile (text : List Char) :
    StopsDigits (text.dropWhile Char.isDigit) := by
  intro character first
  have stops := List.head?_dropWhile_not Char.isDigit text
  rw [first] at stops
  simpa using stops

theorem StopsDigits.takeWhile_append {digits tail : List Char} (stops : StopsDigits tail)
    (isDigit : ∀ digit ∈ digits, digit.isDigit = true) :
    (digits ++ tail).takeWhile Char.isDigit = digits := by
  rw [List.takeWhile_append_of_pos isDigit]
  cases tail with
  | nil => simp
  | cons first others => simp [stops first rfl]

theorem StopsDigits.dropWhile_append {digits tail : List Char} (stops : StopsDigits tail)
    (isDigit : ∀ digit ∈ digits, digit.isDigit = true) :
    (digits ++ tail).dropWhile Char.isDigit = tail := by
  rw [List.dropWhile_append_of_pos isDigit]
  cases tail with
  | nil => rfl
  | cons first others => simp [stops first rfl]

theorem read?_pointed {whole fraction tail : List Char}
    (wholeDigits : ∀ digit ∈ whole, digit.isDigit = true)
    (fractionDigits : ∀ digit ∈ fraction, digit.isDigit = true)
    (stops : StopsDigits tail) :
    read? (whole ++ '.' :: (fraction ++ tail)) =
      if whole ++ fraction = [] then none
      else some (assemble whole fraction (whole.length + 1 + fraction.length) tail) := by
  have point : StopsDigits ('.' :: (fraction ++ tail)) := by
    rintro character ⟨⟩
    rfl
  simp only [read?, point.takeWhile_append wholeDigits, point.dropWhile_append wholeDigits,
    stops.takeWhile_append fractionDigits, stops.dropWhile_append fractionDigits,
    Bool.and_eq_true, List.isEmpty_iff, List.append_eq_nil_iff]

theorem read?_whole {digits tail : List Char}
    (isDigit : ∀ digit ∈ digits, digit.isDigit = true) (stops : StopsDigits tail)
    (point : tail.head? ≠ some '.') :
    read? (digits ++ tail) =
      if digits = [] then none else some (assemble digits [] digits.length tail) := by
  simp only [read?, stops.takeWhile_append isDigit, stops.dropWhile_append isDigit,
    List.isEmpty_iff]
  cases tail with
  | nil => rfl
  | cons first others =>
      split
      · simp_all
      · rfl

/-- What is read at the front of a text is spelled there. -/
theorem spells_of_read? {text : List Char} {literal : Literal}
    (found : read? text = some literal) :
    literal.length ≤ text.length ∧ Spells (text.take literal.length) literal.numeral := by
  obtain ⟨whole, tail, rfl, wholeDigits, stops⟩ :
      ∃ whole tail, text = whole ++ tail ∧
        (∀ digit ∈ whole, digit.isDigit = true) ∧ StopsDigits tail :=
    ⟨_, _, List.takeWhile_append_dropWhile.symm, fun _ => List.mem_takeWhile_imp,
      stopsDigits_dropWhile text⟩
  by_cases point : tail.head? = some '.'
  · obtain ⟨rest, rfl⟩ := List.head?_eq_some_iff.mp point
    obtain ⟨fraction, tail, rfl, fractionDigits, stops⟩ :
        ∃ fraction tail, rest = fraction ++ tail ∧
          (∀ digit ∈ fraction, digit.isDigit = true) ∧ StopsDigits tail :=
      ⟨_, _, List.takeWhile_append_dropWhile.symm, fun _ => List.mem_takeWhile_imp,
        stopsDigits_dropWhile rest⟩
    rw [read?_pointed wholeDigits fractionDigits stops] at found
    split at found
    · cases found
    · rename_i filled
      cases found
      obtain ⟨bound, exponentText⟩ := spellsExponent_exponentOf tail
      constructor
      · simp [assemble]
        omega
      · have taken : (whole ++ '.' :: (fraction ++ tail)).take
            (whole.length + 1 + fraction.length + (exponentOf tail).2) =
            whole ++ '.' :: (fraction ++ tail.take (exponentOf tail).2) := by
          have size : whole.length + 1 + fraction.length + (exponentOf tail).2 =
              whole.length + (fraction.length + (exponentOf tail).2 + 1) := by
            omega
          rw [size, List.take_length_add_append, List.take_succ_cons,
            List.take_length_add_append]
        simp only [assemble]
        rw [taken]
        refine .pointed ⟨filled, ?_⟩ exponentText
        intro digit member
        exact (List.mem_append.mp member).elim (wholeDigits digit) (fractionDigits digit)
  · rw [read?_whole wholeDigits stops point] at found
    split at found
    · cases found
    · rename_i filled
      cases found
      obtain ⟨bound, exponentText⟩ := spellsExponent_exponentOf tail
      constructor
      · simp [assemble]
        omega
      · simp only [assemble, List.append_nil, List.length_nil]
        rw [List.take_length_add_append]
        simpa using Spells.whole ⟨filled, wholeDigits⟩ exponentText

/-- Neither a digit nor a point follows the digits of a literal with an exponent, or of
one that ends its text. -/
theorem stops_of_spellsExponent {text rest : List Char} {exponent : Int}
    (spelled : SpellsExponent text exponent) (ends : text ≠ [] ∨ rest = []) :
    StopsDigits (text ++ rest) ∧ (text ++ rest).head? ≠ some '.' := by
  have marked : ∀ {mark : Char} {others : List Char}, mark = 'e' ∨ mark = 'E' →
      StopsDigits (mark :: others) ∧ (mark :: others).head? ≠ some '.' := by
    rintro mark others (rfl | rfl)
    all_goals
      refine ⟨?_, by simp⟩
      rintro character ⟨⟩
      rfl
  cases spelled with
  | absent =>
      obtain filled | rfl := ends
      · exact (filled rfl).elim
      · constructor
        · rintro character ⟨⟩
        · rintro ⟨⟩
  | unsigned isMark _ => exact marked isMark
  | plus isMark _ => exact marked isMark
  | minus isMark _ => exact marked isMark

/-- A text that spells a literal is read as that literal. -/
theorem read?_of_spells {text : List Char} {numeral : Numeral}
    (spelled : Spells text numeral) : read? text = some ⟨numeral, text.length⟩ := by
  cases spelled with
  | whole isDigits tail =>
      obtain ⟨stops, point⟩ := stops_of_spellsExponent tail (.inr rfl)
      rw [List.append_nil] at stops point
      rw [read?_whole isDigits.isDigit stops point, if_neg isDigits.ne_nil]
      simp [assemble, exponentOf_of_spellsExponent tail]
  | @pointed whole fraction _ _ isDigits tail =>
      obtain ⟨stops, -⟩ := stops_of_spellsExponent tail (.inr rfl)
      rw [List.append_nil] at stops
      rw [read?_pointed (fun _ member => isDigits.isDigit _ (List.mem_append_left _ member))
        (fun _ member => isDigits.isDigit _ (List.mem_append_right _ member)) stops,
        if_neg isDigits.ne_nil]
      simp [assemble, exponentOf_of_spellsExponent tail]
      omega

/-- Digits are part of the literal that starts with them. -/
theorem exists_read?_digits {digits : List Char} (isDigits : IsDigits digits)
    (rest : List Char) :
    ∃ literal, read? (digits ++ rest) = some literal ∧ digits.length ≤ literal.length := by
  obtain ⟨more, tail, rfl, moreDigits, stops⟩ :
      ∃ more tail, rest = more ++ tail ∧
        (∀ digit ∈ more, digit.isDigit = true) ∧ StopsDigits tail :=
    ⟨_, _, List.takeWhile_append_dropWhile.symm, fun _ => List.mem_takeWhile_imp,
      stopsDigits_dropWhile rest⟩
  have allDigits : ∀ digit ∈ digits ++ more, digit.isDigit = true := fun digit member =>
    (List.mem_append.mp member).elim (isDigits.isDigit digit) (moreDigits digit)
  rw [← List.append_assoc]
  by_cases point : tail.head? = some '.'
  · obtain ⟨rest, rfl⟩ := List.head?_eq_some_iff.mp point
    rw [← @List.takeWhile_append_dropWhile _ Char.isDigit rest,
      read?_pointed allDigits (fun _ => List.mem_takeWhile_imp) (stopsDigits_dropWhile rest),
      if_neg (by simp [isDigits.ne_nil])]
    refine ⟨_, rfl, ?_⟩
    simp [assemble]
    omega
  · rw [read?_whole allDigits stops point, if_neg (by simp [isDigits.ne_nil])]
    refine ⟨_, rfl, ?_⟩
    simp [assemble]
    omega

/-- A literal at the front of a text is read to its end at least. -/
theorem exists_read?_append {text : List Char} {numeral : Numeral}
    (spelled : Spells text numeral) (rest : List Char) :
    ∃ literal, read? (text ++ rest) = some literal ∧ text.length ≤ literal.length := by
  cases spelled with
  | @whole digits exponentText _ isDigits tail =>
      by_cases filled : exponentText = []
      · subst filled
        simpa using exists_read?_digits isDigits rest
      · obtain ⟨stops, point⟩ := stops_of_spellsExponent tail (.inl filled)
        rw [List.append_assoc, read?_whole isDigits.isDigit stops point,
          if_neg isDigits.ne_nil]
        have bound := length_le_exponentOf tail rest
        refine ⟨_, rfl, ?_⟩
        simp [assemble]
        omega
  | @pointed whole fraction exponentText _ isDigits tail =>
      have wholeDigits : ∀ digit ∈ whole, digit.isDigit = true := fun digit member =>
        isDigits.isDigit digit (List.mem_append_left _ member)
      have fractionDigits : ∀ digit ∈ fraction, digit.isDigit = true := fun digit member =>
        isDigits.isDigit digit (List.mem_append_right _ member)
      rw [List.append_assoc, List.cons_append, List.append_assoc]
      by_cases filled : exponentText = []
      · -- the digits of what follows lengthen the fraction
        subst filled
        have allDigits : ∀ digit ∈ fraction ++ rest.takeWhile Char.isDigit,
            digit.isDigit = true := fun digit member =>
          (List.mem_append.mp member).elim (fractionDigits digit) List.mem_takeWhile_imp
        rw [List.nil_append, ← @List.takeWhile_append_dropWhile _ Char.isDigit rest,
          ← List.append_assoc, read?_pointed wholeDigits allDigits (stopsDigits_dropWhile rest),
          if_neg fun empty => isDigits.ne_nil (by simp_all)]
        refine ⟨_, rfl, ?_⟩
        simp [assemble]
        omega
      · obtain ⟨stops, -⟩ := stops_of_spellsExponent tail (.inl filled)
        rw [read?_pointed wholeDigits fractionDigits stops, if_neg isDigits.ne_nil]
        have bound := length_le_exponentOf tail rest
        refine ⟨_, rfl, ?_⟩
        simp [assemble]
        omega

/-- The literal that is read at the front of a text is the longest one there. -/
theorem read?_eq_some_iff {text : List Char} {literal : Literal} :
    read? text = some literal ↔
      ∃ spelling rest, text = spelling ++ rest ∧ Spells spelling literal.numeral ∧
        literal.length = spelling.length ∧
        ∀ longer numeral, Spells longer numeral → longer <+: text →
          longer.length ≤ spelling.length := by
  have bounded : ∀ {found : Literal}, read? text = some found →
      ∀ longer numeral, Spells longer numeral → longer <+: text →
        longer.length ≤ found.length := by
    rintro found reads longer numeral spelled ⟨rest, rfl⟩
    obtain ⟨same, reads', bound⟩ := exists_read?_append spelled rest
    rw [reads] at reads'
    cases reads'
    exact bound
  constructor
  · intro reads
    obtain ⟨bound, spelled⟩ := spells_of_read? reads
    have size : literal.length = (text.take literal.length).length := by
      rw [List.length_take, Nat.min_eq_left bound]
    refine ⟨_, _, (List.take_append_drop literal.length text).symm, spelled, size, ?_⟩
    rw [← size]
    exact bounded reads
  · rintro ⟨spelling, rest, rfl, spelled, size, longest⟩
    obtain ⟨found, reads, -⟩ := exists_read?_append spelled rest
    obtain ⟨bound, foundSpelled⟩ := spells_of_read? reads
    -- both are spelled at the front, so neither is longer than the other
    have shorter := longest _ _ foundSpelled (List.take_prefix _ _)
    have longer := bounded reads spelling _ spelled (List.prefix_append _ _)
    rw [List.length_take, Nat.min_eq_left bound] at shorter
    have same : found.length = spelling.length := Nat.le_antisymm shorter longer
    rw [same, List.take_left] at foundSpelled
    have numeral := (read?_of_spells spelled).symm.trans (read?_of_spells foundSpelled)
    rw [reads]
    obtain ⟨numeral', length⟩ := literal
    obtain ⟨foundNumeral, foundLength⟩ := found
    simp_all

/-- No literal is read where none is spelled. -/
theorem read?_eq_none_iff {text : List Char} :
    read? text = none ↔ ∀ spelling numeral, Spells spelling numeral → ¬spelling <+: text := by
  constructor
  · rintro missing spelling numeral spelled ⟨rest, rfl⟩
    obtain ⟨literal, reads, -⟩ := exists_read?_append spelled rest
    rw [missing] at reads
    cases reads
  · intro absent
    rw [Option.eq_none_iff_forall_not_mem]
    intro literal reads
    obtain ⟨-, spelled⟩ := spells_of_read? reads
    exact absent _ _ spelled (List.take_prefix _ _)

end Literal

end Stereograph.Decimal
