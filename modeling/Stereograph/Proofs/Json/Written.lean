import Stereograph.Proofs.Decimal.Shortest
import Stereograph.Proofs.Json.Stored

/-!
# Written numbers

Whatever number is written, its text is a literal, with a point or with an exponent.  A
number that is not finite has no literal.  It is written as the null value, which no number
is read from.
-/

namespace Stereograph

open Decimal

/-! ## Shortest digits -/

/-- Digits that are not padded with zeros in front. -/
structure Decimal.Digits.IsLeading (number : Digits) : Prop where
  isDigits : IsDigits number.digits
  head?_ne : number.digits.head? ≠ some '0'

/-- The shortest digits of a number other than zero start with another digit than zero. -/
theorem Decimal.Digits.isLeading_ofNumeral {numeral : Decimal.Numeral}
    (positive : 0 < numeral.coefficient) : (ofNumeral numeral).IsLeading := by
  obtain ⟨count, split⟩ := exists_eq_append_zeros (Nat.toDigits 10 numeral.coefficient)
  have front := Json.Numeral.head?_toDigits_ne positive
  have digits : (ofNumeral numeral).digits =
      ((Nat.toDigits 10 numeral.coefficient).reverse.dropWhile (· == '0')).reverse := rfl
  rw [← digits] at split
  have filled : (ofNumeral numeral).digits ≠ [] := by
    intro empty
    rw [split, empty, List.nil_append] at front
    have none : count = 0 := by
      by_contra some
      exact front (by simp [List.head?_replicate, some])
    rw [empty, none] at split
    exact Nat.toDigits_ne_nil split
  refine ⟨⟨filled, fun _ member => isDigit_of_mem_ofNumeral member⟩, ?_⟩
  rwa [split, List.head?_append_of_ne_nil _ filled] at front

namespace Json.Numeral

/-! ## Parts of a literal -/

/-- Digits that may stand before a point. -/
structure IsWhole (digits : List Char) : Prop where
  isDigits : IsDigits digits
  alone : digits.head? = some '0' → digits = ['0']

/-- What may stand between the digits before a point and an exponent. -/
inductive IsFraction : List Char → Prop
  | absent : IsFraction []
  | present {digits : List Char} (isDigits : IsDigits digits) : IsFraction ('.' :: digits)

/-- What may stand at the end of a literal. -/
inductive IsExponent : List Char → Prop
  | absent : IsExponent []
  | present {sign : Char} {digits : List Char} (isSign : sign = '+' ∨ sign = '-')
      (isDigits : IsDigits digits) : IsExponent ('e' :: sign :: digits)

section Parts

variable {whole fraction exponent : List Char}

theorem digitsLength?_of_isDigits {digits rest : List Char} (isDigits : IsDigits digits)
    (stops : ∀ character ∈ rest.head?, character.isDigit = false) :
    digitsLength? (digits ++ rest) = some digits.length := by
  have others : rest.takeWhile Char.isDigit = [] := by
    cases rest with
    | nil => rfl
    | cons first rest => exact List.takeWhile_cons_of_neg (by simp [stops first rfl])
  have front : (digits ++ rest).takeWhile Char.isDigit = digits := by
    rw [List.takeWhile_append_of_pos isDigits.isDigit, others, List.append_nil]
  rw [digitsLength?, front]
  exact if_neg (List.length_eq_zero_iff.not.mpr isDigits.ne_nil)

theorem IsExponent.not_isDigit (isExponent : IsExponent exponent) :
    ∀ character ∈ exponent.head?, character.isDigit = false := by
  intro character first
  cases isExponent with
  | absent => cases first
  | present isSign isDigits =>
      cases first
      rfl

theorem IsFraction.not_isDigit (isFraction : IsFraction fraction)
    (isExponent : IsExponent exponent) :
    ∀ character ∈ (fraction ++ exponent).head?, character.isDigit = false := by
  cases isFraction with
  | absent => exact isExponent.not_isDigit
  | present isDigits =>
      intro character first
      cases first
      rfl

theorem IsWhole.wholeLength? {rest : List Char} (isWhole : IsWhole whole)
    (stops : ∀ character ∈ rest.head?, character.isDigit = false) :
    wholeLength? (whole ++ rest) = some whole.length := by
  by_cases zero : whole.head? = some '0'
  · rw [isWhole.alone zero]
    rfl
  · have front : (whole ++ rest).head? ≠ some '0' := by
      rwa [List.head?_append_of_ne_nil _ isWhole.isDigits.ne_nil]
    rw [wholeLength?_of_ne front, digitsLength?_of_isDigits isWhole.isDigits stops]

theorem IsFraction.fractionLength? (isFraction : IsFraction fraction)
    (isExponent : IsExponent exponent) :
    fractionLength? (fraction ++ exponent) = some fraction.length := by
  cases isFraction with
  | absent =>
      cases isExponent with
      | absent => rfl
      | present isSign isDigits => rfl
  | present isDigits =>
      rw [List.cons_append, Numeral.fractionLength?,
        digitsLength?_of_isDigits isDigits isExponent.not_isDigit]
      rfl

theorem IsExponent.exponentLength? (isExponent : IsExponent exponent) :
    exponentLength? exponent = some exponent.length := by
  cases isExponent with
  | absent => rfl
  | @present sign digits isSign isDigits =>
      have length : digitsLength? digits = some digits.length := by
        have alone := @digitsLength?_of_isDigits digits [] isDigits nofun
        rwa [List.append_nil] at alone
      rw [exponentLength?_cons, if_pos (.inl rfl)]
      obtain rfl | rfl := isSign
      · rw [markedLength?, length]
        rfl
      · rw [markedLength?, length]
        rfl

/-- The parts of a literal in their order are as long as the literal. -/
theorem unsignedLength?_of_parts (isWhole : IsWhole whole) (isFraction : IsFraction fraction)
    (isExponent : IsExponent exponent) :
    unsignedLength? (whole ++ (fraction ++ exponent)) =
      some (whole ++ (fraction ++ exponent)).length := by
  have more : (whole ++ (fraction ++ exponent)).drop (whole.length + fraction.length) =
      exponent := by
    rw [← List.append_assoc, List.drop_left' List.length_append]
  rw [unsignedLength?_eq, isWhole.wholeLength? (isFraction.not_isDigit isExponent),
    Option.bind_some, List.drop_left, isFraction.fractionLength? isExponent, Option.bind_some,
    more, isExponent.exponentLength?, Option.bind_some, List.length_append, List.length_append,
    Nat.add_assoc]

end Parts

/-! ## Layout -/

/-- A text whose characters are the parts of a literal. -/
inductive HasParts : List Char → Prop
  | mk {whole fraction exponent : List Char} (isWhole : IsWhole whole)
      (isFraction : IsFraction fraction) (isExponent : IsExponent exponent) :
      HasParts (whole ++ (fraction ++ exponent))

theorem isDigits_zero : IsDigits ['0'] :=
  ⟨List.cons_ne_nil _ _, List.forall_mem_singleton.mpr rfl⟩

theorem isDigits_toString (number : ℕ) : IsDigits (toString number).toList := by
  have digits : (toString number).toList = Nat.toDigits 10 number := Nat.toList_repr
  rw [digits]
  exact ⟨Nat.toDigits_ne_nil, isDigit_of_mem_toDigits⟩

/-- The digits before the point of a number that is not padded are not padded either. -/
theorem isWhole_split {number : Digits} (isLeading : number.IsLeading) :
    IsWhole (if number.split.1.isEmpty then ['0'] else number.split.1) := by
  split
  next => exact ⟨isDigits_zero, fun _ => rfl⟩
  next filled =>
    rw [List.isEmpty_iff] at filled
    have isDigits : IsDigits number.split.1 :=
      ⟨filled, fun _ member =>
        Digits.isDigit_of_mem_split isLeading.isDigits.isDigit (.inl member)⟩
    refine ⟨isDigits, fun zero => absurd zero ?_⟩
    obtain ⟨digits, magnitude⟩ := number
    obtain ⟨first, others, rfl⟩ := List.exists_cons_of_ne_nil isLeading.isDigits.ne_nil
    cases magnitude with
    | ofNat magnitude => exact isLeading.head?_ne
    | negSucc zeros => exact absurd rfl filled

theorem isFraction_split {number : Digits} (isLeading : number.IsLeading) :
    IsFraction ('.' :: if number.split.2.isEmpty then ['0'] else number.split.2) := by
  apply IsFraction.present
  split
  next => exact isDigits_zero
  next filled =>
    rw [List.isEmpty_iff] at filled
    exact ⟨filled, fun _ member =>
      Digits.isDigit_of_mem_split isLeading.isDigits.isDigit (.inr member)⟩

/-- The first digit and the others after a point are the parts of a literal in front of every
exponent. -/
theorem hasParts_mantissa {number : Digits} (isLeading : number.IsLeading)
    {exponent : List Char} (isExponent : IsExponent exponent) :
    HasParts (number.mantissa.toList ++ exponent) := by
  obtain ⟨digits, magnitude⟩ := number
  obtain ⟨⟨filled, isDigit⟩, front⟩ := isLeading
  obtain ⟨first, others, rfl⟩ := List.exists_cons_of_ne_nil filled
  have isWhole : IsWhole [first] := by
    refine ⟨⟨List.cons_ne_nil _ _, ?_⟩, fun zero => absurd zero front⟩
    exact List.forall_mem_singleton.mpr (isDigit first List.mem_cons_self)
  cases others with
  | nil =>
      have text : (Digits.mantissa ⟨[first], magnitude⟩).toList = [first] := String.toList_ofList
      rw [text]
      exact .mk isWhole .absent isExponent
  | cons second others =>
      have text : (Digits.mantissa ⟨first :: second :: others, magnitude⟩).toList =
          [first] ++ '.' :: second :: others := String.toList_ofList
      have isDigits : IsDigits (second :: others) :=
        ⟨List.cons_ne_nil _ _, fun digit member => isDigit digit (List.mem_cons_of_mem _ member)⟩
      rw [text, List.append_assoc]
      exact .mk isWhole (.present isDigits) isExponent

theorem hasParts_layout {number : Digits} (isLeading : number.IsLeading) :
    HasParts (layout number).toList := by
  rw [layout]
  split
  next =>
    have parts := HasParts.mk (isWhole_split isLeading) (isFraction_split isLeading) .absent
    rw [List.append_nil] at parts
    rwa [String.toList_ofList]
  next =>
    have isSign : (if number.magnitude < 0 then '-' else '+') = '+' ∨
        (if number.magnitude < 0 then '-' else '+') = '-' := by
      split <;> simp
    have parts := hasParts_mantissa isLeading
      (.present isSign (isDigits_toString number.magnitude.natAbs))
    have sign : (if number.magnitude < 0 then "-" else "+").toList =
        [if number.magnitude < 0 then '-' else '+'] := by
      split <;> rfl
    simpa [sign] using parts

theorem HasParts.unsignedLength? {text : List Char} (parts : HasParts text) :
    unsignedLength? text = some text.length := by
  obtain ⟨isWhole, isFraction, isExponent⟩ := parts
  exact unsignedLength?_of_parts isWhole isFraction isExponent

theorem HasParts.head?_ne {text : List Char} (parts : HasParts text) : text.head? ≠ some '-' := by
  obtain ⟨isWhole, isFraction, isExponent⟩ := parts
  rw [List.head?_append_of_ne_nil _ isWhole.isDigits.ne_nil]
  intro minus
  have digit := isWhole.isDigits.isDigit _ (List.mem_of_mem_head? minus)
  cases digit

/-- The text of a number is a literal. -/
theorem isLiteral_of_write? {value : Float} {literal : String}
    (written : write? value = some literal) : IsLiteral literal := by
  obtain ⟨number, finite, rfl⟩ := Option.map_eq_some_iff.mp written
  have parts : HasParts (if number.mantissa = 0 then "0.0"
      else layout (Digits.ofNumeral (number.shortest .toEven))).toList := by
    split
    next => exact .mk ⟨isDigits_zero, fun _ => rfl⟩ (.present isDigits_zero) .absent
    next nonzero =>
      have positive : 0 < number.mantissa := Nat.pos_of_ne_zero nonzero
      have coefficient := Binary.coefficient_shortest_pos (Binary.storable_of_ofFloat? finite)
        positive .toEven
      exact hasParts_layout (Digits.isLeading_ofNumeral coefficient)
  generalize (if number.mantissa = 0 then "0.0"
    else layout (Digits.ofNumeral (number.shortest .toEven))) = text at parts
  rw [IsLiteral, signed]
  split
  next =>
    have minus : ("-" ++ text).toList = '-' :: text.toList := by simp
    rw [minus, length?, parts.unsignedLength?]
    rfl
  next => rw [length?_of_ne parts.head?_ne, parts.unsignedLength?]

end Json.Numeral

/-! ## Stored numbers -/

namespace Stored

theorem toJson_of_write? {value : Float} {literal : String}
    (written : Json.Numeral.write? value = some literal) : toJson value = .number literal := by
  simp only [toJson, written]

theorem toJson_of_not_isFinite {value : Float} (infinite : value.isFinite = false) :
    toJson value = .null := by
  have nothing : Json.Numeral.write? value = none := by
    rw [Json.Numeral.write?, Option.map_eq_none_iff]
    by_contra finite
    obtain ⟨number, found⟩ := Option.ne_none_iff_exists'.mp finite
    rw [Binary.isFinite_iff.mpr ⟨number, found⟩] at infinite
    cases infinite
  simp only [toJson, nothing]

/-- The stored form of a number has a proper literal, or none. -/
theorem hasLiterals_float (value : Float) : (toJson value).HasLiterals := by
  cases written : Json.Numeral.write? value with
  | none =>
      simp only [toJson, written]
      trivial
  | some literal =>
      rw [toJson_of_write? written]
      exact Json.Numeral.isLiteral_of_write? written

end Stored

end Stereograph
