import Stereograph.Json.Numeral
import Stereograph.Proofs.Decimal.Positional

/-!
# Number literals in a text

The literal at the front of a text is as long as it would be alone, if no character that
continues a literal follows it.  The digits of a natural number are such a literal, and the
number is read back from them.
-/

namespace Stereograph.Json.Numeral

open Stereograph.Decimal

/-- A text that is a literal from its first to its last character. -/
def IsLiteral (literal : String) : Prop :=
  length? literal.toList = some literal.toList.length

/-- Whether a character can continue a literal. -/
def continues (character : Char) : Bool :=
  character.isDigit || ['.', 'e', 'E', '+', '-'].contains character

/-- No character that continues a literal stands at the front of a text. -/
def Ends (rest : List Char) : Prop :=
  ∀ character ∈ rest.head?, continues character = false

/-! ## Lengths -/

theorem digitsLength?_le {input : List Char} {length : Nat}
    (found : digitsLength? input = some length) : length ≤ input.length := by
  simp only [digitsLength?] at found
  split at found
  next => cases found
  next =>
    cases found
    exact (List.takeWhile_prefix _).length_le

theorem fractionLength?_le {input : List Char} {length : Nat}
    (found : fractionLength? input = some length) : length ≤ input.length := by
  unfold fractionLength? at found
  split at found
  next rest =>
    obtain ⟨count, digits, rfl⟩ := Option.map_eq_some_iff.mp found
    exact Nat.succ_le_succ (digitsLength?_le digits)
  next =>
    cases found
    exact Nat.zero_le _

/-- Length of the digits before the point. -/
def wholeLength? : List Char → Option Nat
  | '0' :: _ => some 1
  | input => digitsLength? input

theorem wholeLength?_of_ne {input : List Char} (notZero : input.head? ≠ some '0') :
    wholeLength? input = digitsLength? input := by
  unfold wholeLength?
  split
  next => exact absurd rfl notZero
  next => rfl

theorem wholeLength?_le {input : List Char} {length : Nat}
    (found : wholeLength? input = some length) : length ≤ input.length := by
  unfold wholeLength? at found
  split at found
  next =>
    cases found
    exact Nat.succ_le_succ (Nat.zero_le _)
  next => exact digitsLength?_le found

/-- Length of the exponent with its mark, by the characters after the mark. -/
def markedLength? : List Char → Option Nat
  | '+' :: rest => (digitsLength? rest).map (· + 2)
  | '-' :: rest => (digitsLength? rest).map (· + 2)
  | rest => (digitsLength? rest).map (· + 1)

theorem exponentLength?_cons (mark : Char) (rest : List Char) :
    exponentLength? (mark :: rest) =
      if mark = 'e' ∨ mark = 'E' then markedLength? rest else some 0 :=
  rfl

theorem markedLength?_of_ne {input : List Char} (notPlus : input.head? ≠ some '+')
    (notMinus : input.head? ≠ some '-') :
    markedLength? input = (digitsLength? input).map (· + 1) := by
  unfold markedLength?
  split
  next => exact absurd rfl notPlus
  next => exact absurd rfl notMinus
  next => rfl

theorem unsignedLength?_eq (input : List Char) :
    unsignedLength? input =
      (wholeLength? input).bind fun whole =>
        (fractionLength? (input.drop whole)).bind fun fraction =>
          (exponentLength? (input.drop (whole + fraction))).bind fun exponent =>
            some (whole + fraction + exponent) := by
  by_cases zero : input.head? = some '0'
  · obtain ⟨others, rfl⟩ := List.head?_eq_some_iff.mp zero
    rfl
  · rw [wholeLength?_of_ne zero]
    unfold unsignedLength?
    split
    next => exact absurd rfl zero
    next => rfl

theorem length?_of_ne {input : List Char} (notMinus : input.head? ≠ some '-') :
    length? input = unsignedLength? input := by
  unfold length?
  split
  next => exact absurd rfl notMinus
  next => rfl

theorem digitsLength?_cons {first : Char} {rest : List Char} {length : Nat}
    (found : digitsLength? (first :: rest) = some length) : first.isDigit = true := by
  by_contra other
  rw [digitsLength?, List.takeWhile_cons_of_neg other] at found
  cases found

/-- A literal starts with a sign or a digit. -/
theorem exists_cons_of_length? {input : List Char} {length : Nat}
    (found : length? input = some length) :
    ∃ first rest, input = first :: rest ∧ (first = '-' ∨ first.isDigit = true) := by
  cases input with
  | nil => cases found
  | cons first rest =>
      refine ⟨first, rest, rfl, ?_⟩
      by_cases minus : first = '-'
      · exact .inl minus
      · right
        by_cases zero : first = '0'
        · subst zero
          rfl
        · rw [length?_of_ne (by simpa using minus), unsignedLength?_eq,
            wholeLength?_of_ne (by simpa using zero)] at found
          obtain ⟨whole, digits, _⟩ := Option.bind_eq_some_iff.mp found
          exact digitsLength?_cons digits

/-! ## Literals in front of other characters -/

section Append

variable {rest : List Char} (ends : Ends rest)

include ends

theorem Ends.not_isDigit : ∀ character ∈ rest.head?, character.isDigit = false := by
  intro character first
  have stops := ends character first
  rw [continues, Bool.or_eq_false_iff] at stops
  exact stops.1

theorem Ends.head?_ne {mark : Char} (continuing : continues mark = true) :
    rest.head? ≠ some mark := by
  intro first
  have stops := ends mark first
  rw [continuing] at stops
  cases stops

theorem digitsLength?_append (input : List Char) :
    digitsLength? (input ++ rest) = digitsLength? input := by
  have digits : (input ++ rest).takeWhile Char.isDigit = input.takeWhile Char.isDigit := by
    induction input with
    | nil =>
        cases rest with
        | nil => rfl
        | cons first others => simp [ends.not_isDigit first rfl]
    | cons first input hypothesis => simp [List.takeWhile_cons, hypothesis]
  rw [digitsLength?, digits]
  rfl

theorem fractionLength?_append (input : List Char) :
    fractionLength? (input ++ rest) = fractionLength? input := by
  cases input with
  | nil =>
      have noPoint : rest.head? ≠ some '.' := ends.head?_ne rfl
      rw [List.nil_append]
      unfold fractionLength?
      split
      next others => exact absurd rfl noPoint
      next => rfl
  | cons first input =>
      by_cases point : first = '.'
      · subst point
        simp only [List.cons_append, fractionLength?, digitsLength?_append ends]
      · simp [fractionLength?, point]

theorem Ends.append_head?_ne {mark : Char} (continuing : continues mark = true)
    {input : List Char} (other : input.head? ≠ some mark) :
    (input ++ rest).head? ≠ some mark := by
  cases input with
  | nil => exact ends.head?_ne continuing
  | cons first input => exact other

theorem markedLength?_append (input : List Char) :
    markedLength? (input ++ rest) = markedLength? input := by
  by_cases plus : input.head? = some '+'
  · obtain ⟨others, rfl⟩ := List.head?_eq_some_iff.mp plus
    simp only [List.cons_append, markedLength?, digitsLength?_append ends]
  · by_cases minus : input.head? = some '-'
    · obtain ⟨others, rfl⟩ := List.head?_eq_some_iff.mp minus
      simp only [List.cons_append, markedLength?, digitsLength?_append ends]
    · rw [markedLength?_of_ne (ends.append_head?_ne rfl plus) (ends.append_head?_ne rfl minus),
        markedLength?_of_ne plus minus, digitsLength?_append ends]

theorem exponentLength?_append (input : List Char) :
    exponentLength? (input ++ rest) = exponentLength? input := by
  cases input with
  | nil =>
      cases rest with
      | nil => rfl
      | cons first others =>
          have lower : (first :: others).head? ≠ some 'e' := ends.head?_ne rfl
          have upper : (first :: others).head? ≠ some 'E' := ends.head?_ne rfl
          rw [List.head?_cons, ne_eq, Option.some.injEq] at lower upper
          simp [exponentLength?, lower, upper]
  | cons mark input =>
      rw [List.cons_append, exponentLength?_cons, exponentLength?_cons,
        markedLength?_append ends]

theorem wholeLength?_append (input : List Char) :
    wholeLength? (input ++ rest) = wholeLength? input := by
  by_cases zero : input.head? = some '0'
  · obtain ⟨others, rfl⟩ := List.head?_eq_some_iff.mp zero
    rfl
  · rw [wholeLength?_of_ne (ends.append_head?_ne rfl zero), wholeLength?_of_ne zero,
      digitsLength?_append ends]

theorem unsignedLength?_append (input : List Char) :
    unsignedLength? (input ++ rest) = unsignedLength? input := by
  rw [unsignedLength?_eq, unsignedLength?_eq, wholeLength?_append ends]
  cases whole : wholeLength? input with
  | none => rfl
  | some length =>
      have inside := wholeLength?_le whole
      simp only [Option.bind_some]
      rw [List.drop_append_of_le_length inside, fractionLength?_append ends]
      cases fraction : fractionLength? (input.drop length) with
      | none => rfl
      | some more =>
          have insideToo := fractionLength?_le fraction
          rw [List.length_drop] at insideToo
          simp only [Option.bind_some]
          rw [List.drop_append_of_le_length (by omega), exponentLength?_append ends]

/-- Characters that do not continue a literal do not change how long it is. -/
theorem length?_append (input : List Char) : length? (input ++ rest) = length? input := by
  by_cases minus : input.head? = some '-'
  · obtain ⟨others, rfl⟩ := List.head?_eq_some_iff.mp minus
    simp only [List.cons_append, length?, unsignedLength?_append ends]
  · rw [length?_of_ne (ends.append_head?_ne rfl minus), length?_of_ne minus,
      unsignedLength?_append ends]

end Append

/-! ## Digits of natural numbers -/

/-- No number but zero is written with a leading zero. -/
theorem head?_toDigits_ne {number : Nat} (positive : 0 < number) :
    (Nat.toDigits 10 number).head? ≠ some '0' := by
  induction number using Nat.strongRecOn with
  | ind number hypothesis =>
      by_cases small : number < 10
      · rw [Nat.toDigits_of_lt_base small]
        interval_cases number <;> decide
      · have smaller := hypothesis (number / 10) (by omega) (by omega)
        rw [Nat.toDigits_of_base_le (by decide) (by omega)]
        cases front : Nat.toDigits 10 (number / 10) with
        | nil => exact absurd front Nat.toDigits_ne_nil
        | cons first others =>
            rw [front] at smaller
            exact smaller

theorem isDigit_of_mem_toDigits {number : Nat} :
    ∀ digit ∈ Nat.toDigits 10 number, digit.isDigit = true :=
  fun _ member => Nat.isDigit_of_mem_toDigits (by decide) (by decide) member

theorem wholeLength?_toDigits (number : Nat) :
    wholeLength? (Nat.toDigits 10 number) = some (Nat.toDigits 10 number).length := by
  obtain rfl | positive := Nat.eq_zero_or_pos number
  · rfl
  · have all : (Nat.toDigits 10 number).takeWhile Char.isDigit = Nat.toDigits 10 number :=
      List.takeWhile_eq_self_iff.mpr isDigit_of_mem_toDigits
    rw [wholeLength?_of_ne (head?_toDigits_ne positive), digitsLength?, all]
    exact if_neg Nat.length_toDigits_pos.ne'

/-- The digits of a number are a literal. -/
theorem isLiteral_repr (number : Nat) : IsLiteral (toString number) := by
  have digits : (toString number).toList = Nat.toDigits 10 number := Nat.toList_repr
  have unsigned : (Nat.toDigits 10 number).head? ≠ some '-' := by
    intro first
    have digit := isDigit_of_mem_toDigits _ (List.mem_of_mem_head? first)
    cases digit
  rw [IsLiteral, digits, length?_of_ne unsigned, unsignedLength?_eq, wholeLength?_toDigits]
  simp [fractionLength?, exponentLength?]

/-- A word is read back from its digits. -/
theorem word?_toString (value : UInt32) : word? (toString value) = some value := by
  have digits : (toString value).toList = Nat.toDigits 10 value.toNat := Nat.toList_repr
  have all : (Nat.toDigits 10 value.toNat).all Char.isDigit = true :=
    List.all_eq_true.mpr isDigit_of_mem_toDigits
  have small : value.toNat < Nat.pow 2 32 := value.toNat_lt
  rw [word?, digits, if_pos all, Numeral.ofDigits_toDigits, if_pos small]
  simp

end Stereograph.Json.Numeral
