import Stereograph.Proofs.Decimal.Shortest
import Stereograph.Shader.Grammar

/-!
# Literals of the shading language

A literal of generated code is a sign, if the number is negative, and digits around a
decimal point.
-/

namespace Stereograph.Shader

open Decimal

/-- Characters that make a point unnecessary. -/
def isPoint (character : Char) : Bool :=
  character == '.' || character == 'e' || character == 'E'

theorem isPoint_of_isDigit {character : Char} (digit : character.isDigit = true) :
    isPoint character = false := by
  by_contra point
  simp only [isPoint, Bool.not_eq_false, Bool.or_eq_true, beq_iff_eq] at point
  obtain (rfl | rfl) | rfl := point <;> simp at digit

theorem literalText_eq (value : Float) :
    literalText value =
      if (display value).toList.any isPoint then display value
      else display value ++ ".0" := by
  simp only [literalText, String.any, String.contains_bool_eq]
  rfl

/-- The literal of a number without a sign has digits on both sides of its point. -/
theorem exists_literalText {value : Float} {number : Binary}
    (finite : Binary.ofFloat? value = some number) (positive : number.negative = false) :
    ∃ whole fraction, (literalText value).toList = whole ++ '.' :: fraction ∧
      Pointed whole fraction ∧ pointedValue whole fraction = number.displayedValue := by
  obtain ⟨whole, fraction, whole_ne_nil, isDigit, text, value_eq⟩ :=
    Binary.exists_display finite positive
  rw [literalText_eq, text]
  cases fraction with
  | nil =>
      have noPoint : whole.any isPoint = false := by
        rw [List.any_eq_false]
        intro character member
        simp [isPoint_of_isDigit (isDigit character (by simpa using member))]
      refine ⟨whole, ['0'], ?_, ⟨whole_ne_nil, by simp, ?_⟩, ?_⟩
      · simp [noPoint]
      · intro digit member
        rw [List.mem_append, List.mem_singleton] at member
        obtain member | rfl := member
        · exact isDigit digit (List.mem_append_left _ member)
        · rfl
      · rw [pointedValue_zero, value_eq]
  | cons first rest =>
      refine ⟨whole, first :: rest, ?_, ⟨whole_ne_nil, by simp, isDigit⟩, value_eq⟩
      simp [isPoint]

/-- The literal of a number without a sign reads back as the number. -/
theorem isLiteral_literalText {value : Float} {number : Binary}
    (finite : Binary.ofFloat? value = some number) (positive : number.negative = false) :
    IsLiteral (literalText value).toList value := by
  obtain ⟨whole, fraction, text, pointed, value_eq⟩ := exists_literalText finite positive
  have spelled := pointed.spells
  rw [text]
  refine ⟨by simp, _, Literal.read?_of_spells spelled, rfl, ?_⟩
  refine toFloat_eq_of_value finite positive ?_
  rw [← value_eq, pointedValue, Numeral.value, zpow_neg, zpow_natCast, div_eq_mul_inv]

/-- The literal of a negative number is a sign and the literal of its opposite. -/
theorem literalText_of_negative {value : Float} {number : Binary}
    (finite : Binary.ofFloat? value = some number) (negative : number.negative = true) :
    literalText value = "-" ++ literalText (-value) := by
  have noPoint : isPoint '-' = false := rfl
  simp only [literalText_eq, Binary.display_of_negative finite negative,
    String.toList_append]
  split <;> rename_i point <;> simp_all [String.append_assoc]

@[simp] theorem literalText_zero : literalText 0 = "0.0" := by
  have text : display 0 = "0" := by
    have number : Binary.ofFloat? 0 = some ⟨false, 0, -1074⟩ := by decide +kernel
    rw [display, number]
    rfl
  rw [literalText_eq, text]
  rfl

@[simp] theorem literalText_one : literalText 1 = "1.0" := by
  have text : display 1 = "1" := by
    have number : Binary.ofFloat? 1 = some ⟨false, 2 ^ 52, -52⟩ := by decide +kernel
    rw [display, number]
    rfl
  rw [literalText_eq, text]
  rfl

/-- The expression of a finite number is written as its literal. -/
theorem write_ofFloat {value : Float} (finite : value.isFinite = true) :
    (Expression.ofFloat value).write = literalText value := by
  obtain ⟨number, finite⟩ := Binary.isFinite_iff.mp finite
  unfold Expression.ofFloat
  rw [Binary.testBit_of_ofFloat? finite]
  cases negative : number.negative with
  | false => rfl
  | true => rw [literalText_of_negative finite negative]; rfl

end Stereograph.Shader
