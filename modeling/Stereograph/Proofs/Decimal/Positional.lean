import Mathlib.Data.List.TakeWhile
import Mathlib.Tactic
import Stereograph.Decimal.Layout
import Stereograph.Proofs.Decimal.Bits
import Stereograph.Proofs.Decimal.Spelling

/-!
# Positional text of numbers

The text of a number without an exponent, as a value.  Moving the point, padding with
zeros and dropping trailing zeros all keep the rational number that the digits
denote, and reading digits around a point gives that rational back.
-/

namespace Stereograph.Decimal

/-! ## Digits as numbers -/

/-- The rational number that a numeral denotes. -/
def Numeral.value (numeral : Numeral) : ℚ :=
  numeral.coefficient * 10 ^ numeral.exponent

namespace Numeral

theorem ofDigits_append (left right : List Char) :
    ofDigits (left ++ right) = 10 ^ right.length * ofDigits left + ofDigits right := by
  change Nat.ofDigitChars 10 (left ++ right) 0 = _
  rw [Nat.ofDigitChars_append, Nat.ofDigitChars_eq_ofDigitChars_zero]
  rfl

theorem ofDigits_zeros (count : Nat) : ofDigits (List.replicate count '0') = 0 := by
  change Nat.ofDigitChars 10 (List.replicate count '0') 0 = _
  simp

theorem ofDigits_toDigits (number : Nat) :
    ofDigits (Nat.toDigits 10 number) = number :=
  Nat.ofDigitChars_ten_toDigits

end Numeral

/-- Dropping the trailing zeros of a text drops nothing but zeros. -/
theorem exists_eq_append_zeros (text : List Char) :
    ∃ count, text =
      (text.reverse.dropWhile (· == '0')).reverse ++ List.replicate count '0' := by
  refine ⟨(text.reverse.takeWhile (· == '0')).length, ?_⟩
  have zeros : text.reverse.takeWhile (· == '0') =
      List.replicate (text.reverse.takeWhile (· == '0')).length '0' := by
    rw [List.eq_replicate_iff]
    refine ⟨rfl, fun character member => ?_⟩
    simpa using List.mem_takeWhile_imp member
  calc
    text = (text.reverse.takeWhile (· == '0') ++
        text.reverse.dropWhile (· == '0')).reverse := by
      rw [List.takeWhile_append_dropWhile, List.reverse_reverse]
    _ = _ := by
      rw [List.reverse_append, zeros, List.reverse_replicate, List.length_replicate]

namespace Digits

/-- The rational number that digits denote. -/
def value (number : Digits) : ℚ :=
  Numeral.ofDigits number.digits *
    10 ^ (number.magnitude + 1 - number.digits.length)

theorem value_ofNumeral (numeral : Numeral) :
    (ofNumeral numeral).value = numeral.value := by
  obtain ⟨count, split⟩ :=
    exists_eq_append_zeros (Nat.toDigits 10 numeral.coefficient)
  unfold value ofNumeral Numeral.value
  simp only
  generalize
    ((Nat.toDigits 10 numeral.coefficient).reverse.dropWhile (· == '0')).reverse =
      kept at *
  have coefficient : numeral.coefficient = 10 ^ count * Numeral.ofDigits kept := by
    conv_lhs => rw [← Numeral.ofDigits_toDigits numeral.coefficient, split,
      Numeral.ofDigits_append, Numeral.ofDigits_zeros, List.length_replicate,
      Nat.add_zero]
  have length :
      (Nat.toDigits 10 numeral.coefficient).length = kept.length + count := by
    rw [split, List.length_append, List.length_replicate]
  have power : numeral.exponent + ((kept.length + count : Nat) : Int) - 1 + 1 -
      kept.length = numeral.exponent + count := by
    push_cast
    ring
  rw [length, power, zpow_add₀ (by norm_num), zpow_natCast]
  conv_rhs => rw [coefficient]
  push_cast
  ring

theorem isDigit_of_mem_ofNumeral {numeral : Numeral} {digit : Char}
    (member : digit ∈ (ofNumeral numeral).digits) : digit.isDigit = true := by
  obtain ⟨count, split⟩ :=
    exists_eq_append_zeros (Nat.toDigits 10 numeral.coefficient)
  apply Nat.isDigit_of_mem_toDigits (b := 10) (n := numeral.coefficient)
    (by decide) (by decide)
  rw [split]
  exact List.mem_append_left _ member

theorem value_split (number : Digits) :
    number.value =
      Numeral.ofDigits (number.split.1 ++ number.split.2) /
        10 ^ number.split.2.length := by
  obtain ⟨digits, magnitude⟩ := number
  cases magnitude with
  | ofNat magnitude =>
      simp only [value, split, Int.ofNat_eq_natCast]
      rcases le_or_gt digits.length (magnitude + 1) with short | long
      · rw [List.take_of_length_le short, List.drop_of_length_le short, List.append_nil,
          Numeral.ofDigits_append, Numeral.ofDigits_zeros, List.length_replicate]
        have power : (magnitude + 1 - digits.length : Int) =
            ((magnitude + 1 - digits.length : Nat) : Int) := by
          omega
        rw [power, zpow_natCast]
        push_cast
        simp [mul_comm]
      · rw [Nat.sub_eq_zero_of_le long.le, List.replicate_zero, List.append_nil,
          List.take_append_drop, List.length_drop]
        have power : (magnitude + 1 - digits.length : Int) =
            -((digits.length - (magnitude + 1) : Nat) : Int) := by
          omega
        rw [power, zpow_neg, zpow_natCast, div_eq_mul_inv]
  | negSucc zeros =>
      simp only [value, split, List.nil_append]
      rw [Numeral.ofDigits_append, Numeral.ofDigits_zeros, List.length_append,
        List.length_replicate]
      have power : (Int.negSucc zeros + 1 - digits.length : Int) =
          -((zeros + digits.length : Nat) : Int) := by
        omega
      rw [power, zpow_neg, zpow_natCast, div_eq_mul_inv]
      simp

theorem isDigit_of_mem_split {number : Digits}
    (digits : ∀ digit ∈ number.digits, digit.isDigit = true) {digit : Char}
    (member : digit ∈ number.split.1 ∨ digit ∈ number.split.2) :
    digit.isDigit = true := by
  obtain ⟨text, magnitude⟩ := number
  have zero : ∀ count, digit ∈ List.replicate count '0' → digit.isDigit = true := by
    intro count zeros
    rw [List.eq_of_mem_replicate zeros]
    rfl
  cases magnitude with
  | ofNat magnitude =>
      simp only [split, List.mem_append] at member
      obtain (kept | zeros) | rest := member
      · exact digits digit (List.mem_of_mem_take kept)
      · exact zero _ zeros
      · exact digits digit (List.mem_of_mem_drop rest)
  | negSucc zeros =>
      simp only [split, List.not_mem_nil, List.mem_append, false_or] at member
      obtain zeros | kept := member
      · exact zero _ zeros
      · exact digits digit kept

end Digits

/-! ## Digits around a point -/

/-- Digits before and after a decimal point, at least one on each side. -/
structure Pointed (whole fraction : List Char) : Prop where
  whole_ne_nil : whole ≠ []
  fraction_ne_nil : fraction ≠ []
  isDigit : ∀ digit ∈ whole ++ fraction, digit.isDigit = true

/-- The rational number of digits before and after a point. -/
def pointedValue (whole fraction : List Char) : ℚ :=
  Numeral.ofDigits (whole ++ fraction) / 10 ^ fraction.length

@[simp] theorem pointedValue_zero (whole : List Char) :
    pointedValue whole ['0'] = pointedValue whole [] := by
  have zero : Numeral.ofDigits ['0'] = 0 := rfl
  rw [pointedValue, pointedValue, Numeral.ofDigits_append, zero]
  simp

/-- Digits around a point spell one literal. -/
theorem Pointed.spells {whole fraction : List Char} (pointed : Pointed whole fraction) :
    Spells (whole ++ '.' :: fraction)
      ⟨Numeral.ofDigits (whole ++ fraction), -fraction.length⟩ := by
  have isDigits : IsDigits (whole ++ fraction) :=
    ⟨by simp [pointed.whole_ne_nil], pointed.isDigit⟩
  simpa using Spells.pointed isDigits .absent

/-! ## Positional text -/

/-- Positional text has the digits of its number, around a point if there is one. -/
theorem Digits.exists_positional {number : Digits}
    (digits : ∀ digit ∈ number.digits, digit.isDigit = true) :
    ∃ whole fraction, whole ≠ [] ∧
      (∀ digit ∈ whole ++ fraction, digit.isDigit = true) ∧
      number.positional =
        String.ofList (if fraction.isEmpty then whole else whole ++ '.' :: fraction) ∧
      number.value = pointedValue whole fraction := by
  refine ⟨if number.split.1.isEmpty then ['0'] else number.split.1, number.split.2,
    ?_, ?_, ?_, ?_⟩
  · split
    · simp
    · rename_i filled
      simpa using filled
  · intro digit member
    rw [List.mem_append] at member
    split at member
    · obtain zero | rest := member
      · rw [List.mem_singleton.mp zero]
        rfl
      · exact isDigit_of_mem_split digits (.inr rest)
    · exact isDigit_of_mem_split digits member
  · simp only [positional]
    split <;> rfl
  · rw [value_split, pointedValue]
    split
    · rename_i empty
      rw [List.isEmpty_iff.mp empty]
      rfl
    · rfl

namespace Binary

/-- The rational number that the text of a magnitude denotes. -/
def displayedValue (number : Binary) : ℚ :=
  if number.mantissa = 0 then 0 else (number.shortest .upward).value

/-- The text of a number without a sign has digits, and a point only between
digits. -/
theorem exists_display {value : Float} {number : Binary}
    (finite : ofFloat? value = some number) (positive : number.negative = false) :
    ∃ whole fraction : List Char, whole ≠ [] ∧
      (∀ digit ∈ whole ++ fraction, digit.isDigit = true) ∧
      display value =
        String.ofList (if fraction.isEmpty then whole else whole ++ '.' :: fraction) ∧
      pointedValue whole fraction = number.displayedValue := by
  simp only [display, finite, signed, positive, displayedValue]
  by_cases zero : number.mantissa = 0
  · exact ⟨['0'], [], by simp, by simp, by simp [zero],
      by simp [zero, pointedValue, Numeral.ofDigits]⟩
  · obtain ⟨whole, fraction, whole_ne_nil, isDigit, text, value_eq⟩ :=
      @Digits.exists_positional (.ofNumeral (number.shortest .upward)) fun _ member =>
        Digits.isDigit_of_mem_ofNumeral member
    refine ⟨whole, fraction, whole_ne_nil, isDigit, ?_, ?_⟩
    · simpa [zero] using text
    · rw [← value_eq, Digits.value_ofNumeral]
      simp [zero]

theorem shortest_opposite (tie : Tie) (number : Binary) :
    number.opposite.shortest tie = number.shortest tie := by
  have grids : ∀ count power,
      number.opposite.firstOnGrid tie count power =
        number.firstOnGrid tie count power := by
    intro count
    induction count with
    | zero => exact fun _ => rfl
    | succ count ih =>
        intro power
        unfold firstOnGrid
        rw [ih]
        rfl
  exact grids 24 number.powerAbove

/-- The text of a negative number is a sign and the text of its opposite. -/
theorem display_of_negative {value : Float} {number : Binary}
    (finite : ofFloat? value = some number) (negative : number.negative = true) :
    display value = "-" ++ display (-value) := by
  simp only [display, finite, ofFloat?_neg finite, shortest_opposite]
  simp [signed, opposite, negative]

end Binary

end Stereograph.Decimal
