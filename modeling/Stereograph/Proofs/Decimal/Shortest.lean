import Stereograph.Proofs.Decimal.Reading

/-!
# Shortest numerals read back

The numeral chosen for a number is a point of a grid of multiples of a power of ten that
the number covers, so it reads back as the number.  The search passes from a coarse grid
to finer ones and ends before its bound, because a grid whose step is a quarter of the
step between numbers has a point that the number covers.
-/

namespace Stereograph.Decimal

/-! ## Fractions -/

namespace Ratio

/-- The rational number of a fraction. -/
def value (ratio : Ratio) : ℚ :=
  ratio.numerator / ratio.denominator

theorem denominator_inTens_pos {ratio : Ratio} (positive : 0 < ratio.denominator)
    (power : Int) : 0 < (ratio.inTens power).denominator := by
  cases power with
  | ofNat power => exact Nat.mul_pos positive (Nat.pow_pos (by decide))
  | negSucc power => exact positive

theorem value_inTens (ratio : Ratio) (power : Int) :
    (ratio.inTens power).value = ratio.value / 10 ^ power := by
  cases power with
  | ofNat power =>
      simp [inTens, value, div_div]
  | negSucc power =>
      simp only [inTens, value, zpow_negSucc, Nat.pow_eq]
      push_cast
      field_simp

end Ratio

namespace Binary

theorem denominator_quarterStep_pos (number : Binary) :
    0 < number.quarterStep.denominator := by
  unfold quarterStep
  split <;> simp

theorem value_quarterStep (number : Binary) :
    number.quarterStep.value = 2 ^ (number.exponent - 2) := by
  unfold quarterStep
  split
  · rename_i exponent same
    rw [same]
    simp [Ratio.value]
  · rename_i exponent same
    rw [same]
    simp [Ratio.value, zpow_negSucc]

/-! ## One grid -/

/-- The numbers that a number covers lie between its ends, which belong to it if it is closed. -/
theorem covers_iff (number : Binary) (value : ℚ) :
    number.Covers value ↔
      if number.closed then
        (4 * number.mantissa - number.lowerReach) * (2 : ℚ) ^ (number.exponent - 2) ≤ value ∧
          value ≤ (4 * number.mantissa + 2) * (2 : ℚ) ^ (number.exponent - 2)
      else
        (4 * number.mantissa - number.lowerReach) * (2 : ℚ) ^ (number.exponent - 2) < value ∧
          value < (4 * number.mantissa + 2) * (2 : ℚ) ^ (number.exponent - 2) := by
  by_cases even : number.mantissa % 2 = 0
  · have closed : number.closed = true := by simp [closed, even]
    rw [if_pos closed]
    constructor
    · exact fun covers => ⟨covers.lower, covers.upper⟩
    · rintro ⟨lower, upper⟩
      exact ⟨lower, upper, fun odd => by omega⟩
  · have notClosed : ¬number.closed = true := by simp [closed, even]
    rw [if_neg notClosed]
    constructor
    · intro covers
      obtain ⟨left, right⟩ := covers.ends (by omega)
      exact ⟨lt_of_le_of_ne covers.lower left, lt_of_le_of_ne covers.upper right⟩
    · rintro ⟨lower, upper⟩
      exact ⟨lower.le, upper.le, fun _ => ⟨lower.ne, upper.ne⟩⟩

/-- The last point of a grid that is not above the number. -/
def pointBelow (number : Binary) (power : Int) : Nat :=
  4 * number.mantissa * (number.quarterStep.inTens power).numerator /
    (number.quarterStep.inTens power).denominator

section Grid

variable {number : Binary} (positive : 0 < number.mantissa)

include positive

/-- The test of a grid point asks whether the number covers it. -/
theorem covers_iff_within (power : Int) (point : Nat) :
    (if number.closed then
        (4 * number.mantissa - number.lowerReach) *
              (number.quarterStep.inTens power).numerator ≤
            point * (number.quarterStep.inTens power).denominator ∧
          point * (number.quarterStep.inTens power).denominator ≤
            (4 * number.mantissa + 2) * (number.quarterStep.inTens power).numerator
      else
        (4 * number.mantissa - number.lowerReach) *
              (number.quarterStep.inTens power).numerator <
            point * (number.quarterStep.inTens power).denominator ∧
          point * (number.quarterStep.inTens power).denominator <
            (4 * number.mantissa + 2) * (number.quarterStep.inTens power).numerator) ↔
      number.Covers (point * 10 ^ power) := by
  have reach : number.lowerReach ≤ 4 * number.mantissa :=
    number.lowerReach_le.trans (by omega)
  have denominatorPos : (0 : ℚ) < (number.quarterStep.inTens power).denominator := by
    exact_mod_cast Ratio.denominator_inTens_pos number.denominator_quarterStep_pos power
  have quarter := Ratio.value_inTens number.quarterStep power
  rw [value_quarterStep, Ratio.value, div_eq_div_iff denominatorPos.ne' (by positivity)]
    at quarter
  generalize (number.quarterStep.inTens power).numerator = numerator at *
  generalize (number.quarterStep.inTens power).denominator = denominator at *
  -- both sides of each comparison are multiplied by the same positive number
  have scale : (0 : ℚ) < 10 ^ power / denominator := by positivity
  have numeratorScale : (numerator : ℚ) * (10 ^ power / denominator) =
      2 ^ (number.exponent - 2) := by
    rw [mul_div_assoc', quarter, mul_div_cancel_right₀ _ denominatorPos.ne']
  have denominatorScale : (denominator : ℚ) * (10 ^ power / denominator) = 10 ^ power :=
    mul_div_cancel₀ _ denominatorPos.ne'
  have le_iff : ∀ left right : Nat, left ≤ right ↔
      (left : ℚ) * (10 ^ power / denominator) ≤ right * (10 ^ power / denominator) := by
    intro left right
    rw [mul_le_mul_iff_left₀ scale, Nat.cast_le]
  have lt_iff : ∀ left right : Nat, left < right ↔
      (left : ℚ) * (10 ^ power / denominator) < right * (10 ^ power / denominator) := by
    intro left right
    rw [mul_lt_mul_iff_left₀ scale, Nat.cast_lt]
  rw [covers_iff, le_iff, le_iff, lt_iff, lt_iff]
  push_cast [Nat.cast_sub reach]
  simp only [mul_assoc, numeratorScale, denominatorScale]

/-- The points of a grid on both sides of the number are tried. -/
theorem onGrid?_cases (tie : Tie) (power : Int) :
    (number.onGrid? tie power = some (number.pointBelow power) ∧
        number.Covers (number.pointBelow power * 10 ^ power)) ∨
      (number.onGrid? tie power = some (number.pointBelow power + 1) ∧
        number.Covers ((number.pointBelow power + 1 : Nat) * 10 ^ power)) ∨
      (number.onGrid? tie power = none ∧
        ¬number.Covers ((number.pointBelow power + 1 : Nat) * 10 ^ power)) := by
  unfold onGrid?
  extract_lets _ _ _ _ below within remainder
  have covers_iff : ∀ point, within point ↔ number.Covers (point * 10 ^ power) :=
    covers_iff_within positive power
  by_cases isBelow : within below
  · rw [if_pos isBelow]
    by_cases isAbove : within (below + 1) ∧
        tie.roundsUp below (2 * remainder) (number.quarterStep.inTens power).denominator = true
    · rw [if_pos isAbove]
      exact .inr (.inl ⟨rfl, (covers_iff _).mp isAbove.1⟩)
    · rw [if_neg isAbove]
      exact .inl ⟨rfl, (covers_iff _).mp isBelow⟩
  · rw [if_neg isBelow]
    by_cases isAbove : within (below + 1)
    · rw [if_pos isAbove]
      exact .inr (.inl ⟨rfl, (covers_iff _).mp isAbove⟩)
    · rw [if_neg isAbove]
      exact .inr (.inr ⟨rfl, mt (covers_iff _).mpr isAbove⟩)

/-- What is found on a grid is covered. -/
theorem covers_of_onGrid? {tie : Tie} {power : Int} {coefficient : Nat}
    (found : number.onGrid? tie power = some coefficient) :
    number.Covers (coefficient * 10 ^ power) := by
  obtain ⟨result, covered⟩ | ⟨result, covered⟩ | ⟨result, -⟩ := onGrid?_cases positive tie power
  · rw [result] at found
    cases found
    exact covered
  · rw [result] at found
    cases found
    exact covered
  · rw [result] at found
    cases found

omit positive in
/-- A grid with a step of at most a quarter of the step between numbers has a point that
the number covers. -/
theorem covers_pointBelow_succ {power : Int}
    (fine : (10 : ℚ) ^ power ≤ 2 ^ (number.exponent - 2)) :
    number.Covers ((number.pointBelow power + 1 : Nat) * 10 ^ power) := by
  have denominatorPos := Ratio.denominator_inTens_pos number.denominator_quarterStep_pos power
  have quarter := Ratio.value_inTens number.quarterStep power
  rw [value_quarterStep, Ratio.value] at quarter
  rw [pointBelow]
  generalize (number.quarterStep.inTens power).numerator = numerator at *
  generalize (number.quarterStep.inTens power).denominator = denominator at *
  have unit : (0 : ℚ) < 2 ^ (number.exponent - 2) := by positivity
  have scale : (0 : ℚ) < 10 ^ power := by positivity
  have exact : (4 * number.mantissa * numerator / denominator : ℚ) * 10 ^ power =
      4 * number.mantissa * 2 ^ (number.exponent - 2) := by
    rw [mul_div_assoc, quarter]
    field_simp
  have lower : (4 * number.mantissa * numerator / denominator : ℚ) <
      (4 * number.mantissa * numerator / denominator + 1 : Nat) := by
    have := Nat.lt_mul_div_succ (4 * number.mantissa * numerator) denominatorPos
    rw [div_lt_iff₀ (by exact_mod_cast denominatorPos), mul_comm (Nat.cast _)]
    exact_mod_cast this
  have upper : ((4 * number.mantissa * numerator / denominator + 1 : Nat) : ℚ) ≤
      4 * number.mantissa * numerator / denominator + 1 := by
    have := @Nat.cast_div_le ℚ _ _ _ (4 * number.mantissa * numerator) denominator
    push_cast at this ⊢
    linarith
  have above := mul_lt_mul_of_pos_right lower scale
  have below := mul_le_mul_of_nonneg_right upper scale.le
  rw [exact] at above
  rw [add_mul, exact, one_mul] at below
  have reach : (0 : ℚ) ≤ number.lowerReach * 2 ^ (number.exponent - 2) := by positivity
  have strictLower : (4 * number.mantissa - number.lowerReach) *
      (2 : ℚ) ^ (number.exponent - 2) <
        (4 * number.mantissa * numerator / denominator + 1 : Nat) * 10 ^ power := by
    rw [sub_mul]
    linarith
  have strictUpper : ((4 * number.mantissa * numerator / denominator + 1 : Nat) : ℚ) *
      10 ^ power < (4 * number.mantissa + 2) * 2 ^ (number.exponent - 2) := by
    rw [add_mul]
    linarith
  exact ⟨strictLower.le, strictUpper.le, fun _ => ⟨strictLower.ne, strictUpper.ne⟩⟩

/-- On a grid with such a step a point is found. -/
theorem onGrid?_ne_none (tie : Tie) {power : Int}
    (fine : (10 : ℚ) ^ power ≤ 2 ^ (number.exponent - 2)) :
    number.onGrid? tie power ≠ none := by
  obtain ⟨result, -⟩ | ⟨result, -⟩ | ⟨-, uncovered⟩ := onGrid?_cases positive tie power
  · rw [result]
    exact Option.some_ne_none _
  · rw [result]
    exact Option.some_ne_none _
  · exact absurd (covers_pointBelow_succ fine) uncovered

/-- The search finds a covered point if its last grid is fine enough. -/
theorem covers_firstOnGrid (tie : Tie) (grids : Nat) (power : Int)
    (fine : (10 : ℚ) ^ (power - grids) ≤ 2 ^ (number.exponent - 2)) :
    number.Covers (number.firstOnGrid tie (grids + 1) power).value := by
  induction grids generalizing power with
  | zero =>
      rw [firstOnGrid]
      cases found : number.onGrid? tie power with
      | none =>
          rw [Nat.cast_zero, sub_zero] at fine
          exact (onGrid?_ne_none positive tie fine found).elim
      | some coefficient => exact covers_of_onGrid? positive found
  | succ grids ih =>
      rw [firstOnGrid]
      cases found : number.onGrid? tie power with
      | none =>
          refine ih (power - 1) ?_
          have same : power - 1 - grids = power - (grids + 1 : Nat) := by
            push_cast
            ring
          rwa [same]
      | some coefficient => exact covers_of_onGrid? positive found

end Grid

/-- Powers of ten against powers of two, for exponents in their usual ratio. -/
theorem pow_ten_le {tens twos : Int} (ratio : 100000 * tens ≤ 30103 * twos)
    (low : -1100 ≤ twos) (high : twos ≤ 1100) : (10 : ℚ) ^ tens ≤ 2 ^ (twos + 13) := by
  obtain ⟨count, rfl | rfl⟩ := tens.eq_nat_or_neg
  · rw [← pow_le_pow_iff_left₀ (by positivity) (by positivity) (three_ne_zero)]
    calc
      ((10 : ℚ) ^ (count : Int)) ^ 3 = (10 ^ 3) ^ count := by
        rw [zpow_natCast, ← pow_mul, ← pow_mul, mul_comm]
      _ ≤ (2 ^ 10) ^ count := pow_le_pow_left₀ (by norm_num) (by norm_num) _
      _ = 2 ^ (10 * count : Int) := by
        rw [← pow_mul, ← zpow_natCast]
        push_cast
        rfl
      _ ≤ 2 ^ ((twos + 13) * (3 : Nat)) := zpow_le_zpow_right₀ (by norm_num) (by push_cast; omega)
      _ = (2 ^ (twos + 13)) ^ 3 := zpow_mul _ _ _
  · have inverse : (2 : ℚ) ^ (-(twos + 13)) ≤ 10 ^ count := by
      rw [← pow_le_pow_iff_left₀ (by positivity) (by positivity) (by norm_num : 28 ≠ 0)]
      calc
        ((2 : ℚ) ^ (-(twos + 13))) ^ 28 = 2 ^ (-(twos + 13) * (28 : Nat)) :=
          (zpow_mul _ _ _).symm
        _ ≤ 2 ^ (93 * count : Int) := zpow_le_zpow_right₀ (by norm_num) (by push_cast; omega)
        _ = (2 ^ 93) ^ count := by
          rw [← pow_mul, ← zpow_natCast]
          push_cast
          rfl
        _ ≤ (10 ^ 28) ^ count := pow_le_pow_left₀ (by norm_num) (by norm_num) _
        _ = (10 ^ count) ^ 28 := by
          rw [← pow_mul, ← pow_mul, mul_comm]
    rw [zpow_neg, zpow_natCast]
    rw [zpow_neg] at inverse
    exact inv_le_of_inv_le₀ (by positivity) inverse

/-- The shortest numeral of a number is one that the number covers. -/
theorem covers_shortest {number : Binary} (storable : number.Storable)
    (positive : 0 < number.mantissa) (tie : Tie) :
    number.Covers (number.shortest tie).value := by
  have log : number.mantissa.log2 < 53 :=
    (Nat.log2_lt positive.ne').mpr storable.mantissa_lt
  have most := storable.exponent_le
  have least : -1074 ≤ number.exponent := by
    obtain ⟨-, bound⟩ | same := storable.normal <;> omega
  have position : number.powerAbove =
      (number.mantissa.log2 + 1 + number.exponent) * 30103 / 100000 + 2 := by
    rw [powerAbove, Int.fdiv_eq_ediv_of_nonneg _ (by norm_num)]
  refine covers_firstOnGrid positive tie 23 _ ?_
  have bound := @pow_ten_le ((number.mantissa.log2 + 1 + number.exponent) * 30103 / 100000)
    (number.mantissa.log2 + 1 + number.exponent) (by omega) (by omega) (by omega)
  have split : number.powerAbove - (23 : Nat) =
      (number.mantissa.log2 + 1 + number.exponent) * 30103 / 100000 + (-21) := by
    rw [position]
    push_cast
    ring
  rw [split, zpow_add₀ (by norm_num)]
  calc
    (10 : ℚ) ^ ((number.mantissa.log2 + 1 + number.exponent) * 30103 / 100000) *
        10 ^ (-21 : Int) ≤
      2 ^ ((number.mantissa.log2 + 1 + number.exponent : Int) + 13) * 2 ^ (-68 : Int) :=
        mul_le_mul bound (by norm_num) (by positivity) (by positivity)
    _ = 2 ^ ((number.mantissa.log2 + 1 + number.exponent : Int) + 13 + (-68)) :=
      (zpow_add₀ (by norm_num) _ _).symm
    _ ≤ 2 ^ (number.exponent - 2) := zpow_le_zpow_right₀ (by norm_num) (by omega)

/-- The shortest numeral of a number other than zero is not zero. -/
theorem coefficient_shortest_pos {number : Binary} (storable : number.Storable)
    (positive : 0 < number.mantissa) (tie : Tie) : 0 < (number.shortest tie).coefficient := by
  have above := (Numeral.bounds_of_covers storable positive
    (covers_shortest storable positive tie)).1
  rw [Nat.pos_iff_ne_zero]
  intro zero
  rw [Numeral.value, zero, Nat.cast_zero, zero_mul] at above
  exact absurd above (not_lt.mpr (by positivity))

end Binary

/-- The text of a finite number without a sign denotes a numeral that reads back as the
number. -/
theorem ofFloat?_toFloat_of_value {numeral : Numeral} {number : Binary}
    (storable : number.Storable) (sign : number.negative = false)
    (same : numeral.value = number.displayedValue) :
    Binary.ofFloat? numeral.toFloat = some number := by
  unfold Binary.displayedValue at same
  split at same
  · rename_i zero
    have coefficient : numeral.coefficient = 0 := by
      rw [Numeral.value, mul_eq_zero] at same
      obtain none | power := same
      · exact_mod_cast none
      · exact absurd power (by positivity)
    have exponent : number.exponent = -1074 := by
      obtain ⟨normal, -⟩ | least := storable.normal
      · omega
      · exact least
    have number_eq : number = ⟨false, 0, -1074⟩ := by
      rw [← zero, ← exponent, ← sign]
    rw [number_eq, Numeral.toFloat]
    simp only [coefficient, ↓reduceIte]
    decide +kernel
  · rename_i nonzero
    have positive : 0 < number.mantissa := Nat.pos_of_ne_zero nonzero
    refine Numeral.ofFloat?_toFloat storable positive sign ?_
    rw [same]
    exact Binary.covers_shortest storable positive .upward

/-- A numeral with the value of a number's text is read as the number. -/
theorem toFloat_eq_of_value {value : Float} {number : Binary} {numeral : Numeral}
    (finite : Binary.ofFloat? value = some number) (sign : number.negative = false)
    (same : numeral.value = number.displayedValue) : numeral.toFloat = value :=
  Binary.ofFloat?_injective
    (ofFloat?_toFloat_of_value (Binary.storable_of_ofFloat? finite) sign same) finite

end Stereograph.Decimal
