import Mathlib.Tactic
import Stereograph.Proofs.Decimal.Bits

/-!
# Rounding to binary numbers

Products and quotients of floating-point numbers are rounded from an exact mantissa that
keeps two more bits: whether the rest reaches a half, and whether anything is left
beyond that.  What counts of such a mantissa is the rational number that it was cut
from.  If a storable number is the nearest to that rational, it is the result.
-/

namespace Stereograph.Decimal

open Float.Model (Format totalExponent)
open Float.Model.UnpackedFloat

namespace Binary

/-- The rational number that a sign-free binary number stands for. -/
def magnitude (number : Binary) : ℚ :=
  number.mantissa * 2 ^ number.exponent

theorem magnitude_nonneg (number : Binary) : 0 ≤ number.magnitude := by
  rw [magnitude]
  positivity

/-- The rational numbers that round to a number.  The ends belong to it when its
mantissa is even. -/
structure Covers (number : Binary) (value : ℚ) : Prop where
  lower : (4 * number.mantissa - number.lowerReach) * (2 : ℚ) ^ (number.exponent - 2) ≤ value
  upper : value ≤ (4 * number.mantissa + 2) * (2 : ℚ) ^ (number.exponent - 2)
  ends : number.mantissa % 2 = 1 →
    (4 * number.mantissa - number.lowerReach) * (2 : ℚ) ^ (number.exponent - 2) ≠ value ∧
      value ≠ (4 * number.mantissa + 2) * (2 : ℚ) ^ (number.exponent - 2)

end Binary

/-! ## Cut mantissas -/

/-- A mantissa with a round bit and a sticky bit was cut from a rational number. -/
inductive CutFrom : ExtendedMantissa → ℚ → Prop
  | exact (mantissa : Nat) : CutFrom ⟨mantissa, false, false⟩ mantissa
  | belowHalf {mantissa : Nat} {value : ℚ} (above : (mantissa : ℚ) < value)
      (below : value < mantissa + 1 / 2) : CutFrom ⟨mantissa, false, true⟩ value
  | half (mantissa : Nat) : CutFrom ⟨mantissa, true, false⟩ (mantissa + 1 / 2)
  | aboveHalf {mantissa : Nat} {value : ℚ} (above : (mantissa : ℚ) + 1 / 2 < value)
      (below : value < mantissa + 1) : CutFrom ⟨mantissa, true, true⟩ value

namespace CutFrom

variable {cut : ExtendedMantissa} {value : ℚ}

theorem shiftRightOne_even (mantissa : Nat) (roundBit stickyBit : Bool) :
    ExtendedMantissa.shiftRightOne ⟨2 * mantissa, roundBit, stickyBit⟩ =
      ⟨mantissa, false, roundBit || stickyBit⟩ := by
  simp [ExtendedMantissa.shiftRightOne]

theorem shiftRightOne_odd (mantissa : Nat) (roundBit stickyBit : Bool) :
    ExtendedMantissa.shiftRightOne ⟨2 * mantissa + 1, roundBit, stickyBit⟩ =
      ⟨mantissa, true, roundBit || stickyBit⟩ := by
  have half : (2 * mantissa + 1) / 2 = mantissa := by omega
  simp [ExtendedMantissa.shiftRightOne, half]

theorem shiftRightOne (cutFrom : CutFrom cut value) :
    CutFrom cut.shiftRightOne (value / 2) := by
  cases cutFrom with
  | exact mantissa =>
      obtain ⟨half, rfl | rfl⟩ := mantissa.even_or_odd'
      · have value : ((2 * half : Nat) : ℚ) / 2 = half := by
          push_cast
          ring
        rw [shiftRightOne_even, value]
        exact .exact half
      · have value : ((2 * half + 1 : Nat) : ℚ) / 2 = half + 1 / 2 := by
          push_cast
          ring
        rw [shiftRightOne_odd, value]
        exact .half half
  | @belowHalf mantissa _ above below =>
      obtain ⟨half, rfl | rfl⟩ := mantissa.even_or_odd'
      · rw [shiftRightOne_even]
        push_cast at above below
        exact .belowHalf (by linarith) (by linarith)
      · rw [shiftRightOne_odd]
        push_cast at above below
        exact .aboveHalf (by linarith) (by linarith)
  | half mantissa =>
      obtain ⟨half, rfl | rfl⟩ := mantissa.even_or_odd'
      · rw [shiftRightOne_even]
        push_cast
        exact .belowHalf (by linarith) (by linarith)
      · rw [shiftRightOne_odd]
        push_cast
        exact .aboveHalf (by linarith) (by linarith)
  | @aboveHalf mantissa _ above below =>
      obtain ⟨half, rfl | rfl⟩ := mantissa.even_or_odd'
      · rw [shiftRightOne_even]
        push_cast at above below
        exact .belowHalf (by linarith) (by linarith)
      · rw [shiftRightOne_odd]
        push_cast at above below
        exact .aboveHalf (by linarith) (by linarith)

theorem shiftRight (cutFrom : CutFrom cut value) (count : Nat) :
    CutFrom (cut >>> count) (value / 2 ^ count) := by
  induction count with
  | zero =>
      rw [pow_zero, div_one]
      exact cutFrom
  | succ count ih =>
      rw [pow_succ, ← div_div]
      exact ih.shiftRightOne

/-- The nearest natural number is taken, and the even one of two that are as near. -/
theorem roundedMantissa_eq (cutFrom : CutFrom cut value) {nearest : Nat}
    (lower : (nearest : ℚ) - 1 / 2 ≤ value) (upper : value ≤ nearest + 1 / 2)
    (ends : nearest % 2 = 1 → (nearest : ℚ) - 1 / 2 ≠ value ∧ value ≠ nearest + 1 / 2) :
    cut.roundedMantissa = nearest := by
  have atLeast : ∀ {low : Nat}, (low : ℚ) < nearest + 1 → low ≤ nearest := by
    intro low left
    exact Nat.lt_succ_iff.mp (by exact_mod_cast left)
  have atMost : ∀ {high : Nat}, (nearest : ℚ) < high + 1 → nearest ≤ high := by
    intro high right
    exact Nat.lt_succ_iff.mp (by exact_mod_cast right)
  cases cutFrom with
  | exact mantissa =>
      change mantissa = nearest
      exact Nat.le_antisymm (atLeast (by linarith)) (atMost (by linarith))
  | @belowHalf mantissa _ above below =>
      change mantissa = nearest
      exact Nat.le_antisymm (atLeast (by linarith)) (atMost (by linarith))
  | half mantissa =>
      have low : mantissa ≤ nearest := atLeast (by linarith)
      have high : nearest ≤ mantissa + 1 := atMost (by push_cast; linarith)
      change mantissa + mantissa % 2 = nearest
      obtain rfl | rfl : nearest = mantissa ∨ nearest = mantissa + 1 := by omega
      · have even : nearest % 2 ≠ 1 := fun odd => (ends odd).2 rfl
        omega
      · have even : (mantissa + 1) % 2 ≠ 1 := fun odd => (ends odd).1 (by push_cast; ring)
        omega
  | @aboveHalf mantissa _ above below =>
      change mantissa + 1 = nearest
      exact Nat.le_antisymm (atLeast (by push_cast; linarith)) (atMost (by push_cast; linarith))

theorem mantissa_le (cutFrom : CutFrom cut value) : (cut.mantissa : ℚ) ≤ value := by
  cases cutFrom <;> simp only <;> linarith

theorem lt_mantissa_add_one (cutFrom : CutFrom cut value) : value < cut.mantissa + 1 := by
  cases cutFrom <;> simp only <;> linarith

end CutFrom

@[simp] theorem mantissa_ofMantissaAndAccuracy (mantissa : Nat) (accuracy : Accuracy) :
    (ExtendedMantissa.ofMantissaAndAccuracy mantissa accuracy).mantissa = mantissa := by
  cases accuracy with
  | exact => rfl
  | inexact order => cases order <;> rfl

/-! ## Shifting to the exponent of a format -/

section Shift

variable {format : Format} {mantissa : Nat} {exponent : Int}

/-- A mantissa whose last place the format keeps is not shifted. -/
theorem shiftToTargetExponent_of_le
    (kept : format.targetExponent (totalExponent mantissa exponent) ≤ exponent) :
    shiftToTargetExponent format mantissa exponent .exact =
      (⟨mantissa, false, false⟩, exponent) := by
  have still : (format.targetExponent (totalExponent mantissa exponent) - exponent).toNat = 0 :=
    Int.toNat_of_nonpos (by omega)
  simp only [shiftToTargetExponent, shiftToExponent, still]
  simp [ExtendedMantissa.ofMantissaAndAccuracy]
  rfl

/-- An even mantissa with one place too many is halved. -/
theorem shiftToTargetExponent_of_succ (half : Nat)
    (next : format.targetExponent (totalExponent (2 * half) exponent) = exponent + 1) :
    shiftToTargetExponent format (2 * half) exponent .exact =
      (⟨half, false, false⟩, exponent + 1) := by
  have one : (exponent + 1 - exponent).toNat = 1 := by omega
  simp only [shiftToTargetExponent, shiftToExponent, next, one]
  refine Prod.ext ?_ rfl
  exact CutFrom.shiftRightOne_even half false false

/-- The first shift leaves the value cut at the exponent of the format. -/
theorem shiftToTargetExponent_cutFrom {final : Int} {accuracy : Accuracy} {value : ℚ}
    (reached : format.targetExponent (totalExponent mantissa exponent) = final)
    (low : exponent ≤ final)
    (cutFrom : CutFrom (.ofMantissaAndAccuracy mantissa accuracy) (value / 2 ^ exponent)) :
    ∃ cut, shiftToTargetExponent format mantissa exponent accuracy = (cut, final) ∧
      CutFrom cut (value / 2 ^ final) := by
  refine ⟨ExtendedMantissa.ofMantissaAndAccuracy mantissa accuracy >>>
    (final - exponent).toNat, ?_, ?_⟩
  · simp only [shiftToTargetExponent, shiftToExponent, reached]
    refine Prod.ext rfl ?_
    simp only
    omega
  · have shifted := cutFrom.shiftRight (final - exponent).toNat
    have power : value / 2 ^ exponent / 2 ^ (final - exponent).toNat = value / 2 ^ final := by
      rw [div_div, ← zpow_natCast, ← zpow_add₀ (by norm_num)]
      congr 2
      omega
    rwa [power] at shifted

/-- A value cut from a mantissa lies below the end of the mantissa's binade. -/
theorem lt_zpow_of_cut {value : ℚ} (upper : value < (mantissa + 1) * 2 ^ exponent) :
    value < (2 : ℚ) ^ (mantissa.log2 + 1 + exponent : Int) := by
  refine upper.trans_le ?_
  rw [zpow_add₀ (by norm_num)]
  refine mul_le_mul_of_nonneg_right ?_ (by positivity)
  have := Nat.lt_log2_self (n := mantissa)
  exact_mod_cast this

/-- A value cut from a mantissa reaches the start of the mantissa's binade. -/
theorem zpow_le_of_cut (nonzero : mantissa ≠ 0) {value : ℚ}
    (lower : (mantissa : ℚ) * 2 ^ exponent ≤ value) :
    (2 : ℚ) ^ (mantissa.log2 + exponent : Int) ≤ value := by
  refine le_trans ?_ lower
  rw [zpow_add₀ (by norm_num)]
  refine mul_le_mul_of_nonneg_right ?_ (by positivity)
  exact_mod_cast Nat.log2_self_le nonzero

end Shift

/-! ## The exponent of the result -/

theorem targetExponent_eq (mantissa : Nat) (exponent : Int) :
    Format.binary64.targetExponent (totalExponent mantissa exponent) =
      max (mantissa.log2 + 1 + exponent - 53) (-1074) :=
  rfl

/-- A mantissa that was rounded up to the next binade is shifted once more. -/
theorem shiftToTargetExponent_carry {exponent : Int} (bound : -1074 < exponent) :
    shiftToTargetExponent .binary64 (2 ^ 53) (exponent - 1) .exact =
      (⟨2 ^ 52, false, false⟩, exponent) := by
  have double : 2 * 2 ^ 52 = 2 ^ 53 := by norm_num
  have log : (2 ^ 53 : Nat).log2 = 53 := Nat.log2_two_pow
  have next : Format.binary64.targetExponent (totalExponent (2 ^ 53) (exponent - 1)) =
      exponent - 1 + 1 := by
    rw [targetExponent_eq, log]
    omega
  rw [← double] at next
  have shifted := shiftToTargetExponent_of_succ (2 ^ 52) next
  rwa [double, sub_add_cancel] at shifted

namespace Binary

theorem lowerReach_le (number : Binary) : number.lowerReach ≤ 2 := by
  unfold lowerReach
  split <;> omega

theorem lowerReach_of_ne {number : Binary}
    (even : number.mantissa ≠ 2 ^ 52 ∨ number.exponent = -1074) : number.lowerReach = 2 := by
  unfold lowerReach
  rw [if_neg]
  rintro ⟨smallest, above⟩
  exact even.elim (fun other => other smallest) above

theorem lowerReach_of_smallest {number : Binary} (smallest : number.mantissa = 2 ^ 52)
    (least : -1074 < number.exponent) : number.lowerReach = 1 := by
  rw [lowerReach, if_pos ⟨smallest, least.ne'⟩]

theorem Storable.max_eq {number : Binary} (storable : number.Storable)
    (positive : 0 < number.mantissa) :
    max (number.mantissa.log2 + 1 + number.exponent - 53 : Int) (-1074) =
      number.exponent := by
  have below : number.mantissa.log2 < 53 :=
    (Nat.log2_lt positive.ne').mpr storable.mantissa_lt
  obtain ⟨normal, least⟩ | least := storable.normal
  · have above : 52 ≤ number.mantissa.log2 := (Nat.le_log2 positive.ne').mpr normal
    omega
  · omega

/-! ### The binades around what rounds to a number

Bounds are counted in quarters of the last place, as those of `Covers` are. -/

/-- A power of two in quarters of the last place. -/
theorem zpow_mul_quarter (power exponent : Int) :
    (2 : ℚ) ^ power * 2 ^ (exponent - 2) = 2 ^ (exponent + (power - 2)) := by
  rw [← zpow_add₀ (by norm_num)]
  congr 1
  ring

namespace Covers

variable {number : Binary} {value : ℚ}

theorem lt_zpow (covers : number.Covers value) (storable : number.Storable) :
    value < (2 : ℚ) ^ (number.exponent + 53) := by
  have mantissa_le : (number.mantissa : ℚ) ≤ 2 ^ 53 - 1 := by
    have := storable.mantissa_lt
    rw [le_sub_iff_add_le]
    exact_mod_cast this
  refine covers.upper.trans_lt ?_
  change _ < (2 : ℚ) ^ (number.exponent + (55 - 2))
  rw [← zpow_mul_quarter 55]
  refine mul_lt_mul_of_pos_right ?_ (by positivity)
  norm_num
  linarith

/-- A number that is not the smallest of its binade is reached from its own binade only. -/
theorem zpow_lt_of_larger (covers : number.Covers value) (larger : 2 ^ 52 < number.mantissa) :
    (2 : ℚ) ^ (number.exponent + 52) < value := by
  refine lt_of_lt_of_le ?_ covers.lower
  change (2 : ℚ) ^ (number.exponent + (54 - 2)) < _
  rw [← zpow_mul_quarter 54, lowerReach_of_ne (.inl larger.ne')]
  refine mul_lt_mul_of_pos_right ?_ (by positivity)
  have : (2 : ℚ) ^ 52 + 1 ≤ number.mantissa := by exact_mod_cast larger
  norm_num
  linarith

/-- The smallest number of a binade is reached from the binade below too. -/
theorem zpow_lt_of_smallest (covers : number.Covers value)
    (smallest : number.mantissa = 2 ^ 52) :
    (2 : ℚ) ^ (number.exponent + 51) < value := by
  refine lt_of_lt_of_le ?_ covers.lower
  change (2 : ℚ) ^ (number.exponent + (53 - 2)) < _
  rw [← zpow_mul_quarter 53]
  refine mul_lt_mul_of_pos_right ?_ (by positivity)
  have reach : (number.lowerReach : ℚ) ≤ 2 := by exact_mod_cast number.lowerReach_le
  rw [smallest]
  norm_num
  linarith

/-- The exponent to which an exact mantissa is shifted is that of the nearest number,
or one below it where the mantissa is going to be rounded up to the next binade. -/
theorem exponent (covers : number.Covers value) (storable : number.Storable) {mantissa : Nat}
    {exponent : Int} (low : exponent ≤ max (mantissa.log2 + 1 + exponent - 53 : Int) (-1074))
    (lower : (mantissa : ℚ) * 2 ^ exponent ≤ value)
    (upper : value < (mantissa + 1) * 2 ^ exponent) :
    max (mantissa.log2 + 1 + exponent - 53 : Int) (-1074) = number.exponent ∨
      (max (mantissa.log2 + 1 + exponent - 53 : Int) (-1074) = number.exponent - 1 ∧
        number.mantissa = 2 ^ 52 ∧ -1074 < number.exponent ∧
        value < (2 : ℚ) ^ (number.exponent + 52)) := by
  have order : ∀ {first second : Int}, (2 : ℚ) ^ first < 2 ^ second → first < second :=
    fun less => (zpow_lt_zpow_iff_right₀ (by norm_num)).mp less
  -- the exact value lies in the binade that the mantissa shows
  have below := lt_zpow_of_cut upper
  have notAbove : (mantissa.log2 + 1 + exponent - 53 : Int) ≤ max number.exponent (-1074) := by
    by_cases zero : mantissa = 0
    · rw [zero] at low ⊢
      simp at low ⊢
      omega
    · have := order ((zpow_le_of_cut zero lower).trans_lt (covers.lt_zpow storable))
      omega
  obtain ⟨normal, bound⟩ | least := storable.normal
  · obtain larger | smallest := lt_or_eq_of_le normal
    · have := order ((covers.zpow_lt_of_larger larger).trans below)
      omega
    · by_cases least : number.exponent = -1074
      · omega
      · have atLeast := order ((covers.zpow_lt_of_smallest smallest.symm).trans below)
        by_cases same : (mantissa.log2 + 1 + exponent - 53 : Int) = number.exponent - 1
        · have top : (mantissa.log2 + 1 + exponent : Int) = number.exponent + 52 := by omega
          rw [top] at below
          exact .inr ⟨by omega, smallest.symm, by omega, below⟩
        · omega
  · omega

/-! ### The mantissa of the result -/

/-- Cut at the exponent of the number, the value has the number's mantissa as the nearest. -/
theorem roundedMantissa_eq (covers : number.Covers value) {cut : ExtendedMantissa}
    (cutFrom : CutFrom cut (value / 2 ^ number.exponent)) :
    cut.roundedMantissa = number.mantissa := by
  have lower := covers.lower
  have upper := covers.upper
  have unit : (0 : ℚ) < 2 ^ (number.exponent - 2) := by positivity
  have reach : (number.lowerReach : ℚ) ≤ 2 := by exact_mod_cast number.lowerReach_le
  have quarter : (2 : ℚ) ^ number.exponent = 2 ^ (number.exponent - 2) * 4 := by
    rw [zpow_sub₀ (by norm_num)]
    norm_num
  have nonzero : (2 : ℚ) ^ (number.exponent - 2) * 4 ≠ 0 := by positivity
  rw [quarter] at cutFrom
  refine cutFrom.roundedMantissa_eq ?_ ?_ ?_
  · rw [le_div_iff₀ (by positivity)]
    nlinarith
  · rw [div_le_iff₀ (by positivity)]
    linarith
  · intro odd
    have other : number.mantissa ≠ 2 ^ 52 := by omega
    obtain ⟨left, right⟩ := covers.ends odd
    rw [lowerReach_of_ne (.inl other)] at left
    constructor
    · intro same
      rw [eq_div_iff nonzero] at same
      apply left
      rw [← same]
      push_cast
      ring
    · intro same
      rw [div_eq_iff nonzero] at same
      apply right
      rw [same]
      ring

/-- A value below the smallest number of a binade that rounds to it is rounded up to the
end of its own binade, whose last place is half as large. -/
theorem roundedMantissa_carry (covers : number.Covers value)
    (smallest : number.mantissa = 2 ^ 52) (least : -1074 < number.exponent)
    (top : value < (2 : ℚ) ^ (number.exponent + 52)) {cut : ExtendedMantissa}
    (cutFrom : CutFrom cut (value / 2 ^ (number.exponent - 1))) :
    cut.roundedMantissa = 2 ^ 53 := by
  have half : (2 : ℚ) ^ (number.exponent - 1) = 2 ^ (number.exponent - 2) * 2 := by
    rw [zpow_sub₀ (by norm_num), zpow_sub₀ (by norm_num)]
    norm_num
    ring
  have lower := covers.lower
  rw [smallest, lowerReach_of_smallest smallest least] at lower
  push_cast at lower
  change value < (2 : ℚ) ^ (number.exponent + (54 - 2)) at top
  rw [← zpow_mul_quarter 54] at top
  norm_num at top
  rw [half] at cutFrom
  refine cutFrom.roundedMantissa_eq ?_ ?_ ?_
  · rw [le_div_iff₀ (by positivity)]
    push_cast
    linarith
  · rw [div_le_iff₀ (by positivity)]
    push_cast
    linarith
  · intro odd
    norm_num at odd

end Covers

/-- An exact mantissa is rounded to the number that covers what it was cut from. -/
theorem roundWithAccuracy_eq {number : Binary} (storable : number.Storable)
    (positive : 0 < number.mantissa) {mantissa : Nat} {exponent : Int} {accuracy : Accuracy}
    {value : ℚ} (covers : number.Covers value)
    (cutFrom : CutFrom (.ofMantissaAndAccuracy mantissa accuracy) (value / 2 ^ exponent))
    (low : exponent ≤ max (mantissa.log2 + 1 + exponent - 53 : Int) (-1074))
    (sign : Sign) :
    roundWithAccuracy .binary64 sign mantissa exponent accuracy =
      .finite sign number.mantissa number.exponent positive := by
  have scale : (0 : ℚ) < 2 ^ exponent := by positivity
  have lower : (mantissa : ℚ) * 2 ^ exponent ≤ value := by
    have := cutFrom.mantissa_le
    rwa [mantissa_ofMantissaAndAccuracy, le_div_iff₀ scale] at this
  have upper : value < (mantissa + 1) * 2 ^ exponent := by
    have := cutFrom.lt_mantissa_add_one
    rwa [mantissa_ofMantissaAndAccuracy, div_lt_iff₀ scale] at this
  obtain ⟨cut, first, cutFrom⟩ :=
    shiftToTargetExponent_cutFrom (targetExponent_eq mantissa exponent) low cutFrom
  obtain same | ⟨carry, smallest, least, top⟩ := covers.exponent storable low lower upper
  · have kept : Format.binary64.targetExponent
        (totalExponent number.mantissa number.exponent) ≤ number.exponent := by
      rw [targetExponent_eq, storable.max_eq positive]
    rw [same] at first cutFrom
    rw [roundWithAccuracy, first]
    dsimp only
    rw [covers.roundedMantissa_eq cutFrom, shiftToTargetExponent_of_le kept]
    exact dif_neg positive.ne'
  · rw [carry] at first cutFrom
    rw [roundWithAccuracy, first]
    dsimp only
    rw [covers.roundedMantissa_carry smallest least top cutFrom,
      shiftToTargetExponent_carry least]
    refine (dif_neg (by norm_num)).trans ?_
    congr 1
    exact smallest.symm

end Binary

/-! ## Exact products and quotients -/

/-- A quotient with its remainder shows where the exact quotient lies. -/
theorem cutFrom_accuracyOfFraction (dividend : Nat) {divisor : Nat}
    (positive : 0 < divisor) :
    CutFrom (.ofMantissaAndAccuracy (dividend / divisor)
      (accuracyOfFraction (dividend % divisor) divisor)) (dividend / divisor) := by
  have divisorPos : (0 : ℚ) < divisor := by exact_mod_cast positive
  have split : (dividend : ℚ) / divisor =
      (dividend / divisor : Nat) + (dividend % divisor : Nat) / divisor := by
    have parts : (dividend : ℚ) =
        divisor * (dividend / divisor : Nat) + (dividend % divisor : Nat) := by
      exact_mod_cast (Nat.div_add_mod dividend divisor).symm
    rw [div_eq_iff divisorPos.ne', add_mul, div_mul_cancel₀ _ divisorPos.ne', mul_comm]
    exact parts
  have remainder_lt : ((dividend % divisor : Nat) : ℚ) < divisor := by
    exact_mod_cast Nat.mod_lt dividend positive
  rw [split, accuracyOfFraction]
  generalize dividend / divisor = quotient
  generalize dividend % divisor = remainder at *
  split
  · rename_i zero
    rw [zero, Nat.cast_zero, zero_div, add_zero]
    exact .exact quotient
  · rename_i nonzero
    have remainderPos : (0 : ℚ) < remainder := by
      exact_mod_cast Nat.pos_of_ne_zero nonzero
    rcases order : compare (2 * remainder) divisor with _ | _ | _
    · have less : (2 * remainder : ℚ) < divisor := by
        exact_mod_cast compare_lt_iff_lt.mp order
      refine .belowHalf ?_ ?_
      · have := div_pos remainderPos divisorPos
        linarith
      · have : (remainder : ℚ) / divisor < 1 / 2 := by
          rw [div_lt_iff₀ divisorPos]
          linarith
        linarith
    · have same : (2 * remainder : ℚ) = divisor := by
        exact_mod_cast compare_eq_iff_eq.mp order
      have half : (remainder : ℚ) / divisor = 1 / 2 := by
        rw [div_eq_iff divisorPos.ne']
        linarith
      rw [half]
      exact .half quotient
    · have greater : (divisor : ℚ) < 2 * remainder := by
        exact_mod_cast compare_gt_iff_gt.mp order
      refine .aboveHalf ?_ ?_
      · have : (1 : ℚ) / 2 < remainder / divisor := by
          rw [lt_div_iff₀ divisorPos]
          linarith
        linarith
      · have : (remainder : ℚ) / divisor < 1 := by
          rw [div_lt_one divisorPos]
          exact remainder_lt
        linarith

/-- The quotient of two mantissas is cut with bits enough for the format. -/
theorem divCore_cutFrom {leftMantissa rightMantissa : Nat} (leftPos : 0 < leftMantissa)
    (rightPos : 0 < rightMantissa) (leftExponent rightExponent : Int) {quotient : Nat}
    {exponent : Int} {accuracy : Accuracy}
    (divides : divCore .binary64 leftMantissa leftExponent rightMantissa rightExponent =
      (quotient, exponent, accuracy)) :
    CutFrom (.ofMantissaAndAccuracy quotient accuracy)
        ((leftMantissa * 2 ^ leftExponent / (rightMantissa * 2 ^ rightExponent)) /
          2 ^ exponent) ∧
      exponent ≤ max (quotient.log2 + 1 + exponent - 53 : Int) (-1074) := by
  have target : ∀ total : Int, Format.binary64.targetExponent total =
      max (total - 53) (-1074) := fun _ => rfl
  simp only [divCore, totalExponent, target, Prod.mk.injEq] at divides
  obtain ⟨quotientEq, exponentEq, rfl⟩ := divides
  rw [exponentEq] at quotientEq ⊢
  have shift : ((leftExponent - rightExponent - exponent).toNat : Int) =
      leftExponent - rightExponent - exponent := by
    omega
  generalize (leftExponent - rightExponent - exponent).toNat = count at *
  rw [Nat.shiftLeft_eq] at quotientEq ⊢
  have rightNonzero : (rightMantissa : ℚ) ≠ 0 := by exact_mod_cast rightPos.ne'
  constructor
  · have same : ((leftMantissa * 2 ^ count : Nat) : ℚ) / rightMantissa =
        leftMantissa * 2 ^ leftExponent / (rightMantissa * 2 ^ rightExponent) /
          2 ^ exponent := by
      have power : (2 : ℚ) ^ count = 2 ^ leftExponent / 2 ^ rightExponent / 2 ^ exponent := by
        rw [← zpow_natCast, shift, zpow_sub₀ (by norm_num), zpow_sub₀ (by norm_num)]
      push_cast
      rw [power]
      field_simp
    rw [← same, ← quotientEq]
    exact cutFrom_accuracyOfFraction _ rightPos
  · by_cases least : exponent ≤ -1074
    · omega
    · -- the quotient then fills the mantissa
      have filled : 2 ^ 52 ≤ quotient := by
        rw [← quotientEq, Nat.le_div_iff_mul_le rightPos]
        have right : rightMantissa < 2 ^ (rightMantissa.log2 + 1) := Nat.lt_log2_self
        have left : 2 ^ leftMantissa.log2 ≤ leftMantissa := Nat.log2_self_le leftPos.ne'
        calc
          2 ^ 52 * rightMantissa ≤ 2 ^ 52 * 2 ^ (rightMantissa.log2 + 1) :=
            Nat.mul_le_mul_left _ right.le
          _ = 2 ^ (52 + (rightMantissa.log2 + 1)) := (Nat.pow_add 2 _ _).symm
          _ ≤ 2 ^ (leftMantissa.log2 + count) := Nat.pow_le_pow_right (by decide) (by omega)
          _ = 2 ^ leftMantissa.log2 * 2 ^ count := Nat.pow_add 2 _ _
          _ ≤ leftMantissa * 2 ^ count := Nat.mul_le_mul_right _ left
      have log : 52 ≤ quotient.log2 := (Nat.le_log2 (by omega)).mpr filled
      omega

namespace Binary

variable {left right number : Binary}

theorem value_mul (left right : Binary) :
    left.magnitude * right.magnitude =
      (left.mantissa * right.mantissa : Nat) * 2 ^ (left.exponent + right.exponent) := by
  rw [magnitude, magnitude, zpow_add₀ (by norm_num)]
  push_cast
  ring

end Binary

end Stereograph.Decimal
