import Stereograph.Proofs.Decimal.Positional
import Stereograph.Proofs.Decimal.Rounding

/-!
# Numbers read from numerals

A numeral is read by a correctly rounded conversion, so it is read as the number that
covers it.  The conversion has a short way for few digits and small powers of ten, where
one exact product or quotient of floating-point numbers is rounded, and a long way for
all other numerals, where the product or quotient is taken of exact integers.
-/

namespace Stereograph.Decimal

open Float.Model (Format)
open Float.Model.UnpackedFloat

namespace Binary

/-- A number covers its own magnitude. -/
theorem covers_magnitude (number : Binary) : number.Covers number.magnitude := by
  have scale : (2 : ℚ) ^ number.exponent = 4 * 2 ^ (number.exponent - 2) := by
    rw [zpow_sub₀ (by norm_num)]
    norm_num
    ring
  have unit : (0 : ℚ) < 2 ^ (number.exponent - 2) := by positivity
  have reach : (1 : ℚ) ≤ number.lowerReach := by
    have : 1 ≤ number.lowerReach := by
      unfold lowerReach
      split <;> decide
    exact_mod_cast this
  have exact : number.magnitude =
      4 * number.mantissa * 2 ^ (number.exponent - 2) := by
    rw [magnitude, scale]
    ring
  have lower : (4 * number.mantissa - number.lowerReach) * (2 : ℚ) ^ (number.exponent - 2) <
      number.magnitude := by
    rw [exact]
    exact mul_lt_mul_of_pos_right (by linarith) unit
  have upper : number.magnitude <
      (4 * number.mantissa + 2) * (2 : ℚ) ^ (number.exponent - 2) := by
    rw [exact]
    exact mul_lt_mul_of_pos_right (by linarith) unit
  exact ⟨lower.le, upper.le, fun _ => ⟨lower.ne, upper.ne⟩⟩

/-- A number that is a natural number has it as its magnitude. -/
theorem magnitude_of_natural? {number : Binary} {natural : Nat}
    (whole : number.natural? = some natural) : number.magnitude = natural := by
  unfold natural? at whole
  rw [magnitude]
  split at whole
  · rename_i exponent same
    cases whole
    rw [same, Int.ofNat_eq_natCast, zpow_natCast]
    simp
  · rename_i exponent same
    split at whole
    · rename_i divides
      cases whole
      simp only [Nat.pow_eq] at divides ⊢
      rw [same, Int.negSucc_eq, zpow_neg, Nat.cast_div (Nat.dvd_of_mod_eq_zero divides)
        (by positivity), div_eq_mul_inv]
      push_cast
      congr 2
    · cases whole

theorem toFloat_eq_ofModel {number : Binary} (positive : 0 < number.mantissa)
    (sign : number.negative = false) :
    number.toFloat = .ofModel (.pack
      (.finite .positive number.mantissa number.exponent positive)) := by
  have unsigned : number.sign = .positive := by
    rw [Binary.sign, sign]
    rfl
  rw [toFloat, unpacked, dif_pos positive, unsigned]

/-! ## Products and quotients of numbers -/

section Arithmetic

variable {leftFloat rightFloat : Float} {left right number : Binary}
  (leftFinite : ofFloat? leftFloat = some left) (leftSign : left.negative = false)
  (leftNormal : 2 ^ 52 ≤ left.mantissa)
  (rightFinite : ofFloat? rightFloat = some right) (rightSign : right.negative = false)
  (rightPos : 0 < right.mantissa)
  (storable : number.Storable) (positive : 0 < number.mantissa)
  (sign : number.negative = false)

include leftFinite leftSign leftNormal rightFinite rightSign rightPos storable positive sign

theorem mul_eq_toFloat (covers : number.Covers (left.magnitude * right.magnitude)) :
    leftFloat * rightFloat = number.toFloat := by
  have leftPos : 0 < left.mantissa := by omega
  have signs : left.sign * right.sign = .positive := by
    simp only [Binary.sign, leftSign, rightSign]
    rfl
  have filled : 2 ^ 52 ≤ left.mantissa * right.mantissa :=
    leftNormal.trans (Nat.le_mul_of_pos_right _ rightPos)
  have log : 52 ≤ (left.mantissa * right.mantissa).log2 :=
    (Nat.le_log2 (by omega)).mpr filled
  have cutFrom : CutFrom (.ofMantissaAndAccuracy (left.mantissa * right.mantissa) .exact)
      (left.magnitude * right.magnitude / 2 ^ (left.exponent + right.exponent)) := by
    rw [value_mul, mul_div_cancel_right₀ _ (by positivity)]
    exact .exact _
  change Float.ofModel (.pack (Float.Model.UnpackedFloat.mul .binary64
    leftFloat.toModel.unpack rightFloat.toModel.unpack)) = _
  rw [unpack_eq_of_ofFloat? leftFinite, unpack_eq_of_ofFloat? rightFinite, unpacked,
    unpacked, dif_pos leftPos, dif_pos rightPos, toFloat_eq_ofModel positive sign]
  delta Float.Model.UnpackedFloat.mul
  dsimp only
  rw [signs, roundWithAccuracy_eq storable positive covers cutFrom (by omega)]

theorem div_eq_toFloat (covers : number.Covers (left.magnitude / right.magnitude)) :
    leftFloat / rightFloat = number.toFloat := by
  have leftPos : 0 < left.mantissa := by omega
  have signs : left.sign / right.sign = .positive := by
    simp only [Binary.sign, leftSign, rightSign]
    rfl
  change Float.ofModel (.pack (Float.Model.UnpackedFloat.div .binary64
    leftFloat.toModel.unpack rightFloat.toModel.unpack)) = _
  rw [unpack_eq_of_ofFloat? leftFinite, unpack_eq_of_ofFloat? rightFinite, unpacked,
    unpacked, dif_pos leftPos, dif_pos rightPos, toFloat_eq_ofModel positive sign]
  delta Float.Model.UnpackedFloat.div
  dsimp only
  rw [signs]
  rcases divides : divCore .binary64 left.mantissa left.exponent right.mantissa
    right.exponent with ⟨quotient, exponent, accuracy⟩
  obtain ⟨cutFrom, low⟩ := divCore_cutFrom leftPos rightPos _ _ divides
  rw [roundWithAccuracy_eq storable positive covers cutFrom low]

end Arithmetic

/-! ## Natural numbers of few digits -/

/-- The number with the value of a natural number below two to the power of 53. -/
def ofNatural (natural : Nat) : Binary :=
  ⟨false, natural * 2 ^ (52 - natural.log2), -(52 - natural.log2 : Nat)⟩

theorem magnitude_ofNatural (natural : Nat) : (ofNatural natural).magnitude = natural := by
  simp only [magnitude, ofNatural]
  rw [zpow_neg, zpow_natCast]
  push_cast
  field_simp

section Natural

variable {natural : Nat} (positive : 0 < natural) (small : natural < 2 ^ 53)

include positive small

theorem log2_le_of_small : natural.log2 ≤ 52 :=
  Nat.lt_succ_iff.mp ((Nat.log2_lt positive.ne').mpr small)

theorem ofNatural_normal :
    2 ^ 52 ≤ (ofNatural natural).mantissa ∧ (ofNatural natural).mantissa < 2 ^ 53 := by
  have bound := log2_le_of_small positive small
  have split : ∀ top, natural.log2 ≤ top →
      2 ^ natural.log2 * 2 ^ (top - natural.log2) = 2 ^ top := by
    intro top order
    rw [← Nat.pow_add]
    congr 1
    omega
  constructor
  · rw [← split 52 bound]
    exact Nat.mul_le_mul_right _ (Nat.log2_self_le positive.ne')
  · have upper : natural < 2 ^ (natural.log2 + 1) := Nat.lt_log2_self
    calc
      (ofNatural natural).mantissa < 2 ^ (natural.log2 + 1) * 2 ^ (52 - natural.log2) :=
        Nat.mul_lt_mul_of_pos_right upper (by positivity)
      _ = 2 ^ 53 := by
        rw [← Nat.pow_add]
        congr 1
        omega

theorem storable_ofNatural : (ofNatural natural).Storable := by
  obtain ⟨lower, upper⟩ := ofNatural_normal positive small
  refine ⟨upper, ?_, .inl ⟨lower, ?_⟩⟩
  · simp only [ofNatural]
    omega
  · simp only [ofNatural]
    omega

theorem toFloat_natural : natural.toUInt64.toFloat = (ofNatural natural).toFloat := by
  obtain ⟨lower, upper⟩ := ofNatural_normal positive small
  have mantissaPos : 0 < (ofNatural natural).mantissa := by omega
  have same : natural.toUInt64.toNat = natural := by
    simp [Nat.toUInt64]
    omega
  have order : compare (natural : Int) 0 = .gt :=
    compare_gt_iff_gt.mpr (by exact_mod_cast positive)
  have bound := log2_le_of_small positive small
  have target : Format.binary64.targetExponent (Float.Model.totalExponent natural 0) =
      -(52 - natural.log2 : Nat) := by
    rw [targetExponent_eq]
    omega
  have log : 52 ≤ (ofNatural natural).mantissa.log2 := (Nat.le_log2 (by omega)).mpr lower
  have cutFrom : CutFrom (.ofMantissaAndAccuracy (ofNatural natural).mantissa .exact)
      ((ofNatural natural).magnitude / 2 ^ (ofNatural natural).exponent) := by
    rw [magnitude, mul_div_cancel_right₀ _ (by positivity)]
    exact .exact _
  have rounded := roundWithAccuracy_eq (storable_ofNatural positive small) mantissaPos
    (covers_magnitude _) cutFrom (by omega) .positive
  rw [toFloat_eq_ofModel mantissaPos rfl, ← rounded]
  change Float.ofModel (.pack (ofNat .binary64 natural.toUInt64.toNat)) = _
  simp only [same, ofNat, ofInt, Float.Model.UnpackedFloat.normalize, order,
    Int.toNat_natCast, Float.Model.UnpackedFloat.round, target, decreaseExponent, Int.zero_sub,
    Int.neg_neg, Nat.shiftLeft_eq, ofNatural]

end Natural

/-! ## Powers of ten -/

theorem powersOfTen_exact : ∀ index : Fin Float.exactlyRepresentablePowersOfTen.size,
    (ofFloat? Float.exactlyRepresentablePowersOfTen[index]).map
        (fun number => (number.negative, number.natural?, decide (0 < number.mantissa))) =
      some (false, some (10 ^ index.val), true) := by
  decide +kernel

theorem exists_powerOfTen {power : Nat}
    (bound : power < Float.exactlyRepresentablePowersOfTen.size) :
    ∃ number, ofFloat? Float.exactlyRepresentablePowersOfTen[power] = some number ∧
      number.negative = false ∧ 0 < number.mantissa ∧ number.magnitude = 10 ^ power := by
  have entry := powersOfTen_exact ⟨power, bound⟩
  obtain ⟨number, finite, parts⟩ := Option.map_eq_some_iff.mp entry
  simp only [Prod.mk.injEq, decide_eq_true_eq] at parts
  obtain ⟨sign, whole, positive⟩ := parts
  exact ⟨number, finite, sign, positive, by exact_mod_cast magnitude_of_natural? whole⟩

end Binary

/-! ## Numerals -/

namespace Numeral

section Reading

variable {number : Binary} (storable : number.Storable) (positive : 0 < number.mantissa)

include storable positive

/-- The long way of reading, through exact integers. -/
theorem unpacked_ofScientific {coefficient : Nat} (nonzero : 0 < coefficient) {exponent : Int}
    (high : exponent ≤ 2048) (low : -(2048 + coefficient.log2 : Int) ≤ exponent)
    (covers : number.Covers (coefficient * 10 ^ exponent)) :
    ofScientific .binary64 coefficient exponent =
      .finite .positive number.mantissa number.exponent positive := by
  have notHigh : ¬exponent > 2 ^ Format.binary64.exponentBits := by
    change ¬exponent > 2048
    omega
  have notLow : ¬exponent < -((2 ^ Format.binary64.exponentBits : Int) + coefficient.log2) := by
    change ¬exponent < -(2048 + (coefficient.log2 : Int))
    omega
  unfold ofScientific
  rw [dif_neg nonzero.ne', if_neg notHigh, if_neg notLow]
  by_cases up : 0 ≤ exponent
  · rw [if_pos up]
    have power : (10 : ℚ) ^ exponent = (10 ^ exponent.toNat : Nat) := by
      rw [Nat.cast_pow, ← zpow_natCast, Int.toNat_of_nonneg up]
      rfl
    have cutFrom : CutFrom
        (.ofMantissaAndAccuracy ((coefficient <<< 53) * 10 ^ exponent.toNat) .exact)
        (coefficient * 10 ^ exponent / 2 ^ (-53 : Int)) := by
      have exact : (coefficient * 10 ^ exponent / 2 ^ (-53 : Int) : ℚ) =
          ((coefficient <<< 53) * 10 ^ exponent.toNat : Nat) := by
        rw [power, Nat.shiftLeft_eq]
        push_cast
        norm_num
        ring
      rw [exact]
      exact .exact _
    have filled : 2 ^ 53 ≤ (coefficient <<< 53) * 10 ^ exponent.toNat := by
      rw [Nat.shiftLeft_eq]
      calc
        2 ^ 53 ≤ coefficient * 2 ^ 53 := Nat.le_mul_of_pos_left _ nonzero
        _ ≤ coefficient * 2 ^ 53 * 10 ^ exponent.toNat :=
          Nat.le_mul_of_pos_right _ (by positivity)
    have log := (Nat.le_log2 (by omega)).mpr filled
    exact Binary.roundWithAccuracy_eq storable positive covers cutFrom (by omega) .positive
  · rw [if_neg up]
    have power : (coefficient * 10 ^ exponent : ℚ) =
        coefficient * 2 ^ (0 : Int) / ((10 ^ (-exponent).toNat : Nat) * 2 ^ (0 : Int)) := by
      rw [Nat.cast_pow, ← zpow_natCast, Int.toNat_of_nonneg (by omega), zpow_neg]
      simp
    delta Float.Model.UnpackedFloat.div
    dsimp only
    rcases divides : divCore .binary64 coefficient 0 (10 ^ (-exponent).toNat) 0 with
      ⟨quotient, cutExponent, accuracy⟩
    obtain ⟨cutFrom, bound⟩ := divCore_cutFrom nonzero (by positivity) 0 0 divides
    rw [← power] at cutFrom
    exact Binary.roundWithAccuracy_eq storable positive covers cutFrom bound .positive

variable (sign : number.negative = false)

include sign

/-- A numeral is read as the number that covers its value, by either way of reading. -/
theorem ofScientific_eq_toFloat {coefficient power : Nat} (nonzero : 0 < coefficient)
    (down : Bool)
    (covers : number.Covers (if down then coefficient / 10 ^ power else coefficient * 10 ^ power))
    (bounded : if down then power ≤ 2048 + coefficient.log2 else power ≤ 2048) :
    Float.ofScientific coefficient down power = number.toFloat := by
  unfold Float.ofScientific
  split
  · rename_i short
    obtain ⟨small, few⟩ := short
    have stored : power < Float.exactlyRepresentablePowersOfTen.size :=
      Nat.lt_succ_of_le few
    obtain ⟨ten, tenFinite, tenSign, tenPos, tenValue⟩ := Binary.exists_powerOfTen stored
    have natural := Binary.ofFloat?_toFloat (Binary.storable_ofNatural nonzero small)
    obtain ⟨normal, -⟩ := Binary.ofNatural_normal nonzero small
    rw [← Binary.toFloat_natural nonzero small] at natural
    cases down with
    | true =>
        refine Binary.div_eq_toFloat natural rfl normal tenFinite tenSign tenPos storable
          positive sign ?_
        simpa [Binary.magnitude_ofNatural, tenValue] using covers
    | false =>
        refine Binary.mul_eq_toFloat natural rfl normal tenFinite tenSign tenPos storable
          positive sign ?_
        simpa [Binary.magnitude_ofNatural, tenValue] using covers
  · rw [Binary.toFloat_eq_ofModel positive sign]
    refine congrArg (fun unpacked => Float.ofModel (.pack unpacked)) ?_
    cases down with
    | true =>
        have exponent : (if true = true then Int.negOfNat power else Int.ofNat power) =
            -(power : Int) := by
          simp [Int.negOfNat_eq]
        rw [exponent]
        refine unpacked_ofScientific storable positive nonzero (by omega) ?_ ?_
        · simp only [↓reduceIte] at bounded
          omega
        · simpa [zpow_neg, div_eq_mul_inv] using covers
    | false =>
        have exponent : (if false = true then Int.negOfNat power else Int.ofNat power) =
            (power : Int) := rfl
        rw [if_neg Bool.false_ne_true] at bounded
        rw [exponent]
        refine unpacked_ofScientific storable positive nonzero (by omega) (by omega) ?_
        simpa using covers

end Reading

theorem lt_pow_digitCount (numeral : Numeral) :
    numeral.coefficient < 10 ^ numeral.digitCount :=
  (Nat.length_toDigits_le_iff (by decide) Nat.length_toDigits_pos).mp le_rfl

theorem pow_digitCount_le {numeral : Numeral} (nonzero : 0 < numeral.coefficient) :
    10 ^ (numeral.digitCount - 1) ≤ numeral.coefficient := by
  by_cases single : numeral.digitCount - 1 = 0
  · rw [single]
    exact nonzero
  · by_contra less
    have short := (Nat.length_toDigits_le_iff (b := 10) (by decide)
      (Nat.pos_of_ne_zero single)).mpr (Nat.lt_of_not_le less)
    change numeral.digitCount ≤ numeral.digitCount - 1 at short
    omega

/-- The value of a numeral, by the position of its first digit. -/
theorem value_bounds {numeral : Numeral} (nonzero : 0 < numeral.coefficient) :
    (10 : ℚ) ^ (numeral.exponent + numeral.digitCount - 1) ≤ numeral.value ∧
      numeral.value < 10 ^ (numeral.exponent + numeral.digitCount) := by
  have digits : 0 < numeral.digitCount := Nat.length_toDigits_pos
  have scale : (0 : ℚ) < 10 ^ numeral.exponent := by positivity
  constructor
  · have power : numeral.exponent + numeral.digitCount - 1 =
        (numeral.digitCount - 1 : Nat) + numeral.exponent := by
      omega
    rw [power, zpow_add₀ (by norm_num), zpow_natCast, value]
    refine mul_le_mul_of_nonneg_right ?_ scale.le
    exact_mod_cast pow_digitCount_le nonzero
  · rw [add_comm, zpow_add₀ (by norm_num), zpow_natCast, value]
    refine mul_lt_mul_of_pos_right ?_ scale
    exact_mod_cast lt_pow_digitCount numeral

/-- Storable numbers cover neither very small nor very large rationals. -/
theorem bounds_of_covers {number : Binary} (storable : number.Storable)
    (positive : 0 < number.mantissa) {value : ℚ} (covers : number.Covers value) :
    (10 : ℚ) ^ (-324 : Int) < value ∧ value < 10 ^ (309 : Int) := by
  have one : (1 : ℚ) ≤ number.mantissa := by exact_mod_cast positive
  have top : (number.mantissa : ℚ) ≤ 2 ^ 53 := by exact_mod_cast storable.mantissa_lt.le
  have reach : (number.lowerReach : ℚ) ≤ 2 := by exact_mod_cast number.lowerReach_le
  have least : (-1076 : Int) ≤ number.exponent - 2 := by
    obtain ⟨-, bound⟩ | same := storable.normal <;> omega
  have most : number.exponent - 2 ≤ (969 : Int) := by
    have := storable.exponent_le
    omega
  have tiny : (2 : ℚ) ^ 1076 < 2 * 10 ^ 324 := by
    have : (2 : Nat) ^ 1076 < 2 * 10 ^ 324 := by decide +kernel
    exact_mod_cast this
  have huge : (4 * 2 ^ 53 + 2 : ℚ) * 2 ^ 969 < 10 ^ 309 := by
    have : (4 * 2 ^ 53 + 2 : Nat) * 2 ^ 969 < 10 ^ 309 := by decide +kernel
    exact_mod_cast this
  constructor
  · calc
      (10 : ℚ) ^ (-324 : Int) < 2 * 2 ^ (-1076 : Int) := by
        rw [zpow_neg, zpow_neg, zpow_ofNat, zpow_ofNat, ← div_eq_mul_inv,
          lt_div_iff₀ (by positivity), inv_mul_lt_iff₀ (by positivity), mul_comm]
        exact tiny
      _ ≤ 2 * 2 ^ (number.exponent - 2) :=
        mul_le_mul_of_nonneg_left (zpow_le_zpow_right₀ (by norm_num) least) (by norm_num)
      _ ≤ (4 * number.mantissa - number.lowerReach) * 2 ^ (number.exponent - 2) :=
        mul_le_mul_of_nonneg_right (by linarith) (by positivity)
      _ ≤ value := covers.lower
  · calc
      value ≤ (4 * number.mantissa + 2) * 2 ^ (number.exponent - 2) := covers.upper
      _ ≤ (4 * 2 ^ 53 + 2) * 2 ^ (969 : Int) :=
        mul_le_mul (by linarith) (zpow_le_zpow_right₀ (by norm_num) most) (by positivity)
          (by norm_num)
      _ < 10 ^ (309 : Int) := by
        rw [zpow_ofNat, zpow_ofNat]
        exact huge

/-- A numeral is read as the number that covers its value. -/
theorem toFloat_eq_toFloat {numeral : Numeral} {number : Binary} (storable : number.Storable)
    (positive : 0 < number.mantissa) (sign : number.negative = false)
    (covers : number.Covers numeral.value) : numeral.toFloat = number.toFloat := by
  obtain ⟨small, large⟩ := bounds_of_covers storable positive covers
  have nonzero : 0 < numeral.coefficient := by
    rw [Nat.pos_iff_ne_zero]
    intro zero
    rw [value, zero, Nat.cast_zero, zero_mul] at small
    exact absurd small (by norm_num)
  obtain ⟨lower, upper⟩ := value_bounds nonzero
  have order : ∀ {first second : Int}, (10 : ℚ) ^ first < 10 ^ second → first < second :=
    fun less => (zpow_lt_zpow_iff_right₀ (by norm_num)).mp less
  have notLow := order (small.trans upper)
  have notHigh := order (lower.trans_lt large)
  have log : numeral.digitCount ≤ numeral.coefficient.log2 + 1 := by
    have power : 2 ^ (numeral.digitCount - 1) ≤ numeral.coefficient :=
      (Nat.pow_le_pow_left (by decide) _).trans (pow_digitCount_le nonzero)
    have := (Nat.le_log2 nonzero.ne').mpr power
    omega
  unfold toFloat
  simp only
  rw [if_neg nonzero.ne', if_neg (by omega), if_neg (by omega)]
  split
  · rename_i power exponent
    rw [exponent, Int.ofNat_eq_natCast] at notHigh
    refine ofScientific_eq_toFloat storable positive sign nonzero false ?_ ?_
    · simpa [value, exponent] using covers
    · simp only [Bool.false_eq_true, ↓reduceIte]
      omega
  · rename_i power exponent
    rw [exponent, Int.negSucc_eq] at notLow
    refine ofScientific_eq_toFloat storable positive sign nonzero true ?_ ?_
    · simpa [value, exponent, zpow_negSucc, div_eq_mul_inv] using covers
    · simp only [↓reduceIte]
      omega

/-- A numeral reads back as the number that covers its value. -/
theorem ofFloat?_toFloat {numeral : Numeral} {number : Binary} (storable : number.Storable)
    (positive : 0 < number.mantissa) (sign : number.negative = false)
    (covers : number.Covers numeral.value) :
    Binary.ofFloat? numeral.toFloat = some number := by
  rw [toFloat_eq_toFloat storable positive sign covers]
  exact Binary.ofFloat?_toFloat storable

end Numeral

end Stereograph.Decimal
