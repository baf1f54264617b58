import Stereograph.Decimal.Single
import Stereograph.Proofs.Decimal.Rounding

/-!
# Rounding to single precision

A number of single precision is stored as it was rounded, unless it is beyond the largest
of them.  Rounding moves a number by at most a half of the last place that is kept, which is
a small share of the number or the half of the least number of all.
-/

namespace Stereograph.Decimal

open Float.Model (UnpackedFloat Format totalExponent)
open Float.Model.UnpackedFloat

/-- A magnitude with a sign. -/
def withSign : Sign → ℚ → ℚ
  | .positive, magnitude => magnitude
  | .negative, magnitude => -magnitude

/-- The rational number of an unpacked finite number. -/
def rational? : UnpackedFloat → Option ℚ
  | .zero _ => some 0
  | .finite sign mantissa exponent _ => some (withSign sign (mantissa * 2 ^ exponent))
  | .infinity _ | .notANumber => none

/-- The rational number of a finite number of single precision. -/
def singleValue? (number : Float32) : Option ℚ :=
  rational? number.toModel.unpack

/-! ## Packing -/

/-- The mantissas and exponents of finite numbers of single precision. -/
structure FitsSingle (mantissa : Nat) (exponent : Int) : Prop where
  mantissa_lt : mantissa < 2 ^ 24
  le_exponent : -149 ≤ exponent
  exponent_le : exponent ≤ 104
  normal : 2 ^ 23 ≤ mantissa ∨ exponent = -149

theorem ofBitVec_unpackSign_packComponents (sign : Sign) (exponent : BitVec 8)
    (mantissa : BitVec 23) :
    Sign.ofBitVec (unpackSign (packComponents .binary32 sign exponent mantissa)) = sign := by
  have highest : unpackSign (packComponents .binary32 sign exponent mantissa) =
      sign.toBitVec := by
    ext index inside
    obtain rfl : index = 0 := by omega
    have last : ((sign.toBitVec ++ exponent) ++ mantissa).getLsbD 31 = sign.toBitVec[0] := by
      rw [BitVec.getLsbD_append, BitVec.getLsbD_append]
      rfl
    delta unpackSign
    simp [packComponents]
    exact last
  rw [highest]
  cases sign <;> rfl

section Unpack

variable {mantissa : Nat} {exponent : Int} (positive : 0 < mantissa) (sign : Sign)

/-- The leading place of a normal number is not stored. -/
theorem unpack_normal (filled : 2 ^ 23 ≤ mantissa) (mantissa_lt : mantissa < 2 ^ 24)
    (le_exponent : -149 ≤ exponent) (exponent_le : exponent ≤ 104) :
    unpack .binary32 (packComponents .binary32 sign
        (BitVec.ofNat 8 (exponent + 150).toNat) (BitVec.ofNat 23 mantissa)) =
      .finite sign mantissa exponent positive := by
  have stored : (BitVec.ofNat 8 (exponent + 150).toNat).toNat = (exponent + 150).toNat := by
    rw [BitVec.toNat_ofNat]
    omega
  have notTop : BitVec.ofNat 8 (exponent + 150).toNat ≠ -1#8 := by
    rw [← BitVec.toNat_inj.ne, stored]
    change (exponent + 150).toNat ≠ 255
    omega
  have notZero : BitVec.ofNat 8 (exponent + 150).toNat ≠ 0#8 := by
    rw [← BitVec.toNat_inj.ne, stored]
    change (exponent + 150).toNat ≠ 0
    omega
  have whole : (1#1 ++ BitVec.ofNat 23 mantissa).toNat = mantissa := by
    rw [BitVec.toNat_append, ← Nat.shiftLeft_add_eq_or_of_lt (BitVec.isLt _),
      BitVec.toNat_ofNat]
    simp only [Nat.shiftLeft_eq]
    change 1 * 2 ^ 23 + mantissa % 2 ^ 23 = mantissa
    omega
  have unbiased : ((exponent + 150).toNat : Int) - ((127 : Nat) + (23 : Nat)) = exponent := by
    omega
  delta unpack
  dsimp only
  rw [if_neg (by rwa [unpackExponent_packComponents]),
    if_neg (by rwa [unpackExponent_packComponents])]
  congr 1
  · exact ofBitVec_unpackSign_packComponents _ _ _
  · rw [unpackMantissa_packComponents, whole]
  · rw [unpackExponent_packComponents, stored]
    exact unbiased

/-- All places of a subnormal number are stored. -/
theorem unpack_subnormal (unfilled : mantissa < 2 ^ 23) :
    unpack .binary32 (packComponents .binary32 sign 0#8 (BitVec.ofNat 23 mantissa)) =
      .finite sign mantissa (-149) positive := by
  have stored : (BitVec.ofNat 23 mantissa).toNat = mantissa := by
    rw [BitVec.toNat_ofNat]
    omega
  have notZero : BitVec.ofNat 23 mantissa ≠ 0#23 := by
    rw [← BitVec.toNat_inj.ne, stored]
    exact positive.ne'
  delta unpack
  dsimp only
  rw [if_neg (by rw [unpackExponent_packComponents]; decide),
    if_pos (by rw [unpackExponent_packComponents]),
    dif_neg (by rwa [unpackMantissa_packComponents])]
  congr 1
  · exact ofBitVec_unpackSign_packComponents _ _ _
  · rw [unpackMantissa_packComponents, stored]
  · rw [unpackExponent_packComponents]
    rfl

theorem unpack_pack (fits : FitsSingle mantissa exponent) :
    unpack .binary32 (pack .binary32 (.finite sign mantissa exponent positive)) =
      .finite sign mantissa exponent positive := by
  obtain ⟨mantissa_lt, le_exponent, exponent_le, normal⟩ := fits
  have biased : (exponent + Format.binary32.exponentBias + (23 : Nat)).toNat =
      (exponent + 150).toNat := by
    change (exponent + (127 : Nat) + (23 : Nat)).toNat = _
    congr 1
    omega
  have full : mantissa.log2 + 1 = Format.binary32.mantissaBits ↔ 2 ^ 23 ≤ mantissa := by
    change mantissa.log2 + 1 = 24 ↔ _
    rw [← Nat.le_log2 positive.ne']
    have below := (Nat.log2_lt positive.ne').mpr mantissa_lt
    omega
  delta pack
  dsimp only
  rw [biased, if_neg (by omega)]
  by_cases filled : 2 ^ 23 ≤ mantissa
  · rw [if_pos (full.mpr filled)]
    exact unpack_normal positive sign filled mantissa_lt le_exponent exponent_le
  · rw [if_neg (mt full.mp filled)]
    obtain rfl : exponent = -149 := normal.resolve_left filled
    exact unpack_subnormal positive sign (Nat.lt_of_not_le filled)

end Unpack

theorem unpack_pack_zero (sign : Sign) :
    unpack .binary32 (pack .binary32 (.zero sign)) = .zero sign := by
  cases sign <;> rfl

/-! ## Rounding -/

/-- The rounded mantissa is at most half a unit away. -/
theorem CutFrom.abs_roundedMantissa_sub_le {cut : ExtendedMantissa} {value : ℚ}
    (cutFrom : CutFrom cut value) : |(cut.roundedMantissa : ℚ) - value| ≤ 1 / 2 := by
  rw [abs_le]
  cases cutFrom with
  | exact mantissa =>
      change -(1 / 2) ≤ (mantissa : ℚ) - mantissa ∧ (mantissa : ℚ) - mantissa ≤ 1 / 2
      norm_num
  | @belowHalf mantissa _ above below =>
      change -(1 / 2) ≤ (mantissa : ℚ) - value ∧ (mantissa : ℚ) - value ≤ 1 / 2
      constructor <;> linarith
  | half mantissa =>
      change -(1 / 2) ≤ ((mantissa + mantissa % 2 : Nat) : ℚ) - (mantissa + 1 / 2) ∧
        ((mantissa + mantissa % 2 : Nat) : ℚ) - (mantissa + 1 / 2) ≤ 1 / 2
      obtain even | odd := Nat.mod_two_eq_zero_or_one mantissa
      · rw [even]
        constructor <;> push_cast <;> linarith
      · rw [odd]
        constructor <;> push_cast <;> linarith
  | @aboveHalf mantissa _ above below =>
      change -(1 / 2) ≤ ((mantissa + 1 : Nat) : ℚ) - value ∧
        ((mantissa + 1 : Nat) : ℚ) - value ≤ 1 / 2
      constructor <;> push_cast <;> linarith

/-- Exponent of the last place that single precision keeps of a number. -/
def singlePlace (mantissa : Nat) (exponent : Int) : Int :=
  max (mantissa.log2 + 1 + exponent - 24) (-149)

theorem targetExponent_single (mantissa : Nat) (exponent : Int) :
    Format.binary32.targetExponent (totalExponent mantissa exponent) =
      singlePlace mantissa exponent :=
  rfl

/-- A mantissa of at most 24 bits is not shifted. -/
theorem shiftToTargetExponent_single {mantissa : Nat} {place : Int}
    (mantissa_lt : mantissa < 2 ^ 24) (least : -149 ≤ place) :
    shiftToTargetExponent .binary32 mantissa place .exact = (⟨mantissa, false, false⟩, place) := by
  have log : mantissa.log2 ≤ 23 := by
    obtain rfl | positive := Nat.eq_zero_or_pos mantissa
    · decide
    · exact Nat.lt_succ_iff.mp ((Nat.log2_lt positive.ne').mpr mantissa_lt)
  have kept : Format.binary32.targetExponent (totalExponent mantissa place) ≤ place := by
    rw [targetExponent_single, singlePlace]
    omega
  exact shiftToTargetExponent_of_le kept

/-- A mantissa that was rounded up to the next binade is shifted once more. -/
theorem shiftToTargetExponent_single_carry {place : Int} (least : -149 ≤ place) :
    shiftToTargetExponent .binary32 (2 ^ 24) place .exact =
      (⟨2 ^ 23, false, false⟩, place + 1) := by
  have double : 2 * 2 ^ 23 = 2 ^ 24 := by norm_num
  have log : (2 ^ 24 : Nat).log2 = 24 := Nat.log2_two_pow
  have next : Format.binary32.targetExponent (totalExponent (2 ^ 24) place) = place + 1 := by
    rw [targetExponent_single, singlePlace, log]
    omega
  rw [← double] at next
  have shifted := shiftToTargetExponent_of_succ (2 ^ 23) next
  rwa [double] at shifted

section Round

variable {mantissa : Nat} {exponent : Int}

/-- The magnitude fills at most the 24 places from the last one up. -/
theorem magnitude_lt_singlePlace (mantissa : Nat) (exponent : Int) :
    (mantissa : ℚ) * 2 ^ exponent < 2 ^ (24 : Int) * 2 ^ singlePlace mantissa exponent := by
  have below : (mantissa : ℚ) * 2 ^ exponent < (mantissa + 1) * 2 ^ exponent :=
    mul_lt_mul_of_pos_right (lt_add_one _) (by positivity)
  calc
    (mantissa : ℚ) * 2 ^ exponent < 2 ^ (mantissa.log2 + 1 + exponent : Int) :=
      lt_zpow_of_cut below
    _ ≤ 2 ^ (24 + singlePlace mantissa exponent) := by
      apply zpow_le_zpow_right₀ one_le_two
      rw [singlePlace]
      omega
    _ = 2 ^ (24 : Int) * 2 ^ singlePlace mantissa exponent := zpow_add₀ two_ne_zero _ _

/-- The magnitude reaches the first of these places, unless the last is the least of all. -/
theorem singlePlace_le_magnitude (positive : 0 < mantissa)
    (above : singlePlace mantissa exponent ≠ -149) :
    (2 : ℚ) ^ (23 : Int) * 2 ^ singlePlace mantissa exponent ≤ mantissa * 2 ^ exponent := by
  calc
    (2 : ℚ) ^ (23 : Int) * 2 ^ singlePlace mantissa exponent =
        2 ^ (23 + singlePlace mantissa exponent) := (zpow_add₀ two_ne_zero _ _).symm
    _ = 2 ^ (mantissa.log2 + exponent : Int) := by
      congr 1
      rw [singlePlace] at above ⊢
      omega
    _ ≤ mantissa * 2 ^ exponent := zpow_le_of_cut positive.ne' le_rfl

/-- A rounded number of single precision: a mantissa at the last place that counts, within
half a unit of the number. -/
structure RoundsToSingle (mantissa : Nat) (exponent : Int) (rounded : Nat) : Prop where
  rounded_le : rounded ≤ 2 ^ 24
  normal : 2 ^ 23 ≤ rounded ∨ singlePlace mantissa exponent = -149
  near : |(rounded : ℚ) * 2 ^ singlePlace mantissa exponent - mantissa * 2 ^ exponent| ≤
    2 ^ singlePlace mantissa exponent / 2

/-- An unpacked number with a mantissa that may fill one place more than there are. -/
def carried (sign : Sign) (mantissa : Nat) (exponent : Int) : UnpackedFloat :=
  if positive : 0 < mantissa then
    if mantissa = 2 ^ 24 then .finite sign (2 ^ 23) (exponent + 1) (by decide)
    else .finite sign mantissa exponent positive
  else .zero sign

theorem roundsToSingle_of_near (positive : 0 < mantissa) {rounded : Nat}
    (near : |(rounded : ℚ) - mantissa * 2 ^ exponent / 2 ^ singlePlace mantissa exponent| ≤
      1 / 2) :
    RoundsToSingle mantissa exponent rounded := by
  have unit : (0 : ℚ) < 2 ^ singlePlace mantissa exponent := by positivity
  have below := magnitude_lt_singlePlace mantissa exponent
  rw [← div_lt_iff₀ unit] at below
  have bounds := abs_le.mp near
  refine ⟨?_, ?_, ?_⟩
  · have less : (rounded : ℚ) < (2 ^ 24 + 1 : Nat) := by
      push_cast
      norm_num at below
      linarith
    exact Nat.lt_succ_iff.mp (by exact_mod_cast less)
  · by_cases least : singlePlace mantissa exponent = -149
    · exact .inr least
    · have above := singlePlace_le_magnitude positive least
      rw [← le_div_iff₀ unit] at above
      have more : ((2 ^ 23 : Nat) : ℚ) < rounded + 1 := by
        push_cast
        norm_num at above
        linarith
      exact .inl (Nat.lt_succ_iff.mp (by exact_mod_cast more))
  · have scaled : (rounded : ℚ) * 2 ^ singlePlace mantissa exponent - mantissa * 2 ^ exponent =
        (rounded - mantissa * 2 ^ exponent / 2 ^ singlePlace mantissa exponent) *
          2 ^ singlePlace mantissa exponent := by
      rw [sub_mul, div_mul_cancel₀ _ unit.ne']
    rw [scaled, abs_mul, abs_of_pos unit]
    linarith [mul_le_mul_of_nonneg_right near unit.le]

theorem exists_round_single (positive : 0 < mantissa)
    (low : exponent ≤ singlePlace mantissa exponent) (sign : Sign) :
    ∃ rounded, RoundsToSingle mantissa exponent rounded ∧
      UnpackedFloat.round .binary32 sign mantissa exponent =
        carried sign rounded (singlePlace mantissa exponent) := by
  have whole : CutFrom (.ofMantissaAndAccuracy mantissa .exact)
      (mantissa * 2 ^ exponent / 2 ^ exponent) := by
    rw [mul_div_cancel_right₀ _ (by positivity)]
    exact .exact mantissa
  obtain ⟨cut, first, cutFrom⟩ :=
    shiftToTargetExponent_cutFrom (targetExponent_single mantissa exponent) low whole
  have rounds := roundsToSingle_of_near positive cutFrom.abs_roundedMantissa_sub_le
  refine ⟨cut.roundedMantissa, rounds, ?_⟩
  have kept : decreaseExponent mantissa exponent
      (Format.binary32.targetExponent (totalExponent mantissa exponent)) =
        (mantissa, exponent) := by
    have none : (exponent - singlePlace mantissa exponent).toNat = 0 := by omega
    simp [decreaseExponent, targetExponent_single, none]
  have rounded : UnpackedFloat.round .binary32 sign mantissa exponent =
      let final := shiftToTargetExponent .binary32 cut.roundedMantissa
        (singlePlace mantissa exponent) .exact
      if zero : final.1.mantissa = 0 then .zero sign
      else .finite sign final.1.mantissa final.2 (Nat.pos_of_ne_zero zero) := by
    rw [UnpackedFloat.round]
    dsimp only
    rw [kept]
    dsimp only
    rw [roundWithAccuracy, first]
  have least : -149 ≤ singlePlace mantissa exponent := le_max_right _ _
  by_cases carry : cut.roundedMantissa = 2 ^ 24
  · have second := shiftToTargetExponent_single_carry least
    have result : carried sign cut.roundedMantissa (singlePlace mantissa exponent) =
        .finite sign (2 ^ 23) (singlePlace mantissa exponent + 1) (by decide) := by
      rw [carry]
      rfl
    rw [← carry] at second
    rw [rounded, second, result]
    rfl
  · have small : cut.roundedMantissa < 2 ^ 24 := lt_of_le_of_ne rounds.rounded_le carry
    have second := shiftToTargetExponent_single small least
    rw [rounded, second, carried]
    dsimp only
    obtain zero | positive := Nat.eq_zero_or_pos cut.roundedMantissa
    · rw [dif_pos zero, dif_neg (by omega)]
    · rw [dif_neg positive.ne', dif_pos positive, if_neg carry]

/-- A rounded number below the range of single precision is stored as it is. -/
theorem rational?_unpack_pack_carried {rounded : Nat}
    (rounds : RoundsToSingle mantissa exponent rounded)
    (bounded : singlePlace mantissa exponent ≤ 103) (sign : Sign) :
    rational? (unpack .binary32 (pack .binary32
        (carried sign rounded (singlePlace mantissa exponent)))) =
      rational? (carried sign rounded (singlePlace mantissa exponent)) := by
  have least : -149 ≤ singlePlace mantissa exponent := le_max_right _ _
  rw [carried]
  by_cases positive : 0 < rounded
  · rw [dif_pos positive]
    by_cases carry : rounded = 2 ^ 24
    · rw [if_pos carry, unpack_pack _ _ ⟨by decide, by omega, by omega, .inl le_rfl⟩]
    · have small : rounded < 2 ^ 24 := lt_of_le_of_ne rounds.rounded_le carry
      rw [if_neg carry, unpack_pack _ _ ⟨small, least, by omega, rounds.normal⟩]
  · rw [dif_neg positive, unpack_pack_zero]

end Round

theorem rational?_carried (sign : Sign) (mantissa : Nat) (exponent : Int) :
    rational? (carried sign mantissa exponent) =
      some (withSign sign (mantissa * 2 ^ exponent)) := by
  rw [carried]
  by_cases positive : 0 < mantissa
  · rw [dif_pos positive]
    by_cases carry : mantissa = 2 ^ 24
    · subst carry
      rw [if_pos rfl]
      change some (withSign sign _) = _
      rw [zpow_add₀ two_ne_zero]
      push_cast
      congr 2
      ring
    · rw [if_neg carry]
      rfl
  · obtain rfl : mantissa = 0 := by omega
    rw [dif_neg positive]
    change some 0 = _
    cases sign <;> simp [withSign]

/-! ## Stored numbers -/

theorem isFinite_of_singleValue? {single : Float32} {value : ℚ}
    (stored : singleValue? single = some value) : single.isFinite = true := by
  change single.toModel.unpack.isFinite = true
  rw [singleValue?] at stored
  cases unpacked : single.toModel.unpack with
  | zero sign => rfl
  | finite sign mantissa exponent positive => rfl
  | infinity sign =>
      rw [unpacked] at stored
      cases stored
  | notANumber =>
      rw [unpacked] at stored
      cases stored

namespace Binary

variable {value : Float} {number : Binary}

theorem abs_withSign_sub (sign : Sign) (left right : ℚ) :
    |withSign sign left - withSign sign right| = |left - right| := by
  cases sign with
  | positive => rfl
  | negative => rw [withSign, withSign, neg_sub_neg, abs_sub_comm]

/-- Half of the last place is a share of the magnitude or half of the least number. -/
theorem half_singlePlace_le (positive : 0 < number.mantissa) :
    (2 : ℚ) ^ singlePlace number.mantissa number.exponent / 2 ≤
      number.magnitude * 2 ^ (-24 : Int) + 2 ^ (-150 : Int) := by
  have nonneg := number.magnitude_nonneg
  by_cases least : singlePlace number.mantissa number.exponent = -149
  · rw [least]
    have half : (2 : ℚ) ^ (-149 : Int) / 2 = 2 ^ (-150 : Int) := by norm_num
    rw [half]
    have share : 0 ≤ number.magnitude * (2 : ℚ) ^ (-24 : Int) := by positivity
    linarith
  · have filled := singlePlace_le_magnitude positive least
    rw [← magnitude] at filled
    have share : (2 : ℚ) ^ (23 : Int) * 2 ^ (-24 : Int) = 1 / 2 := by norm_num
    have least : (0 : ℚ) < 2 ^ (-150 : Int) := by positivity
    have scaled := mul_le_mul_of_nonneg_right filled (by positivity : (0 : ℚ) ≤ 2 ^ (-24 : Int))
    rw [mul_right_comm, share] at scaled
    linarith

theorem singlePlace_le (positive : 0 < number.mantissa)
    (small : number.magnitude < 2 ^ (127 : Int)) :
    singlePlace number.mantissa number.exponent ≤ 103 := by
  by_cases least : singlePlace number.mantissa number.exponent = -149
  · omega
  · have filled := (singlePlace_le_magnitude positive least).trans_lt small
    rw [← zpow_add₀ two_ne_zero, zpow_lt_zpow_iff_right₀ one_lt_two] at filled
    omega

theorem Storable.le_singlePlace (storable : number.Storable) (positive : 0 < number.mantissa) :
    number.exponent ≤ singlePlace number.mantissa number.exponent := by
  obtain ⟨mantissa_lt, exponent_le, ⟨filled, -⟩ | least⟩ := storable
  · have above : 52 ≤ number.mantissa.log2 := (Nat.le_log2 positive.ne').mpr filled
    rw [singlePlace]
    omega
  · rw [singlePlace]
    omega

/-- A number below the range of single precision is stored with a small error. -/
theorem exists_singleValue?_toSingle (finite : ofFloat? value = some number)
    (small : number.magnitude < 2 ^ (127 : Int)) :
    ∃ stored : ℚ, singleValue? (toSingle value) = some stored ∧
      |stored - withSign number.sign number.magnitude| ≤
        number.magnitude * 2 ^ (-24 : Int) + 2 ^ (-150 : Int) := by
  have packed : singleValue? (toSingle value) =
      rational? (unpack .binary32 (pack .binary32 (roundToSingle number.unpacked))) := by
    rw [← unpack_eq_of_ofFloat? finite]
    rfl
  rw [packed, unpacked]
  by_cases positive : 0 < number.mantissa
  · rw [dif_pos positive]
    have low := (storable_of_ofFloat? finite).le_singlePlace positive
    obtain ⟨rounded, rounds, roundedEq⟩ := exists_round_single positive low number.sign
    refine ⟨withSign number.sign
      (rounded * 2 ^ singlePlace number.mantissa number.exponent), ?_, ?_⟩
    · change rational? (unpack .binary32 (pack .binary32 (UnpackedFloat.round .binary32
        number.sign number.mantissa number.exponent))) = _
      rw [roundedEq, rational?_unpack_pack_carried rounds (singlePlace_le positive small),
        rational?_carried]
    · rw [abs_withSign_sub]
      exact rounds.near.trans (half_singlePlace_le positive)
  · rw [dif_neg positive]
    have magnitude_eq : number.magnitude = 0 := by
      obtain none : number.mantissa = 0 := by omega
      rw [magnitude, none, Nat.cast_zero, zero_mul]
    refine ⟨0, ?_, ?_⟩
    · exact congrArg rational? (unpack_pack_zero number.sign)
    · rw [magnitude_eq]
      cases number.sign <;> norm_num [withSign]

end Binary

end Stereograph.Decimal
