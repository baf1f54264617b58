import Mathlib.Tactic.Linarith
import Mathlib.Tactic.Ring
import Stereograph.Decimal.Binary

/-!
# Stored bits of finite numbers

A finite floating-point number and its signed mantissa and exponent determine each
other.  The mantissas and exponents that occur are the storable ones: the mantissa is
normal, or the exponent is the least one.

The operations of floating-point numbers are specified on numbers that are unpacked to
a sign, a mantissa and an exponent and packed again afterwards.  The bridge to that
form is here, so that no later proof looks at a bit.
-/

namespace Stereograph.Decimal.Binary

open Float.Model (UnpackedFloat Format)
open Float.Model.UnpackedFloat

/-- The sign, mantissa and exponent of some finite floating-point number. -/
structure Storable (number : Binary) : Prop where
  mantissa_lt : number.mantissa < 2 ^ 53
  exponent_le : number.exponent ≤ 971
  normal : (2 ^ 52 ≤ number.mantissa ∧ -1074 ≤ number.exponent) ∨
    number.exponent = -1074

/-- The sign as the model of floating-point numbers writes it. -/
def sign (number : Binary) : Sign :=
  if number.negative then .negative else .positive

/-- The number as the model of floating-point numbers unpacks it. -/
def unpacked (number : Binary) : UnpackedFloat :=
  if positive : 0 < number.mantissa then
    .finite number.sign number.mantissa number.exponent positive
  else
    .zero number.sign

/-- The floating-point number with a storable sign, mantissa and exponent. -/
def toFloat (number : Binary) : Float :=
  .ofModel (.pack number.unpacked)

/-! ## Fields of a bit pattern -/

section Fields

variable (bits : BitVec 64)

theorem toNat_unpackMantissa :
    (@unpackMantissa .binary64 bits).toNat = bits.toNat % 2 ^ 52 := by
  simp [unpackMantissa, BitVec.extractLsb_toNat]

theorem toNat_unpackExponent :
    (@unpackExponent .binary64 bits).toNat =
      bits.toNat / 2 ^ 52 % 2 ^ 11 := by
  simp [unpackExponent, BitVec.extractLsb_toNat, Nat.shiftRight_eq_div_pow]

theorem ofBitVec_unpackSign :
    Sign.ofBitVec (@unpackSign .binary64 bits) =
      if bits.toNat.testBit 63 then .negative else .positive := by
  have highest : @unpackSign .binary64 bits =
      BitVec.ofBool (bits.toNat.testBit 63) := by
    ext index inside
    obtain rfl : index = 0 := by omega
    delta unpackSign
    simp [BitVec.testBit_toNat]
    rfl
  rw [highest]
  cases bits.toNat.testBit 63 <;> rfl

theorem toNat_packComponents (sign : Sign) (exponent : BitVec 11)
    (mantissa : BitVec 52) :
    (packComponents .binary64 sign exponent mantissa).toNat =
      sign.toBitVec.toNat * 2 ^ 63 + exponent.toNat * 2 ^ 52 + mantissa.toNat := by
  simp only [packComponents, BitVec.toNat_append]
  rw [← Nat.shiftLeft_add_eq_or_of_lt exponent.isLt,
    ← Nat.shiftLeft_add_eq_or_of_lt mantissa.isLt]
  simp only [Nat.shiftLeft_eq]
  omega

theorem exponent_eq_top_iff (exponent : BitVec 11) :
    exponent = -1#11 ↔ exponent.toNat = 2047 := by
  rw [← BitVec.toNat_inj]
  rfl

theorem field_eq_zero_iff {width : Nat} (field : BitVec width) :
    field = BitVec.ofNat width 0 ↔ field.toNat = 0 := by
  rw [← BitVec.toNat_inj]
  simp

theorem toNat_one_append (mantissa : BitVec 52) :
    (1#1 ++ mantissa).toNat = mantissa.toNat + 2 ^ 52 := by
  rw [BitVec.toNat_append, ← Nat.shiftLeft_add_eq_or_of_lt mantissa.isLt]
  simp [Nat.shiftLeft_eq, Nat.add_comm]

end Fields

/-! ## Order -/

section Order

theorem lt_iff_unpack (left right : Float) :
    left < right ↔ left.toModel.unpack.lt right.toModel.unpack = true :=
  decide_eq_true_iff (p := left.toModel < right.toModel)

theorem le_iff_unpack (left right : Float) :
    left ≤ right ↔ left.toModel.unpack.le right.toModel.unpack = true :=
  decide_eq_true_iff (p := left.toModel ≤ right.toModel)

theorem unpack_zero : (0 : Float).toModel.unpack = .zero .positive :=
  rfl

/-- The finite numbers are ordered, so one that is not at most zero is positive. -/
theorem pos_of_not_le_zero {value : Float} (finite : value.isFinite = true)
    (notAtMost : ¬value ≤ 0) : 0 < value := by
  change value.toModel.unpack.isFinite = true at finite
  rw [le_iff_unpack, unpack_zero] at notAtMost
  rw [lt_iff_unpack, unpack_zero]
  cases unpacked : value.toModel.unpack with
  | infinity sign =>
      rw [unpacked] at finite
      cases finite
  | notANumber =>
      rw [unpacked] at finite
      cases finite
  | zero sign =>
      rw [unpacked] at notAtMost
      exact absurd rfl notAtMost
  | finite sign mantissa exponent mantissa_pos =>
      rw [unpacked] at notAtMost
      cases sign with
      | negative => exact absurd rfl notAtMost
      | positive => rfl

theorem not_le_zero_of_pos {value : Float} (positive : 0 < value) : ¬value ≤ 0 := by
  rw [lt_iff_unpack, unpack_zero] at positive
  rw [le_iff_unpack, unpack_zero]
  cases unpacked : value.toModel.unpack with
  | notANumber => exact Bool.false_ne_true
  | zero sign =>
      rw [unpacked] at positive
      cases positive
  | infinity sign =>
      rw [unpacked] at positive
      cases sign with
      | negative => cases positive
      | positive => exact Bool.false_ne_true
  | finite sign mantissa exponent mantissa_pos =>
      rw [unpacked] at positive
      cases sign with
      | negative => cases positive
      | positive => exact Bool.false_ne_true

end Order

/-! ## From bits to the number -/

section Reading

variable {value : Float} {number : Binary}

theorem storable_of_ofFloat? (finite : ofFloat? value = some number) :
    number.Storable := by
  simp only [ofFloat?, Nat.pow_eq] at finite
  split at finite
  · cases finite
  split at finite
  · cases finite
    exact ⟨by simp only; omega, by simp, .inr rfl⟩
  · cases finite
    exact ⟨by simp only; omega, by simp only; omega,
      .inl ⟨by simp only; omega, by simp only; omega⟩⟩

/-- The highest bit is the sign. -/
theorem testBit_of_ofFloat? (finite : ofFloat? value = some number) :
    value.toBits.toNat.testBit 63 = number.negative := by
  simp only [ofFloat?] at finite
  split at finite
  · cases finite
  · split at finite <;> cases finite <;> rfl

/-- A finite unpacked number is that of its sign, mantissa and exponent. -/
theorem finite_eq_unpacked {sign : Sign} {mantissa : Nat} {exponent : Int}
    (positive : 0 < mantissa) (signEq : sign = number.sign)
    (mantissaEq : mantissa = number.mantissa) (exponentEq : exponent = number.exponent) :
    .finite sign mantissa exponent positive = number.unpacked := by
  subst signEq mantissaEq exponentEq
  rw [unpacked, dif_pos positive]

theorem unpack_eq_of_ofFloat? (finite : ofFloat? value = some number) :
    value.toModel.unpack = number.unpacked := by
  change UnpackedFloat.unpack .binary64 value.toBits.toBitVec = _
  have sign := ofBitVec_unpackSign value.toBits.toBitVec
  have stored := toNat_unpackExponent value.toBits.toBitVec
  have field := toNat_unpackMantissa value.toBits.toBitVec
  have leading := toNat_one_append (@unpackMantissa .binary64 value.toBits.toBitVec)
  rw [field] at leading
  rw [UInt64.toNat_toBitVec] at sign stored field leading
  delta UnpackedFloat.unpack
  dsimp only
  simp only [ofFloat?, Nat.pow_eq] at finite
  split at finite
  · cases finite
  rename_i notTop
  rw [if_neg (mt (exponent_eq_top_iff _).mp (by rwa [stored]))]
  split at finite
  · rename_i least
    cases finite
    rw [if_pos ((field_eq_zero_iff _).mpr (stored.trans least))]
    by_cases zero : value.toBits.toNat % 2 ^ 52 = 0
    · rw [dif_pos ((field_eq_zero_iff _).mpr (field.trans zero)), unpacked,
        dif_neg (by simp only; omega), sign]
      rfl
    · rw [dif_neg (mt (field_eq_zero_iff _).mp (by rwa [field]))]
      refine finite_eq_unpacked _ sign field ?_
      rw [stored, least]
      rfl
  · rename_i normal
    cases finite
    rw [if_neg (mt (field_eq_zero_iff _).mp (by rwa [stored]))]
    refine finite_eq_unpacked _ sign leading ?_
    rw [stored]
    rfl

theorem toNat_toBits_of_ofFloat? (finite : ofFloat? value = some number) :
    value.toBits.toNat =
      number.negative.toNat * 2 ^ 63 +
        (if number.mantissa < 2 ^ 52 then 0 else (number.exponent + 1075).toNat) *
          2 ^ 52 +
        number.mantissa % 2 ^ 52 := by
  have bound : value.toBits.toNat < 2 ^ 64 := value.toBits.toNat_lt
  have sign : (value.toBits.toNat.testBit 63).toNat = value.toBits.toNat / 2 ^ 63 := by
    rw [Nat.testBit_eq_decide_div_mod_eq]
    obtain low | high :
        value.toBits.toNat / 2 ^ 63 = 0 ∨ value.toBits.toNat / 2 ^ 63 = 1 := by
      omega
    · simp only [low]
      rfl
    · simp only [high]
      rfl
  simp only [ofFloat?, Nat.pow_eq] at finite
  split at finite
  · cases finite
  split at finite
  · cases finite
    simp only [sign]
    rw [if_pos (by omega)]
    omega
  · cases finite
    simp only [sign]
    rw [if_neg (by omega)]
    omega

/-- A finite number is determined by its sign, mantissa and exponent. -/
theorem ofFloat?_injective {left right : Float}
    (leftFinite : ofFloat? left = some number)
    (rightFinite : ofFloat? right = some number) : left = right := by
  have bits : left.toBits.toNat = right.toBits.toNat := by
    rw [toNat_toBits_of_ofFloat? leftFinite, toNat_toBits_of_ofFloat? rightFinite]
  obtain ⟨⟨leftBits, _⟩⟩ := left
  obtain ⟨⟨rightBits, _⟩⟩ := right
  obtain rfl : leftBits = rightBits := UInt64.toNat_inj.mp bits
  rfl

/-- The finite values are those that have a sign, a mantissa and an exponent. -/
theorem isFinite_iff : value.isFinite = true ↔ ∃ number, ofFloat? value = some number := by
  constructor
  · intro finite
    rw [← Option.isSome_iff_exists]
    by_contra missing
    have top : value.toBits.toNat / 2 ^ 52 % 2 ^ 11 = 2047 := by
      simp only [ofFloat?, Nat.pow_eq] at missing
      split at missing
      · assumption
      · split at missing <;> simp at missing
    change (UnpackedFloat.unpack .binary64 value.toBits.toBitVec).isFinite = true at finite
    have stored := toNat_unpackExponent value.toBits.toBitVec
    rw [UInt64.toNat_toBitVec, top] at stored
    delta UnpackedFloat.unpack at finite
    dsimp only at finite
    rw [if_pos ((exponent_eq_top_iff _).mpr stored)] at finite
    split at finite <;> cases finite
  · rintro ⟨number, finite⟩
    change value.toModel.unpack.isFinite = true
    rw [unpack_eq_of_ofFloat? finite, unpacked]
    by_cases positive : 0 < number.mantissa
    · rw [dif_pos positive]
      rfl
    · rw [dif_neg positive]
      rfl

end Reading

/-! ## From the number to bits -/

theorem pack_unpacked {number : Binary} (storable : number.Storable) :
    UnpackedFloat.pack .binary64 number.unpacked =
      packComponents .binary64 number.sign
        (if number.mantissa < 2 ^ 52 then 0#11
          else BitVec.ofNat 11 (number.exponent + 1075).toNat)
        (BitVec.ofNat 52 number.mantissa) := by
  obtain ⟨mantissa_lt, exponent_le, normal⟩ := storable
  by_cases positive : 0 < number.mantissa
  · rw [unpacked, dif_pos positive]
    have full : number.mantissa.log2 + 1 = Format.binary64.mantissaBits ↔
        ¬number.mantissa < 2 ^ 52 := by
      change number.mantissa.log2 + 1 = 53 ↔ _
      rw [← Nat.log2_lt positive.ne']
      have below := (Nat.log2_lt positive.ne').mpr mantissa_lt
      omega
    have biased : (number.exponent + Format.binary64.exponentBias + (52 : Nat)).toNat =
        (number.exponent + 1075).toNat := by
      change (number.exponent + (1023 : Nat) + (52 : Nat)).toNat = _
      congr 1
      omega
    delta UnpackedFloat.pack
    simp only [full, biased]
    rw [if_neg (by omega)]
    by_cases least : number.mantissa < 2 ^ 52
    · rw [if_neg (not_not.mpr least), if_pos least]
    · rw [if_pos least, if_neg least]
  · obtain zero : number.mantissa = 0 := by omega
    rw [unpacked, dif_neg positive]
    delta UnpackedFloat.pack
    simp [zero, packedZero]

theorem toNat_toBits_toFloat {number : Binary} (storable : number.Storable) :
    number.toFloat.toBits.toNat =
      number.negative.toNat * 2 ^ 63 +
        (if number.mantissa < 2 ^ 52 then 0 else (number.exponent + 1075).toNat) *
          2 ^ 52 +
        number.mantissa % 2 ^ 52 := by
  have sign : number.sign.toBitVec.toNat = number.negative.toNat := by
    unfold Binary.sign
    cases number.negative <;> rfl
  change (UnpackedFloat.pack .binary64 number.unpacked).toNat = _
  rw [pack_unpacked storable, toNat_packComponents, BitVec.toNat_ofNat, sign]
  obtain ⟨-, exponent_le, -⟩ := storable
  split
  · rfl
  · rw [BitVec.toNat_ofNat, Nat.mod_eq_of_lt (by omega)]

theorem ofFloat?_toFloat {number : Binary} (storable : number.Storable) :
    ofFloat? number.toFloat = some number := by
  have bits := toNat_toBits_toFloat storable
  obtain ⟨mantissa_lt, exponent_le, normal⟩ := storable
  obtain ⟨negative, mantissa, exponent⟩ := number
  simp only at *
  generalize (toFloat ⟨negative, mantissa, exponent⟩) = value at *
  have sign_le := negative.toNat_le
  have high : value.toBits.toNat / 2 ^ 63 = negative.toNat := by
    rw [bits]
    split <;> omega
  have signBit : value.toBits.toNat.testBit 63 = negative := by
    rw [Nat.testBit_eq_decide_div_mod_eq, high]
    cases negative <;> rfl
  simp only [ofFloat?, Nat.pow_eq, signBit]
  by_cases least : mantissa < 2 ^ 52
  · rw [if_pos least] at bits
    rw [if_neg (by omega), if_pos (by omega)]
    congr 2
    all_goals omega
  · rw [if_neg least] at bits
    rw [if_neg (by omega), if_neg (by omega)]
    congr 2
    all_goals omega

/-! ## Negation -/

/-- The number of the other sign. -/
def opposite (number : Binary) : Binary :=
  { number with negative := !number.negative }

@[simp] theorem opposite_opposite (number : Binary) :
    number.opposite.opposite = number := by
  simp [opposite]

theorem Storable.opposite {number : Binary} (storable : number.Storable) :
    number.opposite.Storable :=
  ⟨storable.mantissa_lt, storable.exponent_le, storable.normal⟩

theorem unpacked_opposite (number : Binary) :
    number.opposite.unpacked = number.unpacked.neg := by
  obtain ⟨negative, mantissa, exponent⟩ := number
  change unpacked ⟨!negative, mantissa, exponent⟩ = (unpacked ⟨negative, mantissa, exponent⟩).neg
  by_cases positive : 0 < mantissa
  · rw [unpacked, dif_pos positive, unpacked, dif_pos positive]
    cases negative <;> rfl
  · rw [unpacked, dif_neg positive, unpacked, dif_neg positive]
    cases negative <;> rfl

theorem ofFloat?_neg {value : Float} {number : Binary}
    (finite : ofFloat? value = some number) :
    ofFloat? (-value) = some number.opposite := by
  have negation : -value = number.opposite.toFloat := by
    change Float.ofModel (.pack value.toModel.unpack.neg) =
      .ofModel (.pack number.opposite.unpacked)
    rw [unpack_eq_of_ofFloat? finite, unpacked_opposite]
  rw [negation]
  exact ofFloat?_toFloat (storable_of_ofFloat? finite).opposite

/-- Negation of finite numbers is an involution. -/
theorem neg_neg_of_ofFloat? {value : Float} {number : Binary}
    (finite : ofFloat? value = some number) : - -value = value := by
  refine ofFloat?_injective ?_ finite
  rw [ofFloat?_neg (ofFloat?_neg finite), opposite_opposite]

/-! ## Values that are not finite -/

theorem not_isFinite_unpack_pack {number : UnpackedFloat}
    (infinite : number.isFinite = false) :
    (UnpackedFloat.unpack .binary64 (UnpackedFloat.pack .binary64 number)).isFinite = false := by
  cases number with
  | infinity sign => cases sign <;> decide +kernel
  | notANumber => decide +kernel
  | zero sign => cases infinite
  | finite sign mantissa exponent positive => cases infinite

/-- What is not finite does not become finite by a factor. -/
theorem not_isFinite_mul {left : Float} (infinite : left.isFinite = false)
    (right : Float) : (left * right).isFinite = false := by
  change left.toModel.unpack.isFinite = false at infinite
  apply not_isFinite_unpack_pack
  cases parts : left.toModel.unpack with
  | zero sign =>
      rw [parts] at infinite
      cases infinite
  | finite sign mantissa exponent positive =>
      rw [parts] at infinite
      cases infinite
  | infinity sign => cases right.toModel.unpack <;> rfl
  | notANumber => cases right.toModel.unpack <;> rfl

end Stereograph.Decimal.Binary
