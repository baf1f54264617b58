import Stereograph.Proofs.Decimal.Shortest

/-!
# Numbers without a sign

A literal has no sign, and the number that is read from it has none either: it is zero
with its positive sign, a positive number or infinity.  In terms of bits these are the
patterns up to that of infinity, so a rounded number is looked at only where it is packed.
-/

namespace Stereograph.Decimal

open Float.Model (UnpackedFloat Format)
open Float.Model.UnpackedFloat

/-- A number from zero to infinity.  The undefined value and zero with a negative sign are
not among them. -/
structure IsUnsigned (value : Float) : Prop where
  nonneg : 0 ≤ value
  signBit : value.toBits.toNat.testBit 63 = false

/-- A finite number from zero on, and not zero with a negative sign. -/
structure IsFiniteUnsigned (value : Float) : Prop where
  finite : value.isFinite = true
  signBit : value.toBits.toNat.testBit 63 = false

/-- The bits of infinity. -/
def infinityBits : Nat := 2047 * 2 ^ 52

/-- The numbers without a sign are those with bits up to infinity. -/
theorem isUnsigned_of_toBits_le {value : Float}
    (bounded : value.toBits.toNat ≤ infinityBits) : IsUnsigned value := by
  rw [infinityBits] at bounded
  have signBit : value.toBits.toNat.testBit 63 = false :=
    Nat.testBit_lt_two_pow (by omega)
  refine ⟨?_, signBit⟩
  rcases bounded.eq_or_lt with infinite | below
  · have same : value = 1 / 0 := by
      obtain ⟨⟨bits, _⟩⟩ := value
      obtain rfl : bits = 0x7FF0000000000000 := UInt64.toNat_inj.mp infinite
      rfl
    rw [same]
    decide +kernel
  · have finite : value.isFinite = true := by
      rw [Binary.isFinite_iff, ← Option.isSome_iff_exists]
      simp only [Binary.ofFloat?, Nat.pow_eq]
      rw [if_neg (by omega)]
      split <;> rfl
    obtain ⟨number, parts⟩ := Binary.isFinite_iff.mp finite
    have positive : number.negative = false := by
      rw [← Binary.testBit_of_ofFloat? parts, signBit]
    rw [Binary.le_iff_unpack, Binary.unpack_zero, Binary.unpack_eq_of_ofFloat? parts,
      Binary.unpacked, Binary.sign, positive]
    by_cases nonzero : 0 < number.mantissa
    · rw [dif_pos nonzero]
      rfl
    · rw [dif_neg nonzero]
      rfl

/-- An unpacked number that has a positive sign. -/
inductive IsPositive : UnpackedFloat → Prop
  | zero : IsPositive (.zero .positive)
  | finite (mantissa exponent positive) :
      IsPositive (.finite .positive mantissa exponent positive)
  | infinity : IsPositive (.infinity .positive)

namespace IsPositive

/-- The fields of a finite number are below those of infinity. -/
theorem toNat_packComponents_le (exponent : BitVec 11) (mantissa : BitVec 52)
    (below : exponent.toNat < 2047) :
    (packComponents .binary64 .positive exponent mantissa).toNat ≤ infinityBits := by
  have fraction : mantissa.toNat < 2 ^ 52 := mantissa.isLt
  have plus : Sign.positive.toBitVec.toNat = 0 := rfl
  rw [Binary.toNat_packComponents, plus, infinityBits]
  omega

/-- A number that is packed with a positive sign has no bit above those of infinity. -/
theorem toNat_pack_le {number : UnpackedFloat} (positive : IsPositive number) :
    (UnpackedFloat.pack .binary64 number).toNat ≤ infinityBits := by
  cases positive with
  | zero => decide +kernel
  | infinity => decide +kernel
  | finite mantissa exponent positive =>
      delta UnpackedFloat.pack
      dsimp only
      split
      · decide +kernel
      · rename_i representable
        have below : (exponent + (Format.binary64.exponentBias : Int) + (52 : Nat)).toNat + 1 <
            2048 :=
          Nat.lt_of_not_le representable
        split
        · apply toNat_packComponents_le
          rw [BitVec.toNat_ofNat]
          exact (Nat.mod_le _ _).trans_lt (Nat.lt_of_succ_lt_succ below)
        · exact toNat_packComponents_le _ _ (by decide)

theorem isUnsigned {number : UnpackedFloat} (positive : IsPositive number) :
    IsUnsigned (.ofModel (.pack number)) :=
  isUnsigned_of_toBits_le positive.toNat_pack_le

theorem of_ite {condition : Prop} [Decidable condition] {first second : UnpackedFloat}
    (ifTrue : IsPositive first) (ifFalse : IsPositive second) :
    IsPositive (if condition then first else second) := by
  by_cases decided : condition
  · rwa [if_pos decided]
  · rwa [if_neg decided]

theorem of_dite {condition : Prop} [Decidable condition] {first : condition → UnpackedFloat}
    {second : ¬condition → UnpackedFloat} (ifTrue : ∀ decided, IsPositive (first decided))
    (ifFalse : ∀ decided, IsPositive (second decided)) :
    IsPositive (if decided : condition then first decided else second decided) := by
  by_cases decided : condition
  · rw [dif_pos decided]
    exact ifTrue decided
  · rw [dif_neg decided]
    exact ifFalse decided

theorem roundWithAccuracy (mantissa : Nat) (exponent : Int)
    (accuracy : Accuracy) :
    IsPositive (roundWithAccuracy .binary64 .positive mantissa exponent accuracy) :=
  of_dite (fun _ => .zero) fun _ => .finite ..

/-- The number that is correctly rounded from a numeral. -/
theorem ofScientific (coefficient : Nat) (exponent : Int) :
    IsPositive (ofScientific .binary64 coefficient exponent) := by
  refine of_dite (fun _ => .zero) fun _ => ?_
  refine of_ite .infinity (of_ite .zero ?_)
  exact of_ite (roundWithAccuracy _ _ _) (roundWithAccuracy _ _ _)

end IsPositive

section Arithmetic

open Binary

variable {left right : Float} {leftNumber rightNumber : Binary}
  (leftFinite : ofFloat? left = some leftNumber) (leftSign : leftNumber.negative = false)
  (leftPos : 0 < leftNumber.mantissa)
  (rightFinite : ofFloat? right = some rightNumber) (rightSign : rightNumber.negative = false)
  (rightPos : 0 < rightNumber.mantissa)

include leftFinite leftSign leftPos rightFinite rightSign rightPos

theorem isUnsigned_mul : IsUnsigned (left * right) := by
  change IsUnsigned (.ofModel (.pack
    (UnpackedFloat.mul .binary64 left.toModel.unpack right.toModel.unpack)))
  apply IsPositive.isUnsigned
  rw [unpack_eq_of_ofFloat? leftFinite, unpack_eq_of_ofFloat? rightFinite, unpacked, unpacked,
    dif_pos leftPos, dif_pos rightPos, Binary.sign, Binary.sign, leftSign, rightSign]
  exact .roundWithAccuracy _ _ _

theorem isUnsigned_div : IsUnsigned (left / right) := by
  change IsUnsigned (.ofModel (.pack
    (UnpackedFloat.div .binary64 left.toModel.unpack right.toModel.unpack)))
  apply IsPositive.isUnsigned
  rw [unpack_eq_of_ofFloat? leftFinite, unpack_eq_of_ofFloat? rightFinite, unpacked, unpacked,
    dif_pos leftPos, dif_pos rightPos, Binary.sign, Binary.sign, leftSign, rightSign]
  exact .roundWithAccuracy _ _ _

end Arithmetic

/-- Neither way of reading a numeral gives it a sign. -/
theorem isUnsigned_ofScientific {coefficient : Nat} (nonzero : 0 < coefficient) (down : Bool)
    (power : Nat) : IsUnsigned (Float.ofScientific coefficient down power) := by
  unfold Float.ofScientific
  split
  · rename_i short
    obtain ⟨small, few⟩ := short
    have stored : power < Float.exactlyRepresentablePowersOfTen.size := Nat.lt_succ_of_le few
    obtain ⟨ten, tenFinite, tenSign, tenPos, -⟩ := Binary.exists_powerOfTen stored
    have natural := Binary.ofFloat?_toFloat (Binary.storable_ofNatural nonzero small)
    have normal := (Binary.ofNatural_normal nonzero small).1
    rw [← Binary.toFloat_natural nonzero small] at natural
    cases down with
    | true => exact isUnsigned_div natural rfl (by omega) tenFinite tenSign tenPos
    | false => exact isUnsigned_mul natural rfl (by omega) tenFinite tenSign tenPos
  · exact (IsPositive.ofScientific _ _).isUnsigned

/-- The number nearest to a numeral has no sign. -/
theorem Numeral.isUnsigned_toFloat (numeral : Numeral) : IsUnsigned numeral.toFloat := by
  unfold toFloat
  simp only
  split
  · exact isUnsigned_of_toBits_le (by decide +kernel)
  rename_i nonzero
  split
  · exact isUnsigned_of_toBits_le (by decide +kernel)
  split
  · exact isUnsigned_of_toBits_le (by decide +kernel)
  split
  · exact isUnsigned_ofScientific (Nat.pos_of_ne_zero nonzero) false _
  · exact isUnsigned_ofScientific (Nat.pos_of_ne_zero nonzero) true _

/-- The text of a finite number without a sign is a literal of the number. -/
theorem exists_spells_display {value : Float} (unsigned : IsFiniteUnsigned value) :
    ∃ numeral, Spells (display value).toList numeral ∧ numeral.toFloat = value := by
  obtain ⟨number, finite⟩ := Binary.isFinite_iff.mp unsigned.finite
  have positive : number.negative = false := by
    rw [← Binary.testBit_of_ofFloat? finite, unsigned.signBit]
  obtain ⟨whole, fraction, whole_ne_nil, isDigit, text, value_eq⟩ :=
    Binary.exists_display finite positive
  rw [text, String.toList_ofList]
  cases fraction with
  | nil =>
      have isDigits : IsDigits whole := ⟨whole_ne_nil, by simpa using isDigit⟩
      have spelled := Spells.whole isDigits .absent
      rw [List.append_nil] at spelled
      refine ⟨_, spelled, toFloat_eq_of_value finite positive ?_⟩
      rw [← value_eq, pointedValue, Numeral.value]
      simp
  | cons first others =>
      have pointed : Pointed whole (first :: others) := ⟨whole_ne_nil, by simp, isDigit⟩
      refine ⟨_, pointed.spells, toFloat_eq_of_value finite positive ?_⟩
      rw [← value_eq, pointedValue, Numeral.value, zpow_neg, zpow_natCast, div_eq_mul_inv]

end Stereograph.Decimal
