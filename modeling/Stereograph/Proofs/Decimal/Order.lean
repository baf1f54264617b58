import Stereograph.Proofs.Decimal.Bits

/-!
# Order of floating-point numbers and the undefined value

Two floating-point numbers compare unless one of them is the undefined value, which compares
with nothing.  So the failure of one comparison is the opposite comparison for numbers only.
The undefined value arises from infinities and stays: a difference from a finite number is
undefined only if the number was, and a sum of squares only if one of its summands was.
-/

namespace Stereograph.Decimal.Binary

open Float.Model (UnpackedFloat Format)
open Float.Model.UnpackedFloat

/-! ## Comparisons -/

section Comparison

theorem compare_sign_swap (left right : Sign) :
    (compare left right).swap = compare right left := by
  cases left <;> cases right <;> rfl

/-- Comparing the other way round gives the opposite answer. -/
theorem compare_swap (left right : UnpackedFloat) :
    right.compare left = (left.compare right).map Ordering.swap := by
  cases left with
  | notANumber => cases right <;> rfl
  | infinity leftSign =>
      cases right with
      | notANumber => cases leftSign <;> rfl
      | infinity rightSign => exact congrArg some (compare_sign_swap _ _).symm
      | zero rightSign => cases leftSign <;> cases rightSign <;> rfl
      | finite rightSign _ _ _ => cases leftSign <;> cases rightSign <;> rfl
  | zero leftSign =>
      cases right with
      | notANumber | zero _ => rfl
      | infinity rightSign => cases rightSign <;> rfl
      | finite rightSign _ _ _ => cases rightSign <;> rfl
  | finite leftSign leftMantissa leftExponent _ =>
      cases right with
      | notANumber => cases leftSign <;> rfl
      | infinity rightSign => cases leftSign <;> cases rightSign <;> rfl
      | zero rightSign => cases leftSign <;> rfl
      | finite rightSign rightMantissa rightExponent _ =>
          have lexicographic :
              (compare rightExponent leftExponent).then (compare rightMantissa leftMantissa) =
                ((compare leftExponent rightExponent).then
                  (compare leftMantissa rightMantissa)).swap := by
            rw [Ordering.swap_then, ← Std.OrientedCmp.eq_swap, ← Std.OrientedCmp.eq_swap]
          cases leftSign with
          | negative =>
              cases rightSign with
              | negative => exact congrArg (fun order => some order.swap) lexicographic
              | positive => rfl
          | positive =>
              cases rightSign with
              | negative => rfl
              | positive => exact congrArg some lexicographic

/-- Only the undefined value compares with nothing. -/
theorem compare_eq_none_iff (left right : UnpackedFloat) :
    left.compare right = none ↔ left.isNaN = true ∨ right.isNaN = true := by
  have neither : ¬(false = true ∨ false = true) := by decide
  cases left with
  | notANumber => cases right <;> exact iff_of_true rfl (.inl rfl)
  | infinity leftSign | finite leftSign _ _ _ =>
      cases right with
      | notANumber => cases leftSign <;> exact iff_of_true rfl (.inr rfl)
      | infinity rightSign | zero rightSign | finite rightSign _ _ _ =>
          cases leftSign <;> cases rightSign <;>
            exact iff_of_false (Option.some_ne_none _) neither
  | zero leftSign =>
      cases right with
      | notANumber => exact iff_of_true rfl (.inr rfl)
      | zero rightSign => exact iff_of_false (Option.some_ne_none _) neither
      | infinity rightSign | finite rightSign _ _ _ =>
          cases rightSign <;> exact iff_of_false (Option.some_ne_none _) neither

variable {left right : Float}

/-- Among numbers, what is not at least another number is smaller, and the undefined value is
not smaller than anything. -/
theorem lt_iff_not_le :
    left < right ↔ ¬right ≤ left ∧ left.isNaN = false ∧ right.isNaN = false := by
  have undefined := compare_eq_none_iff left.toModel.unpack right.toModel.unpack
  change _ ↔ left.isNaN = true ∨ right.isNaN = true at undefined
  rw [lt_iff_unpack, le_iff_unpack, UnpackedFloat.lt, UnpackedFloat.le,
    compare_swap left.toModel.unpack]
  cases order : left.toModel.unpack.compare right.toModel.unpack with
  | none =>
      rw [order] at undefined
      have impossible : ¬(left.isNaN = false ∧ right.isNaN = false) := by
        simpa [imp_iff_not_or] using undefined
      exact iff_of_false (by simp) fun numbers => impossible numbers.2
  | some answer =>
      have numbers : left.isNaN = false ∧ right.isNaN = false := by
        simpa [order] using undefined
      rw [and_iff_left numbers]
      cases answer <;> simp

theorem le_of_lt (less : left < right) : left ≤ right := by
  rw [lt_iff_unpack, UnpackedFloat.lt, beq_iff_eq] at less
  rw [le_iff_unpack, UnpackedFloat.le, less]
  rfl

theorem le_of_beq (same : (left == right) = true) : left ≤ right := by
  change (left.toModel.unpack.compare right.toModel.unpack == some .eq) = true at same
  rw [beq_iff_eq] at same
  rw [le_iff_unpack, UnpackedFloat.le, same]
  rfl

/-- Nothing is at most the undefined value. -/
theorem not_le_of_isNaN (undefined : right.isNaN = true) : ¬left ≤ right := by
  rw [le_iff_unpack, UnpackedFloat.le, (compare_eq_none_iff _ _).mpr (.inr undefined)]
  simp

end Comparison

/-! ## Where the undefined value comes from -/

section Undefined

theorem isNaN_of_isFinite {number : UnpackedFloat} (finite : number.isFinite = true) :
    number.isNaN = false := by
  cases number with
  | zero _ | finite _ _ _ _ => rfl
  | infinity _ | notANumber => cases finite

theorem isFinite_unpack_packComponents (sign : Sign) {exponent : BitVec 11}
    (mantissa : BitVec 52) (below : exponent.toNat < 2047) :
    (UnpackedFloat.unpack .binary64 (packComponents .binary64 sign exponent mantissa)).isFinite =
      true := by
  have notTop : exponent ≠ -1#11 := by
    rw [Ne, exponent_eq_top_iff]
    exact below.ne
  delta UnpackedFloat.unpack
  dsimp only
  rw [unpackExponent_packComponents, if_neg notTop]
  by_cases least : exponent = 0#11
  · rw [if_pos least]
    by_cases zero : unpackMantissa (packComponents .binary64 sign exponent mantissa) = 0#52
    · rw [dif_pos zero]
      rfl
    · rw [dif_neg zero]
      rfl
  · rw [if_neg least]
    rfl

/-- Packing a finite number can overflow, which keeps the sign. -/
theorem unpack_pack_finite (sign : Sign) (mantissa : Nat) (exponent : Int)
    (positive : 0 < mantissa) :
    let packed := UnpackedFloat.pack .binary64 (.finite sign mantissa exponent positive)
    UnpackedFloat.unpack .binary64 packed = .infinity sign ∨
      (UnpackedFloat.unpack .binary64 packed).isFinite = true := by
  intro packed
  have overflow : UnpackedFloat.unpack .binary64 (packedInfinity .binary64 sign) =
      .infinity sign := by
    cases sign <;> rfl
  dsimp only [packed]
  delta UnpackedFloat.pack
  dsimp only
  split
  · exact .inl overflow
  · rename_i representable
    have below : (exponent + (Format.binary64.exponentBias : Int) + (52 : Nat)).toNat + 1 <
        2048 :=
      Nat.lt_of_not_le representable
    right
    split
    · apply isFinite_unpack_packComponents
      rw [BitVec.toNat_ofNat]
      exact (Nat.mod_le _ _).trans_lt (Nat.lt_of_succ_lt_succ below)
    · exact isFinite_unpack_packComponents _ _ (by decide)

/-- Packing keeps the undefined value and makes no other. -/
theorem isNaN_unpack_pack (number : UnpackedFloat) :
    (UnpackedFloat.unpack .binary64 (UnpackedFloat.pack .binary64 number)).isNaN =
      number.isNaN := by
  cases number with
  | notANumber => decide +kernel
  | infinity sign | zero sign => cases sign <;> decide +kernel
  | finite sign mantissa exponent positive =>
      obtain infinite | finite := unpack_pack_finite sign mantissa exponent positive
      · rw [infinite]
        rfl
      · exact isNaN_of_isFinite finite

/-- Rounding keeps the sign and gives zero or another finite number. -/
theorem roundWithAccuracy_cases (sign : Sign) (mantissa : Nat) (exponent : Int)
    (accuracy : Accuracy) :
    roundWithAccuracy .binary64 sign mantissa exponent accuracy = .zero sign ∨
      ∃ rounded scale positive,
        roundWithAccuracy .binary64 sign mantissa exponent accuracy =
          .finite sign rounded scale positive := by
  unfold roundWithAccuracy
  exact (Classical.em _).elim (fun zero => .inl (dif_pos zero))
    fun positive => .inr ⟨_, _, _, dif_neg positive⟩

theorem isFinite_roundWithAccuracy (sign : Sign) (mantissa : Nat) (exponent : Int)
    (accuracy : Accuracy) :
    (roundWithAccuracy .binary64 sign mantissa exponent accuracy).isFinite = true := by
  obtain zero | ⟨rounded, scale, positive, finite⟩ :=
    roundWithAccuracy_cases sign mantissa exponent accuracy
  · rw [zero]
    rfl
  · rw [finite]
    rfl

theorem isFinite_normalize (mantissa exponent : Int) (zeroSign : Sign) :
    (UnpackedFloat.normalize .binary64 mantissa exponent zeroSign).isFinite = true := by
  unfold UnpackedFloat.normalize UnpackedFloat.round
  split
  · exact isFinite_roundWithAccuracy ..
  · rfl
  · exact isFinite_roundWithAccuracy ..

/-- Rounding can overflow, which keeps the sign. -/
theorem unpack_pack_roundWithAccuracy (sign : Sign) (mantissa : Nat) (exponent : Int)
    (accuracy : Accuracy) :
    let packed := UnpackedFloat.pack .binary64
      (roundWithAccuracy .binary64 sign mantissa exponent accuracy)
    UnpackedFloat.unpack .binary64 packed = .infinity sign ∨
      (UnpackedFloat.unpack .binary64 packed).isFinite = true := by
  obtain zero | ⟨rounded, scale, positive, finite⟩ :=
    roundWithAccuracy_cases sign mantissa exponent accuracy
  · rw [zero]
    right
    cases sign <;> rfl
  · rw [finite]
    exact unpack_pack_finite ..

/-- A difference from a finite number is undefined only if the minuend is. -/
theorem isNaN_sub {left right : Float} (finite : right.isFinite = true) :
    (left - right).isNaN = left.isNaN := by
  change (UnpackedFloat.unpack .binary64 (UnpackedFloat.pack .binary64
    (UnpackedFloat.sub .binary64 left.toModel.unpack right.toModel.unpack))).isNaN =
      left.toModel.unpack.isNaN
  change right.toModel.unpack.isFinite = true at finite
  rw [isNaN_unpack_pack]
  generalize left.toModel.unpack = minuend
  generalize right.toModel.unpack = subtrahend at finite
  cases subtrahend with
  | notANumber | infinity _ => cases finite
  | zero sign =>
      cases minuend with
      | notANumber | infinity _ | finite _ _ _ _ => rfl
      | zero otherSign => cases sign <;> cases otherSign <;> rfl
  | finite sign _ _ _ =>
      cases minuend with
      | notANumber | infinity _ | zero _ => rfl
      | finite _ _ _ _ => exact isNaN_of_isFinite (isFinite_normalize ..)

/-- A square is undefined only if its root is, and where it overflows it is positive. -/
theorem isNaN_mul_self (value : Float) :
    (value * value).isNaN = value.isNaN ∧
      (value * value).toModel.unpack ≠ .infinity .negative := by
  change (UnpackedFloat.unpack .binary64 (UnpackedFloat.pack .binary64
    (UnpackedFloat.mul .binary64 value.toModel.unpack value.toModel.unpack))).isNaN =
      value.toModel.unpack.isNaN ∧
    UnpackedFloat.unpack .binary64 (UnpackedFloat.pack .binary64
      (UnpackedFloat.mul .binary64 value.toModel.unpack value.toModel.unpack)) ≠
        .infinity .negative
  generalize value.toModel.unpack = root
  cases root with
  | notANumber => exact ⟨by decide +kernel, by rintro ⟨⟩⟩
  | infinity sign | zero sign =>
      cases sign with
      | negative | positive => exact ⟨by decide +kernel, by rintro ⟨⟩⟩
  | finite sign mantissa exponent nonzero =>
      have square : UnpackedFloat.mul .binary64 (.finite sign mantissa exponent nonzero)
          (.finite sign mantissa exponent nonzero) =
            roundWithAccuracy .binary64 .positive (mantissa * mantissa) (exponent + exponent)
              .exact := by
        cases sign <;> rfl
      rw [square]
      obtain infinite | finite := unpack_pack_roundWithAccuracy .positive
        (mantissa * mantissa) (exponent + exponent) .exact
      · rw [infinite]
        exact ⟨rfl, by rintro ⟨⟩⟩
      · refine ⟨isNaN_of_isFinite finite, fun infinite => ?_⟩
        rw [infinite] at finite
        cases finite

/-- A sum of squares is undefined only if one of the roots is. -/
theorem isNaN_add_squares (first second : Float) :
    (first * first + second * second).isNaN = (first.isNaN || second.isNaN) := by
  obtain ⟨firstUndefined, firstUp⟩ := isNaN_mul_self first
  obtain ⟨secondUndefined, secondUp⟩ := isNaN_mul_self second
  rw [← firstUndefined, ← secondUndefined]
  change (UnpackedFloat.unpack .binary64 (UnpackedFloat.pack .binary64
    (UnpackedFloat.add .binary64 (first * first).toModel.unpack
      (second * second).toModel.unpack))).isNaN =
    ((first * first).toModel.unpack.isNaN || (second * second).toModel.unpack.isNaN)
  rw [isNaN_unpack_pack]
  generalize (first * first).toModel.unpack = left at firstUp ⊢
  generalize (second * second).toModel.unpack = right at secondUp ⊢
  -- Opposite infinities would be the one undefined sum of numbers.
  cases left with
  | notANumber => rfl
  | infinity sign =>
      cases right with
      | notANumber | zero _ | finite _ _ _ _ => rfl
      | infinity otherSign =>
          cases sign with
          | negative => exact (firstUp rfl).elim
          | positive =>
              cases otherSign with
              | negative => exact (secondUp rfl).elim
              | positive => rfl
  | zero sign =>
      cases right with
      | notANumber | infinity _ | finite _ _ _ _ => rfl
      | zero otherSign => cases sign <;> cases otherSign <;> rfl
  | finite sign _ _ _ =>
      cases right with
      | notANumber | infinity _ | zero _ => rfl
      | finite _ _ _ _ => exact isNaN_of_isFinite (isFinite_normalize ..)

end Undefined

end Stereograph.Decimal.Binary
