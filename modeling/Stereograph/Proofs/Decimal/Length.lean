import Mathlib.Data.String.Basic
import Stereograph.Proofs.Decimal.Shortest

/-!
# Length of decimal text

Positional text can be long, but not arbitrarily long.  The search for the shortest numeral
starts near the size of the number and tries a fixed count of grids, so both the digits and
the zeros beside them are bounded.
-/

namespace Stereograph.Decimal

/-- A character of a text takes at most four bytes. -/
theorem utf8ByteSize_le (text : String) : text.utf8ByteSize ≤ 4 * text.length := by
  have bound : ∀ characters : List Char,
      String.utf8Len characters ≤ 4 * characters.length := by
    intro characters
    induction characters with
    | nil => exact Nat.le_refl 0
    | cons first rest ih =>
        have one := first.utf8Size_le_four
        simp only [String.utf8Len_cons, List.length_cons]
        omega
  have size := String.utf8ByteSize_ofList text.toList
  rw [String.ofList_toList] at size
  rw [size, ← String.length_toList]
  exact bound text.toList

namespace Digits

theorem length_split_le (number : Digits) :
    number.split.1.length + number.split.2.length ≤
      number.magnitude.natAbs + number.digits.length + 1 := by
  obtain ⟨digits, magnitude⟩ := number
  cases magnitude with
  | ofNat magnitude =>
      simp only [split, List.length_append, List.length_take, List.length_replicate,
        List.length_drop, Int.ofNat_eq_natCast, Int.natAbs_natCast]
      omega
  | negSucc zeros =>
      simp only [split, List.length_nil, List.length_append, List.length_replicate,
        Int.natAbs_negSucc]
      omega

/-- Beside its digits positional text has zeros up to the point or after it, the point and
a zero in front of it. -/
theorem length_positional_le (number : Digits) :
    number.positional.length ≤ number.magnitude.natAbs + number.digits.length + 3 := by
  have parts := number.length_split_le
  have whole : (if number.split.1.isEmpty then ['0'] else number.split.1).length ≤
      number.split.1.length + 1 := by
    split <;> simp
  simp only [positional]
  split
  · rw [String.length_ofList]
    omega
  · rw [String.length_ofList, List.length_append, List.length_cons]
    omega

theorem length_ofNumeral_le (numeral : Numeral) :
    (ofNumeral numeral).digits.length ≤ numeral.digitCount := by
  obtain ⟨count, split⟩ := exists_eq_append_zeros (Nat.toDigits 10 numeral.coefficient)
  have length := congrArg List.length split
  rw [List.length_append] at length
  exact (Nat.le_add_right _ _).trans length.ge

end Digits

namespace Binary

variable {number : Binary}

/-- The search takes a grid that it tries. -/
theorem le_exponent_firstOnGrid (tie : Tie) (number : Binary) (grids : Nat) (power : Int) :
    power - grids ≤ (number.firstOnGrid tie grids power).exponent := by
  induction grids generalizing power with
  | zero => exact (sub_zero power).le
  | succ grids ih =>
      rw [firstOnGrid]
      split
      · dsimp only
        omega
      · have finer := ih (power - 1)
        push_cast
        omega

/-- The last digit of a shortest numeral is not far behind the point. -/
theorem le_exponent_shortest (storable : number.Storable) (tie : Tie) :
    -346 ≤ (number.shortest tie).exponent := by
  have tried := le_exponent_firstOnGrid tie number 24 number.powerAbove
  have least : -1074 ≤ number.exponent := by
    obtain ⟨-, bound⟩ | same := storable.normal <;> omega
  have start : -322 ≤ number.powerAbove := by
    rw [powerAbove, Int.fdiv_eq_ediv_of_nonneg _ (by norm_num)]
    omega
  rw [shortest]
  omega

/-- The first digit of a shortest numeral is not far in front of the point. -/
theorem exponent_add_digitCount_le (storable : number.Storable) (positive : 0 < number.mantissa)
    (tie : Tie) :
    (number.shortest tie).exponent + (number.shortest tie).digitCount ≤ 309 := by
  have below := (Numeral.bounds_of_covers storable positive
    (covers_shortest storable positive tie)).2
  have nonzero := coefficient_shortest_pos storable positive tie
  have order := (Numeral.value_bounds nonzero).1.trans_lt below
  rw [zpow_lt_zpow_iff_right₀ (by norm_num)] at order
  omega

theorem length_positional_shortest_le (storable : number.Storable)
    (positive : 0 < number.mantissa) (tie : Tie) :
    (Digits.ofNumeral (number.shortest tie)).positional.length ≤ 1100 := by
  have digits := Digits.length_ofNumeral_le (number.shortest tie)
  have text := Digits.length_positional_le (Digits.ofNumeral (number.shortest tie))
  have low := le_exponent_shortest storable tie
  have high := exponent_add_digitCount_le storable positive tie
  have some : 0 < (number.shortest tie).digitCount := Nat.length_toDigits_pos
  have magnitude : (Digits.ofNumeral (number.shortest tie)).magnitude =
      (number.shortest tie).exponent + (number.shortest tie).digitCount - 1 := rfl
  omega

/-- The text of a finite number is short against any limit on code. -/
theorem length_display_le {value : Float} (finite : ofFloat? value = some number) :
    (display value).length ≤ 1101 := by
  have magnitude : (if number.mantissa = 0 then "0"
      else (Digits.ofNumeral (number.shortest .upward)).positional).length ≤ 1100 := by
    split
    · decide
    · rename_i nonzero
      exact length_positional_shortest_le (storable_of_ofFloat? finite)
        (Nat.pos_of_ne_zero nonzero) .upward
  simp only [display, finite, signed]
  split
  · rw [String.length_append]
    have sign : "-".length = 1 := rfl
    omega
  · omega

end Binary

end Stereograph.Decimal
