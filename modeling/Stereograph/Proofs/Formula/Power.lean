import Mathlib.Data.Nat.Size
import Mathlib.Logic.Function.Iterate
import Mathlib.Tactic.Ring
import Stereograph.Formula.Exponent

/-!
# Whole powers

Evaluation multiplies a whole power by repeated squaring and generated code multiplies
it one factor after another.  Under an associative multiplication both are the same
product.
-/

namespace Stereograph

theorem Decimal.Binary.natural_pos {number : Decimal.Binary} {natural : Nat}
    (nonzero : number.mantissa ≠ 0) (whole : number.natural? = some natural) :
    0 < natural := by
  have positive := Nat.pos_of_ne_zero nonzero
  unfold natural? at whole
  split at whole
  · cases whole
    exact Nat.mul_pos positive (Nat.pow_pos Nat.two_pos)
  · split at whole
    · rename_i divides
      cases whole
      exact Nat.div_pos (Nat.le_of_dvd positive (Nat.dvd_of_mod_eq_zero divides))
        (Nat.pow_pos Nat.two_pos)
    · cases whole

namespace Squaring

variable {ν : Type} (multiply : ν → ν → ν)

/-- The product that a state stands for, with every square that is missing. -/
def product (state : Squaring ν) : ν :=
  (multiply · state.square)^[state.remaining] state.result

variable {multiply}

theorem product_of_remaining {state : Squaring ν} (nothing : state.remaining = 0) :
    state.product multiply = state.result := by
  rw [product, nothing, Function.iterate_zero_apply]

/-- A round multiplies by the square as often as the lowest digit says. -/
theorem result_round (state : Squaring ν) :
    (state.round multiply).result =
      (multiply · state.square)^[state.remaining % 2] state.result := by
  rcases Nat.mod_two_eq_zero_or_one state.remaining with even | odd
  · rw [round, even, if_neg Nat.zero_ne_one, Function.iterate_zero_apply]
  · rw [round, odd, if_pos rfl, Function.iterate_one]

/-- Every round takes one binary digit of the remaining count. -/
theorem remaining_iterate_round (rounds : Nat) (state : Squaring ν) :
    ((round multiply)^[rounds] state).remaining = state.remaining / 2 ^ rounds := by
  induction rounds generalizing state with
  | zero => rw [Function.iterate_zero_apply, pow_zero, Nat.div_one]
  | succ rounds ih =>
      rw [Function.iterate_succ_apply, ih, round, Nat.div_div_eq_div_mul, pow_succ']

/-- Nothing remains exactly from the round on that takes the last digit. -/
theorem remaining_iterate_round_eq_zero_iff {rounds : Nat} {state : Squaring ν} :
    ((round multiply)^[rounds] state).remaining = 0 ↔ state.remaining.size ≤ rounds := by
  rw [remaining_iterate_round, Nat.div_eq_zero_iff_lt (Nat.two_pow_pos rounds), Nat.size_le]

end Squaring

section Products

variable {ν : Type} {multiply : ν → ν → ν}
  (associative : ∀ left middle right,
    multiply (multiply left middle) right = multiply left (multiply middle right))

include associative

/-- Two factors at a time are the square at a time. -/
theorem iterate_multiply_double (factor : ν) (count : Nat) (start : ν) :
    (multiply · factor)^[2 * count] start =
      (multiply · (multiply factor factor))^[count] start := by
  induction count generalizing start with
  | zero => rfl
  | succ count ih =>
      rw [Nat.mul_succ, Function.iterate_succ_apply, Function.iterate_succ_apply, ih,
        Function.iterate_succ_apply, associative]

/-- As many new squares as remain are twice as many old ones. -/
theorem Squaring.iterate_square_round (state : Squaring ν) (start : ν) :
    (multiply · (state.round multiply).square)^[state.remaining / 2] start =
      (multiply · state.square)^[2 * (state.remaining / 2)] start := by
  -- After the last digit the square is an old one, but nothing is multiplied by it.
  by_cases last : state.remaining / 2 = 0
  · rw [last]
    rfl
  · rw [iterate_multiply_double associative, round, if_neg last]

/-- A round keeps the product that a state stands for. -/
theorem Squaring.product_round (state : Squaring ν) :
    (state.round multiply).product multiply = state.product multiply := by
  calc (state.round multiply).product multiply
      = (multiply · (state.round multiply).square)^[state.remaining / 2]
          (state.round multiply).result := rfl
    _ = (multiply · state.square)^[2 * (state.remaining / 2)]
          ((multiply · state.square)^[state.remaining % 2] state.result) := by
        rw [iterate_square_round associative, result_round]
    _ = state.product multiply := by
        rw [← Function.iterate_add_apply, Nat.div_add_mod, product]

/-- So does a run of rounds. -/
theorem Squaring.product_iterate_round (rounds : Nat) (state : Squaring ν) :
    ((round multiply)^[rounds] state).product multiply = state.product multiply := by
  induction rounds generalizing state with
  | zero => rfl
  | succ rounds ih =>
      rw [Function.iterate_succ_apply, ih, product_round associative]

/-- Repeated squaring multiplies by as many factors as it counts. -/
theorem Squaring.finish_eq_product (state : Squaring ν) :
    state.finish multiply = state.product multiply := by
  induction state using finish.induct multiply with
  | case1 state nothing => rw [finish, if_pos nothing, product_of_remaining nothing]
  | case2 state nonzero ih => rw [finish, if_neg nonzero, ih, product_round associative]

/-- A whole power is the product of its factors from the left. -/
theorem wholePower_eq_iterate (base : ν) (count : Nat) :
    wholePower multiply base count = (multiply · base)^[count - 1] base :=
  Squaring.finish_eq_product associative ⟨base, base, count - 1⟩

end Products

theorem wholePower_one {ν : Type} (multiply : ν → ν → ν) (base : ν) :
    wholePower multiply base 1 = base := by
  rw [wholePower, Squaring.finish, if_pos rfl]

/-- Multiplying by at least one factor ends with a product. -/
theorem Squaring.exists_finish_eq {ν : Type} (multiply : ν → ν → ν) (state : Squaring ν)
    (positive : 0 < state.remaining) :
    ∃ left right, state.finish multiply = multiply left right := by
  induction state using finish.induct multiply with
  | case1 state nothing => exact (Nat.ne_of_gt positive nothing).elim
  | case2 state nonzero ih =>
      rw [finish, if_neg nonzero]
      rcases Nat.eq_zero_or_pos (state.round multiply).remaining with last | more
      · have odd : state.remaining % 2 = 1 := by
          have half : state.remaining / 2 = 0 := last
          omega
        rw [finish, if_pos last, round, if_pos odd]
        exact ⟨state.result, state.square, rfl⟩
      · exact ih more

/-- A whole power beyond the first is a product. -/
theorem exists_wholePower_eq {ν : Type} (multiply : ν → ν → ν) (base : ν) {count : Nat}
    (several : 1 < count) :
    ∃ left right, wholePower multiply base count = multiply left right :=
  Squaring.exists_finish_eq multiply ⟨base, base, count - 1⟩ (Nat.sub_pos_of_lt several)

namespace Exponent

/-- A whole exponent counts at least one factor. -/
theorem count_pos {exponent : Formula} {count : Nat}
    (whole : ofFormula exponent = .ok (.whole count)) : 0 < count := by
  unfold ofFormula at whole
  split at whole
  · rename_i value constant
    unfold ofValue at whole
    split at whole
    · cases whole
    · rename_i number finite
      split at whole
      · cases whole
      · rename_i nonzero
        split at whole
        · cases whole
        split at whole
        · rename_i natural found
          cases whole
          exact Decimal.Binary.natural_pos nonzero found
        · cases whole
  · cases whole

end Exponent

end Stereograph
