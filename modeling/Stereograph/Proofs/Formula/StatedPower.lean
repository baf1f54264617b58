import Stereograph.Formula.Value
import Stereograph.Proofs.Shader.Meaning
import Stereograph.Proofs.Sphere.Exact

/-!
# Powers as stated

A power whose exponent is a positive natural number states a product of that many copies of
its base.  The expansion of the power multiplies them all, however many they are.  An
evaluation squares and has a greatest count of copies, so it multiplies the stated number of
them exactly when the exponent is below `2 ^ 64`.  Squaring itself loses no copy: it gives the
product of as many copies as it is asked for.
-/

namespace Stereograph

open Decimal Formula

/-! ## Exponents by their number -/

/-- Whether a floating-point number is finite and stands for a rational number. -/
def Decimal.Represents (float : Float) (value : ℚ) : Prop :=
  ∃ number, Binary.ofFloat? float = some number ∧ number.value = value

/-- A number whose magnitude is a natural number is recognized as one. -/
theorem Decimal.Binary.natural?_of_magnitude {number : Binary} {natural : ℕ}
    (whole : number.magnitude = natural) : number.natural? = some natural := by
  obtain ⟨negative, mantissa, exponent⟩ := number
  cases exponent with
  | ofNat exponent =>
      have product : mantissa * 2 ^ exponent = natural := by
        rw [magnitude, Int.ofNat_eq_natCast, zpow_natCast] at whole
        exact_mod_cast whole
      simp [natural?, product]
  | negSucc exponent =>
      have product : mantissa = natural * 2 ^ (exponent + 1) := by
        have power : (2 : ℚ) ^ (exponent + 1) ≠ 0 := by positivity
        rw [magnitude, zpow_negSucc, ← div_eq_mul_inv, div_eq_iff power] at whole
        exact_mod_cast whole
      simp [natural?, product]

/-- A positive natural number asks for that many factors. -/
theorem Exponent.ofValue_of_represents {value : Float} {count : ℕ}
    (represents : Represents value count) (positive : 0 < count) :
    ofValue value = .ok (.whole count) := by
  obtain ⟨number, finite, stands⟩ := represents
  have valuePos : 0 < number.value := by
    rw [stands]
    exact_mod_cast positive
  have unsigned : number.negative = false := by
    by_contra signed
    rw [Binary.value, if_pos (by simpa using signed)] at valuePos
    linarith [number.magnitude_nonneg]
  have magnitude : number.magnitude = count := by
    rw [← stands, Binary.value, unsigned, if_neg Bool.false_ne_true]
  have nonzero : number.mantissa ≠ 0 := by
    intro zero
    rw [Binary.value, Binary.magnitude, zero] at valuePos
    simp at valuePos
  simp [ofValue, finite, nonzero, unsigned, Binary.natural?_of_magnitude magnitude]

theorem Exponent.ofFormula_of_represents {exponent : Formula} {value : Float} {count : ℕ}
    (constant : exponent.asConstant? = some value) (represents : Represents value count)
    (positive : 0 < count) : ofFormula exponent = .ok (.whole count) := by
  rw [ofFormula, constant]
  exact ofValue_of_represents represents positive

/-! ## Products of copies -/

/-- The product of a positive number of copies of a base, from the left. -/
def productOfCopies {ν : Type} (multiply : ν → ν → ν) (base : ν) (count : ℕ) : ν :=
  (multiply · base)^[count - 1] base

/-- Over the natural numbers under addition, copies of one are counted. -/
theorem productOfCopies_add_one {count : ℕ} (positive : 0 < count) :
    productOfCopies (· + ·) 1 count = count := by
  obtain ⟨others, rfl⟩ := Nat.exists_eq_succ_of_ne_zero positive.ne'
  change (Nat.succ)^[others] 1 = others + 1
  rw [Nat.succ_iterate, Nat.add_comm]

/-- Copies of a complex number multiply to its power. -/
theorem ComplexNumber.toComplex_productOfCopies (base : ComplexNumber ℝ) {count : ℕ}
    (positive : 0 < count) :
    (productOfCopies mul base count).toComplex = base.toComplex ^ count := by
  obtain ⟨others, rfl⟩ := Nat.exists_eq_succ_of_ne_zero positive.ne'
  change ((mul · base)^[others] base).toComplex = _
  induction others with
  | zero => exact (pow_one _).symm
  | succ others hypothesis =>
      rw [Function.iterate_succ_apply', toComplex_mul, hypothesis (Nat.succ_pos _),
        ← pow_succ]

/-- Whether the products of an interpretation may be regrouped. -/
def Interpretation.IsAssociative {ν : Type} (meaning : Interpretation ν) : Prop :=
  ∀ left middle right, meaning.multiply (meaning.multiply left middle) right =
    meaning.multiply left (meaning.multiply middle right)

namespace Formula

variable {exponent : Formula} {value : Float} {count : ℕ}

/-- Whether every evaluation of a power with the exponent multiplies that many copies of the
value of its base. -/
def EvaluatesCopies (exponent : Formula) (count : ℕ) : Prop :=
  ∀ (arithmetic : Arithmetic) {ν : Type} (meaning : Interpretation ν),
    meaning.IsAssociative → ∀ base : Formula,
      eval arithmetic meaning (.operation .power [base, exponent]) =
        (base.eval arithmetic meaning).map fun value =>
          productOfCopies meaning.multiply value count

/-- Whether the expansion of every power with the exponent multiplies that many copies of
what the expansion of its base stands for. -/
def ExpandsToCopies (exponent : Formula) (count : ℕ) : Prop :=
  ∀ (arithmetic : Arithmetic) (base : Formula) (operand : Shader.Expression),
    Shader.expand arithmetic base = .ok operand →
      ∃ chain, Shader.expand arithmetic (.operation .power [base, exponent]) = .ok chain ∧
        ∀ {ν : Type} (meaning : Interpretation ν) (value : ν),
          operand.denote arithmetic meaning = some value →
            chain.denote arithmetic meaning =
              some (productOfCopies meaning.multiply value count)

theorem evaluatesCopies_of_whole (whole : Exponent.ofFormula exponent = .ok (.whole count)) :
    EvaluatesCopies exponent (min count Exponent.maximumFactors) := by
  intro arithmetic ν meaning associative base
  rw [eval_power, whole]
  cases base.eval arithmetic meaning with
  | error error => rfl
  | ok value => exact congrArg Except.ok (wholePower_eq_iterate associative value _)

theorem expandsToCopies_of_whole (whole : Exponent.ofFormula exponent = .ok (.whole count)) :
    ExpandsToCopies exponent count := by
  intro arithmetic base operand expanded
  have generated := Shader.Generated.of_expand expanded
  refine ⟨_, by rw [Shader.expand_power, expanded, whole]; rfl, ?_⟩
  intro ν meaning value denotes
  exact Shader.denote_chainExpression meaning generated generated denotes denotes (count - 1)

/-- Every symbol and constant counts as one, and a product counts its factors. -/
def countingFactors : Interpretation ℕ where
  constant _ := 1
  symbol _ := 1
  add := max
  subtract := max
  negate := id
  multiply := (· + ·)
  divide := max
  power := max
  function _ := id

/-- A product of copies has one length only. -/
theorem EvaluatesCopies.unique {other : ℕ} (first : EvaluatesCopies exponent count)
    (second : EvaluatesCopies exponent other) (positive : 0 < count) (otherPositive : 0 < other) :
    count = other := by
  have associative : countingFactors.IsAssociative := Nat.add_assoc
  have evaluation := (first .affine countingFactors associative (.symbol "c")).symm.trans
    (second .affine countingFactors associative (.symbol "c"))
  have counts : productOfCopies (· + ·) 1 count = productOfCopies (· + ·) 1 other :=
    Except.ok.inj evaluation
  rwa [productOfCopies_add_one positive, productOfCopies_add_one otherPositive] at counts

/-- A power whose exponent is a positive natural number expands to a product of that many
copies of its base.  An evaluation multiplies no more copies than its greatest count, so its
value is the stated product, under every associative multiplication, exactly for the exponents
below `2 ^ 64`. -/
theorem power_multiplies_stated_copies_iff (constant : exponent.asConstant? = some value)
    (represents : Represents value count) (positive : 0 < count) :
    ExpandsToCopies exponent count ∧
      EvaluatesCopies exponent (min count (2 ^ 64 - 1)) ∧
      (EvaluatesCopies exponent count ↔ count < 2 ^ 64) := by
  have whole := Exponent.ofFormula_of_represents constant represents positive
  have evaluates : EvaluatesCopies exponent (min count (2 ^ 64 - 1)) :=
    evaluatesCopies_of_whole whole
  refine ⟨expandsToCopies_of_whole whole, evaluates, ?_, ?_⟩
  · intro stated
    have same := stated.unique evaluates positive (by omega)
    omega
  · intro small
    rwa [Nat.min_eq_left (by omega)] at evaluates

/-- The cube of a formula multiplies three copies of its value. -/
theorem power_multiplies_stated_copies_cube :
    (Formula.constant 3).asConstant? = some 3 ∧ Represents 3 (3 : ℕ) ∧ 0 < 3 ∧
      EvaluatesCopies (.constant 3) 3 := by
  have represents : Represents 3 (3 : ℕ) := by
    refine ⟨⟨false, 3 * 2 ^ 51, -51⟩, by decide +kernel, ?_⟩
    norm_num [Binary.value, Binary.magnitude]
  have constant : (Formula.constant 3).asConstant? = some 3 := rfl
  obtain ⟨-, -, stated⟩ :=
    power_multiplies_stated_copies_iff constant represents (by decide)
  exact ⟨constant, represents, by decide, stated.mpr (by decide)⟩

/-- Minus one multiplied by itself gives one for `2 ^ 64` copies, but the power is evaluated
to minus one. -/
theorem power_of_two_pow_64_loses_copy :
    Represents 18446744073709551616 ((2 ^ 64 : ℕ) : ℚ) ∧
      numberValue (.operation .power [.symbol "c", .constant 18446744073709551616])
        (⟨-1, 0⟩ : ComplexNumber ℝ) = .ok ⟨-1, 0⟩ ∧
      productOfCopies ComplexNumber.mul (⟨-1, 0⟩ : ComplexNumber ℝ) (2 ^ 64) = ⟨1, 0⟩ ∧
      ¬ EvaluatesCopies (.constant 18446744073709551616) (2 ^ 64) := by
  have represents : Represents 18446744073709551616 ((2 ^ 64 : ℕ) : ℚ) := by
    refine ⟨⟨false, 2 ^ 52, 12⟩, by decide +kernel, ?_⟩
    norm_num [Binary.value, Binary.magnitude]
  have constant : (Formula.constant 18446744073709551616).asConstant? =
      some 18446744073709551616 := rfl
  have evaluates := evaluatesCopies_of_whole
    (Exponent.ofFormula_of_represents constant represents (by decide))
  have minusOne : (⟨-1, 0⟩ : ComplexNumber ℝ).toComplex = -1 := by
    apply Complex.ext <;> simp [ComplexNumber.toComplex]
  have evaluated : productOfCopies ComplexNumber.mul (⟨-1, 0⟩ : ComplexNumber ℝ)
      (min (2 ^ 64) Exponent.maximumFactors) = ⟨-1, 0⟩ := by
    apply ComplexNumber.toComplex_injective
    rw [ComplexNumber.toComplex_productOfCopies _ (by decide), minusOne]
    exact Odd.neg_one_pow (by decide)
  have stated : productOfCopies ComplexNumber.mul (⟨-1, 0⟩ : ComplexNumber ℝ) (2 ^ 64) =
      ⟨1, 0⟩ := by
    apply ComplexNumber.toComplex_injective
    rw [ComplexNumber.toComplex_productOfCopies _ (by decide), minusOne]
    exact Even.neg_one_pow (by decide)
  refine ⟨represents, ?_, stated, ?_⟩
  · rw [numberValue, Formula.value,
      if_neg (by simp [depth, deepest, children, maximumNesting]),
      evaluates .affine (.affine ⟨-1, 0⟩) ComplexNumber.mul_assoc]
    exact congrArg Except.ok evaluated
  · intro copies
    have same := copies.unique evaluates (by decide) (by decide)
    revert same
    decide

end Formula

/-! ## Repeated squaring -/

/-- The counts of an evaluation are machine words, and 64 rounds are enough for a word. -/
theorem Squaring.size_le_of_le_maximumFactors {count : ℕ}
    (bounded : count ≤ Exponent.maximumFactors) : (count - 1).size ≤ 64 := by
  have wide : Exponent.maximumFactors < 2 ^ 64 := by decide
  exact Nat.size_le.mpr (Nat.lt_of_le_of_lt ((Nat.sub_le _ _).trans bounded) wide)

/-- Under an associative multiplication, with or without a unit, repeated squaring gives the
product of a positive number of copies from the left.  It starts with one copy and takes one
round for every binary digit of the count of the others; the product is complete as soon as
none is missing.  An evaluation squares only for exponents that ask for at least one copy,
and for at most 64 rounds. -/
theorem squaring_multiplies_copies {ν : Type} {multiply : ν → ν → ν}
    (associative : ∀ left middle right,
      multiply (multiply left middle) right = multiply left (multiply middle right))
    (base : ν) :
    (∀ count, 0 < count →
      let start : Squaring ν := ⟨base, base, count - 1⟩
      start.remaining + 1 = count ∧
        wholePower multiply base count = productOfCopies multiply base count ∧
        ∀ rounds, let state := (Squaring.round multiply)^[rounds] start
          (state.remaining = 0 ↔ start.remaining.size ≤ rounds) ∧
            (state.remaining = 0 → state.result = productOfCopies multiply base count)) ∧
    ∀ exponent count, Exponent.ofFormula exponent = .ok (.whole count) →
      let copies := min count Exponent.maximumFactors
      0 < copies ∧ (copies - 1).size ≤ 64 := by
  constructor
  · intro count positive start
    refine ⟨Nat.sub_add_cancel positive, wholePower_eq_iterate associative base count, ?_⟩
    intro rounds state
    refine ⟨Squaring.remaining_iterate_round_eq_zero_iff, ?_⟩
    intro complete
    have kept : state.product multiply = productOfCopies multiply base count :=
      Squaring.product_iterate_round associative rounds start
    rwa [Squaring.product_of_remaining complete] at kept
  · intro exponent count whole copies
    have positive : 0 < copies := lt_min (Exponent.count_pos whole) (by decide)
    exact ⟨positive, Squaring.size_le_of_le_maximumFactors (min_le_right _ _)⟩

/-- A multiplication without a unit, under which copies of zero are counted. -/
theorem squaring_multiplies_copies_without_unit :
    let multiply : ℕ → ℕ → ℕ := fun left right => left + right + 1
    (∀ left middle right,
      multiply (multiply left middle) right = multiply left (multiply middle right)) ∧
    0 < 2 ^ 64 - 1 ∧ wholePower multiply 0 (2 ^ 64 - 1) = 2 ^ 64 - 2 ∧
    Exponent.ofFormula (.constant 1) = .ok (.whole 1) ∧
    0 < min 1 Exponent.maximumFactors := by
  intro multiply
  have associative : ∀ left middle right,
      multiply (multiply left middle) right = multiply left (multiply middle right) := by
    intro left middle right
    change left + middle + 1 + right + 1 = left + (middle + right + 1) + 1
    omega
  have counted : ∀ count, productOfCopies multiply 0 count = count - 1 := by
    intro count
    change Nat.succ^[count - 1] 0 = count - 1
    rw [Nat.succ_iterate, Nat.zero_add]
  have represents : Represents 1 (1 : ℕ) := by
    refine ⟨⟨false, 2 ^ 52, -52⟩, by decide +kernel, ?_⟩
    norm_num [Binary.value, Binary.magnitude]
  have whole : Exponent.ofFormula (.constant 1) = .ok (.whole 1) :=
    Exponent.ofFormula_of_represents rfl represents Nat.one_pos
  obtain ⟨powers, classified⟩ := squaring_multiplies_copies associative 0
  obtain ⟨-, power, -⟩ := powers (2 ^ 64 - 1) (by decide)
  exact ⟨associative, by decide, power.trans (counted _), whole, (classified _ _ whole).1⟩

end Stereograph
