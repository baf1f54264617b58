import Stereograph.Proofs.Sphere.Extended

/-!
# Arithmetic of points

Each operation on coordinates computes an operation of the extended plane.  The result has the
value that the table gives for the values of the operands, and is the pair of zeros where the
table has a gap.  Sums and products are associative and commutative even component for
component, because rescaling an operand does not change them.
-/

namespace Stereograph.Coordinate

open ExtendedPlane
open scoped OnePoint

variable {point left right : Coordinate ℝ} {value first second : Option (OnePoint ℂ)}

/-! ## Sums and products of ratios -/

/-- Sum of two ratios, not rescaled. -/
noncomputable def ratioSum (left right : Coordinate ℝ) : Coordinate ℝ :=
  ⟨(left.numerator.mul right.denominator).add (left.denominator.mul right.numerator),
    left.denominator.mul right.denominator⟩

/-- Product of two ratios, not rescaled. -/
noncomputable def ratioProduct (left right : Coordinate ℝ) : Coordinate ℝ :=
  ⟨left.numerator.mul right.numerator, left.denominator.mul right.denominator⟩

@[simp] theorem toComplex_numerator_ratioSum (left right : Coordinate ℝ) :
    (left.ratioSum right).numerator.toComplex =
      left.numerator.toComplex * right.denominator.toComplex +
        left.denominator.toComplex * right.numerator.toComplex :=
  rfl

@[simp] theorem toComplex_denominator_ratioSum (left right : Coordinate ℝ) :
    (left.ratioSum right).denominator.toComplex =
      left.denominator.toComplex * right.denominator.toComplex :=
  rfl

@[simp] theorem toComplex_numerator_ratioProduct (left right : Coordinate ℝ) :
    (left.ratioProduct right).numerator.toComplex =
      left.numerator.toComplex * right.numerator.toComplex :=
  rfl

@[simp] theorem toComplex_denominator_ratioProduct (left right : Coordinate ℝ) :
    (left.ratioProduct right).denominator.toComplex =
      left.denominator.toComplex * right.denominator.toComplex :=
  rfl

theorem ext_toComplex (numerator : left.numerator.toComplex = right.numerator.toComplex)
    (denominator : left.denominator.toComplex = right.denominator.toComplex) : left = right := by
  apply toVector_injective
  rw [toVector, toVector, numerator, denominator]

theorem ratioSum_comm (left right : Coordinate ℝ) :
    left.ratioSum right = right.ratioSum left := by
  apply ext_toComplex
  all_goals
    simp only [toComplex_numerator_ratioSum, toComplex_denominator_ratioSum]
    ring

theorem ratioSum_assoc (left middle right : Coordinate ℝ) :
    (left.ratioSum middle).ratioSum right = left.ratioSum (middle.ratioSum right) := by
  apply ext_toComplex
  all_goals
    simp only [toComplex_numerator_ratioSum, toComplex_denominator_ratioSum]
    ring

theorem ratioProduct_comm (left right : Coordinate ℝ) :
    left.ratioProduct right = right.ratioProduct left := by
  apply ext_toComplex
  all_goals
    simp only [toComplex_numerator_ratioProduct, toComplex_denominator_ratioProduct]
    ring

theorem ratioProduct_assoc (left middle right : Coordinate ℝ) :
    (left.ratioProduct middle).ratioProduct right =
      left.ratioProduct (middle.ratioProduct right) := by
  apply ext_toComplex
  all_goals
    simp only [toComplex_numerator_ratioProduct, toComplex_denominator_ratioProduct]
    ring

/-! ## Laws of the operations -/

protected theorem sub_eq_add_neg (left right : Coordinate ℝ) :
    left.sub right = left.add right.neg := by
  refine congrArg normalized (ext_toComplex ?_ rfl)
  simp only [neg, ComplexNumber.toComplex_sub, ComplexNumber.toComplex_add,
    ComplexNumber.toComplex_mul, ComplexNumber.toComplex_neg]
  ring

protected theorem add_comm (left right : Coordinate ℝ) : left.add right = right.add left :=
  congrArg normalized (ratioSum_comm left right)

protected theorem mul_comm (left right : Coordinate ℝ) : left.mul right = right.mul left :=
  congrArg normalized (ratioProduct_comm left right)

/-- An operation that sees its operands up to positive factors does not see rescaling. -/
theorem normalized_left_of_stretch {operation : Coordinate ℝ → Coordinate ℝ → Coordinate ℝ}
    (stretches : ∀ {left right : Coordinate ℝ} {first second : ℝ}, 0 < first → 0 < second →
      operation (left.stretch first) (right.stretch second) = operation left right)
    (left right : Coordinate ℝ) : operation left.normalized right = operation left right := by
  obtain ⟨factor, positive, stretched⟩ := aligned_normalized left
  calc operation left.normalized right
      = operation (left.normalized.stretch factor) (right.stretch 1) :=
        (stretches positive one_pos).symm
    _ = operation left right := by rw [← stretched, stretch_one]

theorem add_normalized_left (left right : Coordinate ℝ) :
    left.normalized.add right = left.add right :=
  normalized_left_of_stretch add_stretch left right

theorem mul_normalized_left (left right : Coordinate ℝ) :
    left.normalized.mul right = left.mul right :=
  normalized_left_of_stretch mul_stretch left right

theorem add_normalized_right (left right : Coordinate ℝ) :
    left.add right.normalized = left.add right := by
  rw [Coordinate.add_comm, add_normalized_left, Coordinate.add_comm]

theorem mul_normalized_right (left right : Coordinate ℝ) :
    left.mul right.normalized = left.mul right := by
  rw [Coordinate.mul_comm, mul_normalized_left, Coordinate.mul_comm]

/-- Sums are associative component for component, also for the pair of zeros. -/
protected theorem add_assoc (left middle right : Coordinate ℝ) :
    (left.add middle).add right = left.add (middle.add right) :=
  calc (left.add middle).add right
      = (left.ratioSum middle).add right := add_normalized_left _ _
    _ = left.add (middle.ratioSum right) :=
        congrArg normalized (ratioSum_assoc left middle right)
    _ = left.add (middle.add right) := (add_normalized_right _ _).symm

/-- Products are associative component for component, also for the pair of zeros. -/
protected theorem mul_assoc (left middle right : Coordinate ℝ) :
    (left.mul middle).mul right = left.mul (middle.mul right) :=
  calc (left.mul middle).mul right
      = (left.ratioProduct middle).mul right := mul_normalized_left _ _
    _ = left.mul (middle.ratioProduct right) :=
        congrArg normalized (ratioProduct_assoc left middle right)
    _ = left.mul (middle.mul right) := (mul_normalized_right _ _).symm

/-! ## Values of results -/

namespace HasValue

theorem neg (hasValue : HasValue point value) : HasValue point.neg (value.map opposite) := by
  cases hasValue with
  | finite isPoint => exact .finite isPoint.neg
  | infinite numerator denominator =>
      refine .infinite ?_ denominator
      rw [Coordinate.neg, ComplexNumber.toComplex_neg]
      exact neg_ne_zero.mpr numerator
  | zeros numerator denominator =>
      refine .zeros ?_ denominator
      rw [Coordinate.neg, ComplexNumber.toComplex_neg, numerator, neg_zero]

theorem inv (hasValue : HasValue point value) : HasValue point.inv (value.map reciprocal) := by
  cases hasValue with
  | @finite number isPoint =>
      by_cases zero : number.toComplex = 0
      · have numerator : point.numerator.toComplex = 0 := by
          rw [isPoint.numerator, zero, zero_mul]
        rw [Option.map_some, zero, reciprocal_zero]
        exact .infinite isPoint.denominator numerator
      · have isInverse : point.inv.IsPointOf (.ofComplex number.toComplex⁻¹) := by
          constructor
          · rw [Coordinate.inv, isPoint.numerator]
            exact mul_ne_zero zero isPoint.denominator
          · rw [Coordinate.inv, ComplexNumber.toComplex_ofComplex, isPoint.numerator,
              inv_mul_cancel_left₀ zero]
        rw [Option.map_some, reciprocal_of_ne_zero zero]
        exact .finite isInverse
  | infinite numerator denominator =>
      have isZero : point.inv.IsPointOf .zero := by
        refine ⟨numerator, ?_⟩
        rw [ComplexNumber.toComplex_zero, zero_mul]
        exact denominator
      exact .finite isZero
  | zeros numerator denominator => exact .zeros denominator numerator

section Infinite

variable {number : ComplexNumber ℝ} (isPoint : left.IsPointOf number)
  (numerator : right.numerator.toComplex ≠ 0) (denominator : right.denominator.toComplex = 0)

include isPoint numerator denominator

/-- A number plus infinity. -/
theorem add_infinite : HasValue (left.add right) (some ∞) := by
  have sum : HasValue (left.ratioSum right) (some ∞) := by
    refine .infinite ?_ ?_
    · simp [denominator, numerator, isPoint.denominator]
    · simp [denominator]
  exact sum.normalized

/-- A number times infinity. -/
theorem mul_infinite :
    HasValue (left.mul right) (if number.toComplex = 0 then none else some ∞) := by
  have product : HasValue (left.ratioProduct right)
      (if number.toComplex = 0 then none else some ∞) := by
    split
    next zero =>
      refine .zeros ?_ ?_
      · simp [isPoint.numerator, zero]
      · simp [denominator]
    next nonzero =>
      refine .infinite ?_ ?_
      · simp [isPoint.numerator, nonzero, isPoint.denominator, numerator]
      · simp [denominator]
  exact product.normalized

end Infinite

section Zeros

variable (numerator : right.numerator.toComplex = 0) (denominator : right.denominator.toComplex = 0)

include numerator denominator

/-- Nothing plus the pair of zeros has a value. -/
theorem add_zeros (left : Coordinate ℝ) : HasValue (left.add right) none := by
  have sum : HasValue (left.ratioSum right) none := by
    refine .zeros ?_ ?_
    · simp [numerator, denominator]
    · simp [denominator]
  exact sum.normalized

/-- Nothing times the pair of zeros has a value. -/
theorem mul_zeros (left : Coordinate ℝ) : HasValue (left.mul right) none := by
  have product : HasValue (left.ratioProduct right) none := by
    refine .zeros ?_ ?_
    · simp [numerator]
    · simp [denominator]
  exact product.normalized

end Zeros

section Binary

variable (isLeft : HasValue left first) (isRight : HasValue right second)

include isLeft isRight

theorem add : HasValue (left.add right) (first.bind fun first => second.bind (sum? first)) := by
  cases isLeft with
  | finite isLeft =>
      cases isRight with
      | finite isRight => exact .finite (isLeft.add isRight)
      | infinite numerator denominator => exact add_infinite isLeft numerator denominator
      | zeros numerator denominator => exact add_zeros numerator denominator left
  | infinite numerator denominator =>
      cases isRight with
      | finite isRight =>
          rw [Coordinate.add_comm]
          exact add_infinite isRight numerator denominator
      | infinite otherNumerator otherDenominator =>
          have sum : HasValue (left.ratioSum right) none := by
            refine .zeros ?_ ?_
            · simp [denominator, otherDenominator]
            · simp [denominator]
          exact sum.normalized
      | zeros otherNumerator otherDenominator =>
          exact add_zeros otherNumerator otherDenominator left
  | zeros numerator denominator =>
      rw [Coordinate.add_comm]
      exact add_zeros numerator denominator right

theorem mul :
    HasValue (left.mul right) (first.bind fun first => second.bind (product? first)) := by
  cases isLeft with
  | finite isLeft =>
      cases isRight with
      | finite isRight => exact .finite (isLeft.mul isRight)
      | infinite numerator denominator => exact mul_infinite isLeft numerator denominator
      | zeros numerator denominator => exact mul_zeros numerator denominator left
  | infinite numerator denominator =>
      cases isRight with
      | finite isRight =>
          rw [Coordinate.mul_comm]
          exact mul_infinite isRight numerator denominator
      | infinite otherNumerator otherDenominator =>
          have product : HasValue (left.ratioProduct right) (some ∞) := by
            refine .infinite ?_ ?_
            · simp [numerator, otherNumerator]
            · simp [denominator]
          exact product.normalized
      | zeros otherNumerator otherDenominator =>
          exact mul_zeros otherNumerator otherDenominator left
  | zeros numerator denominator =>
      rw [Coordinate.mul_comm]
      exact mul_zeros numerator denominator right

theorem sub :
    HasValue (left.sub right) (first.bind fun first => second.bind (difference? first)) := by
  have sum := isLeft.add isRight.neg
  simp only [Option.bind_map, Function.comp_def, ← difference?_eq] at sum
  rw [Coordinate.sub_eq_add_neg]
  exact sum

theorem div :
    HasValue (left.div right) (first.bind fun first => second.bind (quotient? first)) := by
  have product := isLeft.mul isRight.inv
  simp only [Option.bind_map, Function.comp_def, ← quotient?_eq] at product
  exact product

end Binary

end HasValue

/-! ## Operations of the extended plane -/

/-- Whether an operation on coordinates computes one of the extended plane, and does it for every
choice of coordinates of a point. -/
structure Computes (operation : Coordinate ℝ → Coordinate ℝ) (meaning : OnePoint ℂ → OnePoint ℂ) :
    Prop where
  value?_eq (point : Coordinate ℝ) : (operation point).value? = point.value?.map meaning
  proportional {point other : Coordinate ℝ} (same : Proportional point other) :
    Proportional (operation point) (operation other)

/-- Whether an operation on two coordinates computes one of the extended plane, does it for every
choice of coordinates of the points, and rescales its result. -/
structure ComputesBinary (operation : Coordinate ℝ → Coordinate ℝ → Coordinate ℝ)
    (meaning? : OnePoint ℂ → OnePoint ℂ → Option (OnePoint ℂ)) : Prop where
  value?_eq (left right : Coordinate ℝ) :
    (operation left right).value? =
      left.value?.bind fun first => right.value?.bind (meaning? first)
  proportional {left other right another : Coordinate ℝ} (sameLeft : Proportional left other)
    (sameRight : Proportional right another) :
    Proportional (operation left right) (operation other another)
  norm_eq_one {left right : Coordinate ℝ} (defined : (operation left right).value? ≠ none) :
    (operation left right).norm = 1

theorem Computes.of_hasValue {operation : Coordinate ℝ → Coordinate ℝ}
    {meaning : OnePoint ℂ → OnePoint ℂ}
    (result : ∀ {point value}, HasValue point value →
      HasValue (operation point) (value.map meaning)) : Computes operation meaning := by
  have values : ∀ point, (operation point).value? = point.value?.map meaning := fun point =>
    (result point.hasValue).value?_eq
  refine ⟨values, ?_⟩
  intro point other same
  rw [← value?_eq_iff, values, values, same.value?_eq]

theorem ComputesBinary.of_hasValue {operation : Coordinate ℝ → Coordinate ℝ → Coordinate ℝ}
    {meaning? : OnePoint ℂ → OnePoint ℂ → Option (OnePoint ℂ)}
    (result : ∀ {left right first second}, HasValue left first → HasValue right second →
      HasValue (operation left right)
        (first.bind fun first => second.bind (meaning? first)))
    (rescaled : ∀ left right, IsRescaled (operation left right)) :
    ComputesBinary operation meaning? := by
  have values : ∀ left right, (operation left right).value? =
      left.value?.bind fun first => right.value?.bind (meaning? first) := fun left right =>
    (result left.hasValue right.hasValue).value?_eq
  refine ⟨values, ?_, ?_⟩
  · intro left other right another sameLeft sameRight
    rw [← value?_eq_iff, values, values, sameLeft.value?_eq, sameRight.value?_eq]
  · intro left right defined
    rw [← rescaled]
    exact norm_normalized (value?_eq_none_iff.not.mp defined)

theorem computes_neg : Computes neg opposite :=
  .of_hasValue HasValue.neg

theorem computes_inv : Computes inv reciprocal :=
  .of_hasValue HasValue.inv

theorem computes_add : ComputesBinary add sum? :=
  .of_hasValue HasValue.add fun _ _ => isRescaled_normalized _

theorem computes_sub : ComputesBinary sub difference? :=
  .of_hasValue HasValue.sub fun _ _ => isRescaled_normalized _

theorem computes_mul : ComputesBinary mul product? :=
  .of_hasValue HasValue.mul fun _ _ => isRescaled_normalized _

theorem computes_div : ComputesBinary div quotient? :=
  .of_hasValue HasValue.div fun _ _ => isRescaled_normalized _

/-- An operation on two points gives the pair of zeros for the indeterminate forms alone. -/
theorem ComputesBinary.eq_zeros_iff {operation : Coordinate ℝ → Coordinate ℝ → Coordinate ℝ}
    {meaning? : OnePoint ℂ → OnePoint ℂ → Option (OnePoint ℂ)}
    (computes : ComputesBinary operation meaning?) {first second : OnePoint ℂ}
    (leftValue : left.value? = some first) (rightValue : right.value? = some second) :
    operation left right = ⟨.zero, .zero⟩ ↔ meaning? first second = none := by
  rw [← value?_eq_none_iff_zeros, computes.value?_eq, leftValue, rightValue]
  rfl

/-- Arithmetic on coordinates is arithmetic of the extended plane.  Every coordinate but the pair
of zeros has a value there, the same one as its multiples by complex factors and no others.  The
operations give a coordinate of the result whatever coordinates of the operands they get, and the
binary ones rescale it to length one, or give the pair of zeros for an indeterminate form.  Sums
and products are associative and commutative component for component. -/
theorem arithmetic_of_extended_plane :
    ((∀ point : Coordinate ℝ, point.value? = none ↔ point = ⟨.zero, .zero⟩) ∧
        (∀ left right : Coordinate ℝ, left.value? = right.value? ↔ Proportional left right) ∧
        (∀ number : ComplexNumber ℝ, value? ⟨number, .one⟩ = some (number.toComplex : ℂ)) ∧
        value? infinity = some ∞) ∧
      (Computes neg opposite ∧ Computes inv reciprocal ∧ ComputesBinary add sum? ∧
        ComputesBinary sub difference? ∧ ComputesBinary mul product? ∧
        ComputesBinary div quotient?) ∧
      (∀ (left right : Coordinate ℝ) (first second : OnePoint ℂ),
        left.value? = some first → right.value? = some second →
        (left.add right = ⟨.zero, .zero⟩ ↔ first = ∞ ∧ second = ∞) ∧
        (left.sub right = ⟨.zero, .zero⟩ ↔ first = ∞ ∧ second = ∞) ∧
        (left.mul right = ⟨.zero, .zero⟩ ↔
          first = (0 : ℂ) ∧ second = ∞ ∨ first = ∞ ∧ second = (0 : ℂ)) ∧
        (left.div right = ⟨.zero, .zero⟩ ↔
          first = (0 : ℂ) ∧ second = (0 : ℂ) ∨ first = ∞ ∧ second = ∞)) ∧
      (∀ left right : Coordinate ℝ, left.add right = right.add left) ∧
      (∀ left right : Coordinate ℝ, left.mul right = right.mul left) ∧
      (∀ left middle right : Coordinate ℝ,
        (left.add middle).add right = left.add (middle.add right)) ∧
      ∀ left middle right : Coordinate ℝ,
        (left.mul middle).mul right = left.mul (middle.mul right) := by
  refine ⟨⟨fun _ => value?_eq_none_iff_zeros, fun _ _ => value?_eq_iff, ?_, ?_⟩,
    ⟨computes_neg, computes_inv, computes_add, computes_sub, computes_mul, computes_div⟩, ?_,
    Coordinate.add_comm, Coordinate.mul_comm, Coordinate.add_assoc, Coordinate.mul_assoc⟩
  · intro number
    exact (HasValue.finite (isPointOf_over_one number)).value?_eq
  · exact hasValue_infinity.value?_eq
  · intro left right first second leftValue rightValue
    rw [computes_add.eq_zeros_iff leftValue rightValue, sum?_eq_none_iff,
      computes_sub.eq_zeros_iff leftValue rightValue, difference?_eq_none_iff,
      computes_mul.eq_zeros_iff leftValue rightValue, product?_eq_none_iff,
      computes_div.eq_zeros_iff leftValue rightValue, quotient?_eq_none_iff]
    exact ⟨Iff.rfl, Iff.rfl, Iff.rfl, Iff.rfl⟩

/-- Zero and infinity by coordinates of other lengths.  Their sum is infinity, and their product
is indeterminate. -/
theorem arithmetic_of_extended_plane_zero_infinity :
    let nought : Coordinate ℝ := ⟨⟨0, 0⟩, ⟨0, 3⟩⟩
    let infinite : Coordinate ℝ := ⟨⟨2, 0⟩, ⟨0, 0⟩⟩
    (nought.value? = some (0 : ℂ) ∧ infinite.value? = some ∞) ∧
      Proportional infinity (nought.add infinite) ∧ (nought.add infinite).norm = 1 ∧
      nought.mul infinite = ⟨.zero, .zero⟩ := by
  intro nought infinite
  obtain ⟨⟨-, proportional, -, ofInfinity⟩, ⟨-, -, computesAdd, -⟩, indeterminate, -⟩ :=
    arithmetic_of_extended_plane
  have isZero : nought.IsPointOf .zero := by
    refine ⟨?_, ?_⟩
    · simp [nought, ComplexNumber.zero]
    · rw [ComplexNumber.toComplex_zero, zero_mul]
      rfl
  have noughtValue : nought.value? = some (0 : ℂ) := (HasValue.finite isZero).value?_eq
  have infiniteValue : infinite.value? = some ∞ := by
    apply HasValue.value?_eq
    refine .infinite ?_ rfl
    simp [infinite, ComplexNumber.zero]
  have sumValue : (nought.add infinite).value? = some ∞ := by
    rw [computesAdd.value?_eq, noughtValue, infiniteValue]
    rfl
  refine ⟨⟨noughtValue, infiniteValue⟩, ?_, ?_, ?_⟩
  · rw [← proportional, ofInfinity, sumValue]
  · exact computesAdd.norm_eq_one (sumValue.trans_ne (Option.some_ne_none _))
  · obtain ⟨-, -, product, -⟩ := indeterminate nought infinite _ _ noughtValue infiniteValue
    exact product.mpr (.inl ⟨rfl, rfl⟩)

end Stereograph.Coordinate
