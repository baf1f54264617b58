import Stereograph.Formula.Value
import Stereograph.Proofs.Formula.Relation
import Stereograph.Proofs.Formula.StatedPower
import Stereograph.Proofs.Sphere.Ratio

/-!
# Rational formulas in both arithmetics

A rational formula has a complex number as its value, and a point of the sphere as its value
in homogeneous coordinates.  As long as no division meets a divisor of zero, the point is that
of the number.  Coordinates are rescaled here and not there, so the induction carries the
ratio of their components and not the coordinates themselves.
-/

namespace Stereograph.Formula

open Decimal

/-! ## Rational formulas -/

/-- The formulas built from the parameter, the imaginary unit and finite constants by the four
operations, negation and powers whose exponents are positive natural numbers. -/
inductive IsRational : Formula → Prop
  | parameter : IsRational (.symbol "c")
  | imaginaryUnit {name : String} (spelling : name = "i" ∨ name = "I") :
      IsRational (.symbol name)
  | constant {value : Float} (finite : value.isFinite = true) : IsRational (.constant value)
  | negation {inner : Formula} (isRational : IsRational inner) :
      IsRational (.operation .negate [inner])
  | binary {operator : Operator} {left right : Formula} (isBinary : operator.IsBinary)
      (leftRational : IsRational left) (rightRational : IsRational right) :
      IsRational (.operation operator [left, right])
  | power {base exponent : Formula} {value : Float} {count : ℕ}
      (isRational : IsRational base) (isConstant : exponent.asConstant? = some value)
      (represents : Represents value count) (positive : 0 < count) :
      IsRational (.operation .power [base, exponent])

/-- The formulas that are evaluated on the way to the value of a formula.  An exponent is not
among them. -/
inductive Meets : Formula → Formula → Prop
  | itself (formula : Formula) : Meets formula formula
  | negated {inner part : Formula} (meets : Meets inner part) :
      Meets (.operation .negate [inner]) part
  | base {base exponent part : Formula} (meets : Meets base part) :
      Meets (.operation .power [base, exponent]) part
  | left {operator : Operator} {left right part : Formula} (isBinary : operator.IsBinary)
      (meets : Meets left part) : Meets (.operation operator [left, right]) part
  | right {operator : Operator} {left right part : Formula} (isBinary : operator.IsBinary)
      (meets : Meets right part) : Meets (.operation operator [left, right]) part

/-- Whether no division that is met while the formula is evaluated at a parameter has a divisor
of zero. -/
def DividesByNonzero (formula : Formula) (parameter : ComplexNumber ℝ) : Prop :=
  ∀ dividend divisor, formula.Meets (.operation .divide [dividend, divisor]) →
    divisor.eval .affine (.affine parameter) ≠ .ok .zero

variable {formula : Formula} {parameter : ComplexNumber ℝ} {iterate point : Coordinate ℝ}

/-! ## Values of both arithmetics -/

/-- A number as the value of a formula, and its point as the value in homogeneous
coordinates. -/
def HasValues (formula : Formula) (parameter : ComplexNumber ℝ)
    (iterate point : Coordinate ℝ) : Prop :=
  ∃ number image, formula.eval .affine (.affine parameter) = .ok number ∧
    formula.eval .projective (.projective iterate point) = .ok image ∧ image.IsPointOf number

theorem HasValues.negation {inner : Formula} (values : HasValues inner parameter iterate point) :
    HasValues (.operation .negate [inner]) parameter iterate point := by
  obtain ⟨number, image, evaluates, shows, isPoint⟩ := values
  refine ⟨number.neg, image.neg, ?_, ?_, isPoint.neg⟩
  · rw [eval_negation, evaluates]
    rfl
  · rw [eval_negation, shows]
    rfl

theorem HasValues.binary {operator : Operator} {left right : Formula}
    (isBinary : operator.IsBinary) (leftValues : HasValues left parameter iterate point)
    (rightValues : HasValues right parameter iterate point)
    (nonzero : operator = .divide → right.eval .affine (.affine parameter) ≠ .ok .zero) :
    HasValues (.operation operator [left, right]) parameter iterate point := by
  obtain ⟨leftNumber, leftImage, leftEvaluates, leftShows, isLeft⟩ := leftValues
  obtain ⟨rightNumber, rightImage, rightEvaluates, rightShows, isRight⟩ := rightValues
  refine ⟨(Interpretation.affine parameter).binary operator leftNumber rightNumber,
    (Interpretation.projective iterate point).binary operator leftImage rightImage, ?_, ?_, ?_⟩
  · rw [eval_binary _ _ isBinary, leftEvaluates, rightEvaluates]
    rfl
  · rw [eval_binary _ _ isBinary, leftShows, rightShows]
    rfl
  · cases operator with
    | add => exact isLeft.add isRight
    | subtract => exact isLeft.sub isRight
    | multiply => exact isLeft.mul isRight
    | divide =>
        apply isLeft.div isRight
        rintro rfl
        exact nonzero rfl rightEvaluates
    | negate => exact absurd rfl isBinary.1
    | power => exact absurd rfl isBinary.2

/-- Repeated squaring multiplies points as it multiplies numbers. -/
theorem HasValues.power {base exponent : Formula} {count : ℕ}
    (values : HasValues base parameter iterate point)
    (whole : Exponent.ofFormula exponent = .ok (.whole count)) :
    HasValues (.operation .power [base, exponent]) parameter iterate point := by
  obtain ⟨number, image, evaluates, shows, isPoint⟩ := values
  refine ⟨wholePower .mul number (min count Exponent.maximumFactors),
    wholePower .mul image (min count Exponent.maximumFactors), ?_, ?_, ?_⟩
  · rw [eval_power, evaluates, whole]
    rfl
  · rw [eval_power, shows, whole]
    rfl
  · have powers := @Squaring.finish_related _ _ Coordinate.IsPointOf
    exact powers Coordinate.IsPointOf.mul isPoint isPoint _

/-- Where no divisor is zero, a rational formula has a number and its point as values. -/
theorem IsRational.hasValues (isRational : formula.IsRational)
    (nonzero : formula.DividesByNonzero parameter) (iterate : Coordinate ℝ)
    (isPoint : point.IsPointOf parameter) :
    HasValues formula parameter iterate point := by
  induction isRational with
  | parameter => exact ⟨parameter, point, rfl, rfl, isPoint⟩
  | @imaginaryUnit name spelling =>
      have known : ∀ arithmetic : Arithmetic, arithmetic.symbol? name = some .imaginaryUnit :=
        fun arithmetic => if_pos spelling
      refine ⟨.imaginaryUnit, .imaginaryUnit, ?_, ?_, Coordinate.isPointOf_imaginaryUnit⟩
      · rw [eval_symbol, known]
        rfl
      · rw [eval_symbol, known]
        rfl
  | @constant value finite =>
      refine ⟨.real (Scalar.ofFloat value), .constant (Scalar.ofFloat value), ?_, ?_,
        Coordinate.isPointOf_constant _⟩
      · rw [eval_constant, if_pos finite]
        rfl
      · rw [eval_constant, if_pos finite]
        rfl
  | negation isRational hypothesis =>
      apply HasValues.negation
      apply hypothesis
      intro dividend divisor meets
      exact nonzero dividend divisor (.negated meets)
  | @binary operator left right isBinary leftRational rightRational leftValues rightValues =>
      apply HasValues.binary isBinary
      · apply leftValues
        intro dividend divisor meets
        exact nonzero dividend divisor (.left isBinary meets)
      · apply rightValues
        intro dividend divisor meets
        exact nonzero dividend divisor (.right isBinary meets)
      · rintro rfl
        exact nonzero left right (.itself _)
  | power isRational isConstant represents positive hypothesis =>
      apply HasValues.power _ (Exponent.ofFormula_of_represents isConstant represents positive)
      apply hypothesis
      intro dividend divisor meets
      exact nonzero dividend divisor (.base meets)

/-- A rational formula that is not too deep has a value in both arithmetics, whatever the
iterated point, and where no divisor is zero the two values are one point of the sphere. -/
theorem rational_values_are_one_point (isRational : formula.IsRational)
    (shallow : formula.depth ≤ maximumNesting) (nonzero : formula.DividesByNonzero parameter)
    (iterate : Coordinate ℝ) :
    ∃ number image, formula.numberValue parameter = .ok number ∧
      formula.pointValue iterate (.ofComplex parameter) = .ok image ∧
      image.SamePoint (.ofComplex number) := by
  obtain ⟨number, image, evaluates, shows, isPoint⟩ :=
    isRational.hasValues nonzero iterate (Coordinate.isPointOf_ofComplex parameter)
  refine ⟨number, image, ?_, ?_, isPoint.samePoint (Coordinate.isPointOf_ofComplex number)⟩
  · rw [numberValue, value, if_neg (Nat.not_lt.mpr shallow), evaluates]
  · rw [pointValue, value, if_neg (Nat.not_lt.mpr shallow), shows]

/-- The formula `(c^2 + 1) / c` at two. -/
theorem rational_values_are_one_point_quotient :
    let numerator : Formula :=
      .operation .add [.operation .power [.symbol "c", .constant 2], .constant 1]
    let formula : Formula := .operation .divide [numerator, .symbol "c"]
    let two : ComplexNumber ℝ := ⟨2, 0⟩
    formula.IsRational ∧ formula.depth ≤ maximumNesting ∧ formula.DividesByNonzero two ∧
      ∃ number image, formula.numberValue two = .ok number ∧
        formula.pointValue .infinity (.ofComplex two) = .ok image ∧
        image.SamePoint (.ofComplex number) := by
  intro numerator formula two
  have square : Represents 2 (2 : ℕ) := by
    refine ⟨⟨false, 2 ^ 52, -51⟩, by decide +kernel, ?_⟩
    norm_num [Binary.value, Binary.magnitude]
  have isRational : formula.IsRational := by
    apply IsRational.binary ⟨by decide, by decide⟩
    · apply IsRational.binary ⟨by decide, by decide⟩
      · exact .power .parameter rfl square Nat.two_pos
      · exact .constant (by decide +kernel)
    · exact .parameter
  have shallow : formula.depth ≤ maximumNesting := by
    simp [formula, numerator, depth, deepest, children, maximumNesting]
  have nonzero : formula.DividesByNonzero two := by
    intro dividend divisor meets
    dsimp only [formula, numerator] at meets
    cases meets with
    | itself =>
        intro zero
        exact two_ne_zero (congrArg ComplexNumber.re (Except.ok.inj zero))
    | left isBinary meets =>
        cases meets with
        | left isBinary meets =>
            cases meets with
            | left isBinary meets => cases meets
            | right isBinary meets => cases meets
            | base meets => cases meets
        | right isBinary meets => cases meets
    | right isBinary meets => cases meets
  exact ⟨isRational, shallow, nonzero,
    rational_values_are_one_point isRational shallow nonzero .infinity⟩

end Stereograph.Formula
