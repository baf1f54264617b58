import Stereograph.Proofs.Formula.Core
import Stereograph.Proofs.Formula.Relation
import Stereograph.Sphere.Picture

/-!
# Escape in the reference and in the picture

Two loops follow the orbit of a formula.  The reference rescales the start and takes
every further point as the formula gives it, and the picture rescales each point before
it is tested.  Over exact arithmetic positive factors never matter to a formula, so the
two orbits stay aligned, and the loops can differ only in the test of a point that is not
rescaled.

A formula rescales its value unless it takes over a constant or a symbol.  The imaginary
unit is tested alike by both loops and the iterated point stays rescaled.  What remains
is the formula whose value is fixed: it decides every test but the first.
-/

namespace Stereograph

open Coordinate Formula

/-! ## Formulas at aligned points -/

theorem Coordinate.Aligned.neg {left right : Coordinate ℝ} (aligned : Aligned left right) :
    Aligned left.neg right.neg := by
  obtain ⟨factor, positive, rfl⟩ := aligned
  refine ⟨factor, positive, ?_⟩
  simp [Coordinate.neg, stretch, ComplexNumber.neg, ComplexNumber.scale]

/-- Positive factors of the iterated point do not matter to any primitive. -/
theorem Interpretation.relates_aligned {iterate other : Coordinate ℝ}
    (aligned : Aligned iterate other) (parameter : Coordinate ℝ) :
    (projective iterate parameter).Relates Aligned (projective other parameter) where
  constant value := .refl _
  symbol symbol := by
    cases symbol with
    | imaginaryUnit | parameter => exact .refl _
    | iterate => exact aligned
  negate := Aligned.neg
  binary := by
    rintro operator value - second - notNegate ⟨factor, positive, rfl⟩ ⟨also, alsoPositive, rfl⟩
    have same : (projective other parameter).binary operator (value.stretch factor)
          (second.stretch also) =
        (projective iterate parameter).binary operator value second := by
      cases operator with
      | negate => exact (notNegate rfl).elim
      | add => exact add_stretch positive alsoPositive
      | subtract => exact sub_stretch positive alsoPositive
      | multiply => exact mul_stretch positive alsoPositive
      | divide => exact div_stretch positive alsoPositive
      | power => exact pow_stretch positive alsoPositive
    rw [same]
    exact .refl _
  function := by
    rintro function value - ⟨factor, positive, rfl⟩
    have same : (projective other parameter).function function (value.stretch factor) =
        (projective iterate parameter).function function value := by
      cases function with
      | sqrt => exact sqrt_stretch positive
      | exp => exact throughComplex_stretch positive _
      | log => exact log_stretch positive
      | sin => exact throughComplex_stretch positive _
      | cos => exact throughComplex_stretch positive _
    rw [same]
    exact .refl _

theorem Formula.toMap_aligned (formula : Formula) {iterate other : Coordinate ℝ}
    (aligned : Aligned iterate other) (parameter : Coordinate ℝ) :
    Aligned (formula.toMap iterate parameter) (formula.toMap other parameter) := by
  have outcome := value_related (Interpretation.relates_aligned aligned parameter)
    .projective formula
  rw [← pointValue, ← pointValue] at outcome
  unfold toMap
  generalize formula.pointValue iterate parameter = left at outcome
  generalize formula.pointValue other parameter = right at outcome
  cases outcome with
  | refused error => exact .refl _
  | accepted related => exact related

/-- Whether a formula has a value does not depend on the points. -/
theorem Formula.exists_pointValue {formula : Formula} {iterate parameter value : Coordinate ℝ}
    (evaluates : formula.pointValue iterate parameter = .ok value)
    (other otherParameter : Coordinate ℝ) :
    ∃ value, formula.pointValue other otherParameter = .ok value := by
  have everything : (Interpretation.projective iterate parameter).Relates
      (fun _ _ => True) (Interpretation.projective other otherParameter) := by
    constructor <;> intros <;> trivial
  have outcome := value_related everything .projective formula
  rw [← pointValue, ← pointValue, evaluates] at outcome
  generalize formula.pointValue other otherParameter = result at outcome
  cases outcome with
  | accepted _ => exact ⟨_, rfl⟩

/-! ## The test -/

namespace Coordinate

variable {point : Coordinate ℝ}

theorem dist_infinity (point : Coordinate ℝ) :
    point.dist .infinity = point.denominator.norm := by
  have separation_eq : point.separation .infinity = point.denominator.neg := by
    simp [separation, infinity, ComplexNumber.mul, ComplexNumber.sub, ComplexNumber.neg]
  rw [dist, separation_eq, ComplexNumber.norm_neg]

theorem hasEscaped_iff : point.hasEscaped ↔ point.denominator.norm < Orbit.escapeDistance := by
  rw [hasEscaped, dist_infinity, decide_eq_true_iff]

theorem hasEscaped_neg (point : Coordinate ℝ) : point.neg.hasEscaped = point.hasEscaped := by
  rw [Bool.eq_iff_iff, hasEscaped_iff, hasEscaped_iff]
  rfl

/-- Rescaling does not change whether a point has escaped. -/
def EscapesAlike (point : Coordinate ℝ) : Prop :=
  point.hasEscaped = point.normalized.hasEscaped

theorem IsRescaled.escapesAlike (rescaled : IsRescaled point) : EscapesAlike point := by
  rw [EscapesAlike, rescaled]

theorem EscapesAlike.neg (alike : EscapesAlike point) : EscapesAlike point.neg := by
  rw [EscapesAlike, normalized_neg, hasEscaped_neg, hasEscaped_neg, alike]

/-- A denominator of one is no sign of an escape, however large the numerator. -/
theorem hasEscaped_of_denominator_one (unit : point.denominator = .one) :
    point.hasEscaped = false := by
  rw [Bool.eq_false_iff, ne_eq, hasEscaped_iff, unit, ComplexNumber.norm_eq,
    ComplexNumber.toComplex_one, norm_one, Orbit.escapeDistance]
  norm_num

/-- A point of denominator one has escaped when its length is greater than a thousand,
which only rescaling shows. -/
theorem escapesAlike_iff_of_denominator_one (unit : point.denominator = .one) :
    EscapesAlike point ↔ point.norm ≤ 1000 := by
  have one : point.denominator.norm = 1 := by
    rw [unit, ComplexNumber.norm_eq, ComplexNumber.toComplex_one, norm_one]
  have nonzero : point.norm ≠ 0 := by
    intro zero
    rw [(norm_eq_zero_iff.mp zero).2, ComplexNumber.norm_eq] at one
    simp at one
  have positive : 0 < point.norm := lt_of_le_of_ne (norm_nonneg point) nonzero.symm
  have rescaled : point.normalized.hasEscaped ↔ 1000 < point.norm := by
    rw [hasEscaped_iff, normalized_of_norm_ne_zero nonzero, denominator_stretch,
      ComplexNumber.norm_scale _ (inv_pos.mpr positive), one, one_mul,
      inv_lt_comm₀ positive (by norm_num [Orbit.escapeDistance]), Orbit.escapeDistance]
    norm_num
  rw [EscapesAlike, hasEscaped_of_denominator_one unit, ← not_lt, ← rescaled,
    Bool.not_eq_true, eq_comm]

theorem escapesAlike_imaginaryUnit : EscapesAlike imaginaryUnit := by
  rw [escapesAlike_iff_of_denominator_one rfl, norm_eq_sqrt]
  refine Real.sqrt_le_iff.mpr ⟨by norm_num, ?_⟩
  norm_num [imaginaryUnit, ComplexNumber.normSq]

end Coordinate

/-! ## Steps of an orbit -/

namespace Formula

variable {formula : Formula} {iterate parameter value : Coordinate ℝ}

theorem eval_of_pointValue (evaluates : formula.pointValue iterate parameter = .ok value) :
    formula.eval .projective (.projective iterate parameter) = .ok value := by
  unfold pointValue Formula.value at evaluates
  split at evaluates
  · cases evaluates
  · exact evaluates

theorem toMap_of_pointValue (evaluates : formula.pointValue iterate parameter = .ok value) :
    formula.toMap iterate parameter = value := by
  rw [toMap, evaluates]

/-- A fixed value decides the tests of every point that the formula leads to. -/
theorem hasEscaped_toMap (evaluates : formula.pointValue iterate parameter = .ok value)
    {fixed : Coordinate ℝ} (isFixed : formula.fixedValue? parameter = some fixed) :
    (formula.toMap iterate parameter).hasEscaped = fixed.hasEscaped ∧
      (formula.toMap iterate parameter).normalized.hasEscaped =
        fixed.normalized.hasEscaped := by
  rw [toMap_of_pointValue evaluates]
  obtain ⟨inner, coreEvaluates, sign⟩ := exists_eval_core (eval_of_pointValue evaluates)
  have same : inner = fixed := by
    rcases eval_core_cases coreEvaluates with found | ⟨free, -⟩
    · rw [isFixed] at found
      exact (Option.some.inj found).symm
    · rw [isFixed] at free
      cases free
  subst same
  rcases sign with rfl | rfl
  · exact ⟨rfl, rfl⟩
  · rw [normalized_neg, hasEscaped_neg, hasEscaped_neg]
    exact ⟨rfl, rfl⟩

/-- A formula leads from points that both loops test alike to points that both test
alike, unless its value is fixed and they test that differently. -/
theorem escapesAlike_toMap (evaluates : formula.pointValue iterate parameter = .ok value)
    (settled : ∀ fixed ∈ formula.fixedValue? parameter, EscapesAlike fixed)
    (alike : EscapesAlike iterate) : EscapesAlike (formula.toMap iterate parameter) := by
  cases isFixed : formula.fixedValue? parameter with
  | some fixed =>
      obtain ⟨asItIs, rescaled⟩ := hasEscaped_toMap evaluates isFixed
      rw [EscapesAlike, asItIs, rescaled]
      exact settled fixed isFixed
  | none =>
      rw [toMap_of_pointValue evaluates]
      obtain ⟨inner, coreEvaluates, sign⟩ := exists_eval_core (eval_of_pointValue evaluates)
      have innerAlike : EscapesAlike inner := by
        rcases eval_core_cases coreEvaluates with found | ⟨-, rescaled | rfl | rfl⟩
        · rw [isFixed] at found
          cases found
        · exact rescaled.escapesAlike
        · exact escapesAlike_imaginaryUnit
        · exact alike
      rcases sign with rfl | rfl
      · exact innerAlike
      · exact innerAlike.neg

end Formula

/-! ## The loops -/

namespace Orbit

variable {step : Coordinate ℝ → Coordinate ℝ}

theorem firstEscape_succ (count index : Nat) (point : Coordinate ℝ) :
    (firstEscape step (count + 1) index point).map Prod.fst =
      if point.hasEscaped then some index
      else (firstEscape step count (index + 1) (step point)).map Prod.fst := by
  simp only [firstEscape, Coordinate.hasEscaped, decide_eq_true_eq]
  split
  · rfl
  · rfl

theorem firstEscapeInPicture_succ (count index : Nat) (point : Coordinate ℝ) :
    firstEscapeInPicture step (count + 1) index point =
      if point.normalized.hasEscaped then some index
      else firstEscapeInPicture step count (index + 1) (step point) :=
  rfl

/-- Two runs agree while a relation that implies equal tests is kept by the steps. -/
theorem firstEscape_eq_firstEscapeInPicture
    (related : Coordinate ℝ → Coordinate ℝ → Prop)
    (tests : ∀ {point other}, related point other →
      point.hasEscaped = other.normalized.hasEscaped)
    (steps : ∀ {point other}, related point other → related (step point) (step other))
    {point other : Coordinate ℝ} (start : related point other) (count index : Nat) :
    (firstEscape step count index point).map Prod.fst =
      firstEscapeInPicture step count index other := by
  induction count generalizing index point other with
  | zero => rfl
  | succ count ih =>
      rw [firstEscape_succ, firstEscapeInPicture_succ, tests start, ih (steps start)]

/-- An orbit that never escapes has no first escape. -/
theorem firstEscape_eq_none (captive : ∀ point, (step point).hasEscaped = false)
    {point : Coordinate ℝ} (start : point.hasEscaped = false) (count index : Nat) :
    firstEscape step count index point = none := by
  apply Option.map_eq_none_iff.mp
  induction count generalizing index point with
  | zero => rfl
  | succ count ih =>
      rw [firstEscape_succ, start]
      exact ih (captive point) (index + 1)

theorem firstEscape_bounds {count index found : Nat} {point : Coordinate ℝ}
    (escape : (firstEscape step count index point).map Prod.fst = some found) :
    index ≤ found ∧ found < index + count := by
  induction count generalizing index point with
  | zero => cases escape
  | succ count ih =>
      rw [firstEscape_succ] at escape
      split at escape
      · cases escape
        omega
      · have := ih escape
        omega

theorem firstEscapeInPicture_bounds {count index found : Nat} {point : Coordinate ℝ}
    (escape : firstEscapeInPicture step count index point = some found) :
    index ≤ found ∧ found < index + count := by
  induction count generalizing index point with
  | zero => cases escape
  | succ count ih =>
      rw [firstEscapeInPicture_succ] at escape
      split at escape
      · cases escape
        omega
      · have := ih escape
        omega

theorem fate_eq_report (map : Coordinate ℝ → Coordinate ℝ → Coordinate ℝ)
    (start parameter : Coordinate ℝ) (bound : UInt32) :
    ((fate map start parameter bound).iterations, (fate map start parameter bound).escaped) =
      report bound
        ((firstEscape (map · parameter) bound.toNat 0 start.normalized).map Prod.fst) := by
  unfold fate
  cases firstEscape (map · parameter) bound.toNat 0 start.normalized with
  | none => rfl
  | some found => rfl

/-- An escape at the first index is not reported as a later one or as none. -/
theorem report_ne {bound : UInt32} {escape : Option Nat}
    (later : ∀ found, escape = some found → 2 ≤ found ∧ found < bound.toNat) :
    report bound (some 1) ≠ report bound escape := by
  intro same
  cases escape with
  | none => exact Bool.noConfusion (congrArg Prod.snd same)
  | some found =>
      obtain ⟨atLeast, below⟩ := later found rfl
      have range : bound.toNat < 2 ^ 32 := bound.toNat_lt
      have words : (1 : Nat).toUInt32.toNat = found.toUInt32.toNat :=
        congrArg (fun reported => reported.1.toNat) same
      rw [Nat.toUInt32_eq, Nat.toUInt32_eq, UInt32.toNat_ofNat_of_lt' (by decide),
        UInt32.toNat_ofNat_of_lt' (Nat.lt_trans below range)] at words
      omega

end Orbit

/-! ## The two fates -/

namespace Formula

variable {formula : Formula} {start parameter value : Coordinate ℝ}

/-- The loops agree on every run of a formula whose fixed value, if it has one, they test
alike. -/
theorem firstEscape_eq_of_settled
    (evaluates : formula.pointValue start parameter = .ok value)
    (settled : ∀ fixed ∈ formula.fixedValue? parameter, EscapesAlike fixed)
    (count index : Nat) :
    (Orbit.firstEscape (formula.toMap · parameter) count index start.normalized).map
        Prod.fst =
      Orbit.firstEscapeInPicture (formula.toMap · parameter) count index start := by
  apply Orbit.firstEscape_eq_firstEscapeInPicture
    (fun point other => EscapesAlike point ∧ Aligned point other)
  · rintro point other ⟨alike, aligned⟩
    rw [aligned.normalized_eq]
    exact alike
  · rintro point other ⟨alike, aligned⟩
    obtain ⟨next, nextEvaluates⟩ := exists_pointValue evaluates point parameter
    exact ⟨escapesAlike_toMap nextEvaluates settled alike,
      formula.toMap_aligned aligned parameter⟩
  · exact ⟨(isRescaled_normalized start).escapesAlike, aligned_normalized start⟩

/-- A fixed value that the loops test differently ends one of them at the first step and
lets the other go on. -/
theorem report_ne_of_not_alike
    (evaluates : formula.pointValue start parameter = .ok value) {fixed : Coordinate ℝ}
    (isFixed : formula.fixedValue? parameter = some fixed) (differ : ¬ EscapesAlike fixed)
    (captive : start.normalized.hasEscaped = false) {bound : UInt32}
    (several : 2 ≤ bound.toNat) :
    Orbit.report bound
        ((Orbit.firstEscape (formula.toMap · parameter) bound.toNat 0
          start.normalized).map Prod.fst) ≠
      Orbit.report bound
        (Orbit.firstEscapeInPicture (formula.toMap · parameter) bound.toNat 0 start) := by
  obtain ⟨count, count_eq⟩ := Nat.exists_eq_add_of_le' several
  obtain ⟨next, nextEvaluates⟩ := exists_pointValue evaluates start.normalized parameter
  have asItIs := (hasEscaped_toMap nextEvaluates isFixed).1
  have rescaled := (hasEscaped_toMap evaluates isFixed).2
  rw [EscapesAlike] at differ
  rw [count_eq, Orbit.firstEscape_succ, Orbit.firstEscape_succ,
    Orbit.firstEscapeInPicture_succ, Orbit.firstEscapeInPicture_succ, captive, asItIs,
    rescaled]
  cases seen : fixed.hasEscaped with
  | true =>
      have hidden : fixed.normalized.hasEscaped = false := by
        rw [seen] at differ
        exact Bool.eq_false_iff.mpr (Ne.symm differ)
      rw [hidden]
      apply Orbit.report_ne
      intro found escape
      have := Orbit.firstEscapeInPicture_bounds escape
      omega
  | false =>
      have shown : fixed.normalized.hasEscaped = true := by
        rw [seen] at differ
        exact Bool.eq_true_of_not_eq_false (Ne.symm differ)
      rw [shown]
      apply Ne.symm
      apply Orbit.report_ne
      intro found escape
      have := Orbit.firstEscape_bounds escape
      omega

/-- The reference and the picture report the same fate exactly when the orbit has no
second point, or starts near infinity, or the formula has no fixed value that only one
of them takes for an escape. -/
theorem fate_follows_picture_iff
    (evaluates : formula.pointValue start parameter = .ok value) (bound : UInt32) :
    ((Orbit.fate formula.toMap start parameter bound).iterations,
        (Orbit.fate formula.toMap start parameter bound).escaped) =
        Orbit.fateInPicture formula.toMap start parameter bound ↔
      bound ≤ 1 ∨ start.normalized.hasEscaped = true ∨
        ∀ fixed ∈ formula.fixedValue? parameter, EscapesAlike fixed := by
  rw [Orbit.fate_eq_report, Orbit.fateInPicture]
  constructor
  · intro same
    by_contra! differ
    obtain ⟨several, captive, fixed, isFixed, notAlike⟩ := differ
    exact report_ne_of_not_alike evaluates isFixed notAlike (Bool.eq_false_iff.mpr captive)
      (UInt32.lt_iff_toNat_lt.mp (UInt32.not_le.mp several)) same
  · rintro (few | escaped | settled)
    · have count : bound.toNat = 0 ∨ bound.toNat = 1 := by
        have := UInt32.le_iff_toNat_le.mp few
        rw [UInt32.toNat_one] at this
        omega
      rcases count with zero | one
      · rw [zero]
        rfl
      · rw [one, Orbit.firstEscape_succ, Orbit.firstEscapeInPicture_succ]
        rfl
    · cases bound.toNat with
      | zero => rfl
      | succ count =>
          rw [Orbit.firstEscape_succ, Orbit.firstEscapeInPicture_succ, escaped]
          rfl
    · rw [firstEscape_eq_of_settled evaluates settled]

/-- The square of the iterated point has no fixed value, so its fates agree. -/
theorem fate_follows_picture_square :
    (operation .multiply [.symbol "z", .symbol "z"]).pointValue zero zero =
        .ok (Coordinate.mul zero zero : Coordinate ℝ) ∧
      ((Orbit.fate (operation .multiply [.symbol "z", .symbol "z"]).toMap zero
            (zero : Coordinate ℝ) 5).iterations,
          (Orbit.fate (operation .multiply [.symbol "z", .symbol "z"]).toMap zero
            (zero : Coordinate ℝ) 5).escaped) =
        Orbit.fateInPicture (operation .multiply [.symbol "z", .symbol "z"]).toMap zero
          (zero : Coordinate ℝ) 5 := by
  have evaluates : (operation .multiply [.symbol "z", .symbol "z"]).pointValue zero zero =
      .ok (Coordinate.mul zero zero : Coordinate ℝ) := by
    rw [pointValue, Formula.value,
      if_neg (by simp [depth, deepest, children, maximumNesting])]
    rfl
  have free : ∀ fixed ∈ (operation .multiply [.symbol "z", .symbol "z"]).fixedValue?
      (zero : Coordinate ℝ), EscapesAlike fixed := by
    intro fixed isFixed
    cases isFixed
  exact ⟨evaluates, (fate_follows_picture_iff evaluates 5).mpr (.inr (.inr free))⟩

/-! ### A fixed value that only the picture takes for an escape -/

theorem ofFloat_two_thousand : (Scalar.ofFloat 2000 : ℝ) = 2000 := by
  have decoded : Decimal.Binary.ofFloat? 2000 = some ⟨false, 2000 * 2 ^ 42, -42⟩ := by
    decide +kernel
  simp only [Scalar.ofFloat, realOfFloat, decoded, Decimal.Binary.value,
    Decimal.Binary.magnitude]
  norm_num

theorem pointValue_two_thousand (iterate parameter : Coordinate ℝ) :
    (constant 2000).pointValue iterate parameter = .ok (Coordinate.constant 2000) := by
  rw [pointValue, Formula.value, if_neg (by simp [depth, deepest, children, maximumNesting]),
    eval_constant, if_pos (by decide +kernel)]
  simp [Interpretation.projective, ofFloat_two_thousand]

/-- Every point of the orbit of zero under the constant map to two thousand is a point, the
reference follows it for five iterations, and the picture sees it escape after one. -/
theorem two_thousand_escapes_only_in_picture :
    (∀ iterate parameter : Coordinate ℝ,
        (constant 2000).pointValue iterate parameter = .ok (Coordinate.constant 2000)) ∧
      (∀ index, (Orbit.point ((constant 2000).toMap · (zero : Coordinate ℝ)) zero
        index).norm ≠ 0) ∧
      Orbit.fate (constant 2000).toMap zero (zero : Coordinate ℝ) 5 = ⟨5, false, 0⟩ ∧
      Orbit.fateInPicture (constant 2000).toMap zero (zero : Coordinate ℝ) 5 = (1, true) := by
  have map_eq : ∀ iterate parameter : Coordinate ℝ,
      (constant 2000).toMap iterate parameter = Coordinate.constant 2000 := by
    intro iterate parameter
    exact toMap_of_pointValue (pointValue_two_thousand iterate parameter)
  have unit : (zero : Coordinate ℝ).norm = 1 := by
    simp [norm_eq_sqrt, zero, ComplexNumber.normSq]
  have long : 1000 < (Coordinate.constant 2000 : Coordinate ℝ).norm := by
    rw [norm_eq_sqrt]
    apply Real.lt_sqrt_of_sq_lt
    norm_num [Coordinate.constant, ComplexNumber.normSq]
  have zero_captive : (zero : Coordinate ℝ).normalized.hasEscaped = false := by
    rw [normalized_of_norm_eq_one unit]
    exact hasEscaped_of_denominator_one rfl
  have rescaled : (Coordinate.constant 2000 : Coordinate ℝ).normalized.hasEscaped = true := by
    have differ : ¬ EscapesAlike (Coordinate.constant 2000 : Coordinate ℝ) := by
      rw [escapesAlike_iff_of_denominator_one rfl]
      exact not_le.mpr long
    rw [EscapesAlike, hasEscaped_of_denominator_one rfl] at differ
    exact Bool.eq_true_of_not_eq_false (Ne.symm differ)
  refine ⟨pointValue_two_thousand, ?_, ?_, ?_⟩
  · intro index
    cases index with
    | zero => rw [Orbit.point, unit]; exact one_ne_zero
    | succ index =>
        rw [Orbit.point, map_eq]
        exact (one_pos.trans_le (by linarith)).ne'
  · rw [Orbit.fate, Orbit.firstEscape_eq_none _ zero_captive]
    intro point
    rw [map_eq]
    exact hasEscaped_of_denominator_one rfl
  · change Orbit.report 5 (Orbit.firstEscapeInPicture _ (3 + 1 + 1) 0 zero) = (1, true)
    rw [Orbit.firstEscapeInPicture_succ, Orbit.firstEscapeInPicture_succ, zero_captive, map_eq,
      rescaled]
    rfl

end Formula

end Stereograph
