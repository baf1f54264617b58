import Mathlib.Order.Bounds.Basic
import Stereograph.Proofs.Sphere.Escape

/-!
# First escapes

A fate tells the first index at which the orbit has escaped, however the map was chosen and
whatever the scalars round.  A longer bound looks at more points of the same orbit.  It
keeps the first escape that a shorter bound saw, and finds none before the shorter bound if
that saw none.
-/

namespace Stereograph.Orbit

variable {α : Type} [Scalar α] {step : Coordinate α → Coordinate α} {start : Coordinate α}

/-- Indices of the points that have escaped, among the points that a bound lets the orbit
be followed to. -/
def escapesBelow (step : Coordinate α → Coordinate α) (start : Coordinate α)
    (bound : Nat) : Set Nat :=
  {index | index < bound ∧ (point step start index).hasEscaped = true}

theorem mem_escapesBelow_mono {bound longer index : Nat} (le : bound ≤ longer)
    (escaped : index ∈ escapesBelow step start bound) :
    index ∈ escapesBelow step start longer :=
  ⟨Nat.lt_of_lt_of_le escaped.1 le, escaped.2⟩

/-- The first escape under a bound is the first under every longer bound. -/
theorem isLeast_escapesBelow_mono {bound longer index : Nat} (le : bound ≤ longer)
    (least : IsLeast (escapesBelow step start bound) index) :
    IsLeast (escapesBelow step start longer) index := by
  refine ⟨mem_escapesBelow_mono le least.1, ?_⟩
  intro other escaped
  rcases Nat.lt_or_ge other bound with within | beyond
  · exact least.2 ⟨within, escaped.2⟩
  · exact Nat.le_trans (Nat.le_of_lt least.1.1) beyond

/-! ## The loop -/

/-- One round of the loop, seen from the orbit. -/
theorem firstEscape_point (count index : Nat) :
    firstEscape step (count + 1) index (point step start index) =
      if (point step start index).hasEscaped then
        some (index, (point step start index).dist .infinity)
      else firstEscape step count (index + 1) (point step start (index + 1)) := by
  simp only [firstEscape, Coordinate.hasEscaped, decide_eq_true_eq]
  rfl

/-- A loop that is about to pass the first escape stops there. -/
theorem firstEscape_point_of_first {count index found : Nat} (above : index ≤ found)
    (below : found < index + count) (escaped : (point step start found).hasEscaped = true)
    (first : ∀ earlier, index ≤ earlier → earlier < found →
      (point step start earlier).hasEscaped = false) :
    firstEscape step count index (point step start index) =
      some (found, (point step start found).dist .infinity) := by
  induction count generalizing index with
  | zero => exact absurd (Nat.lt_of_le_of_lt above below) (Nat.lt_irrefl index)
  | succ count ih =>
      rw [firstEscape_point]
      rcases Nat.eq_or_lt_of_le above with rfl | later
      · rw [if_pos escaped]
      · rw [first index (Nat.le_refl index) later, if_neg Bool.false_ne_true]
        apply ih later (by omega)
        intro earlier aboveEarlier
        exact first earlier (Nat.le_of_succ_le aboveEarlier)

/-- A loop over points that have not escaped runs to its end. -/
theorem firstEscape_point_of_captive {count index : Nat}
    (captive : ∀ other, index ≤ other → other < index + count →
      (point step start other).hasEscaped = false) :
    firstEscape step count index (point step start index) = none := by
  induction count generalizing index with
  | zero => rfl
  | succ count ih =>
      rw [firstEscape_point, captive index (Nat.le_refl index) (by omega),
        if_neg Bool.false_ne_true]
      apply ih
      intro other above below
      exact captive other (Nat.le_of_succ_le above) (by omega)

theorem firstEscape_of_isLeast {bound found : Nat}
    (least : IsLeast (escapesBelow step start bound) found) :
    firstEscape step bound 0 start =
      some (found, (point step start found).dist .infinity) := by
  apply firstEscape_point_of_first (Nat.zero_le found) (by simpa using least.1.1) least.1.2
  intro earlier _ before
  apply Bool.eq_false_iff.mpr
  intro escaped
  exact absurd (least.2 ⟨Nat.lt_trans before least.1.1, escaped⟩) (Nat.not_le_of_lt before)

theorem firstEscape_of_captive {bound : Nat} (captive : escapesBelow step start bound = ∅) :
    firstEscape step bound 0 start = none := by
  apply @firstEscape_point_of_captive _ _ _ start
  intro other _ below
  apply Bool.eq_false_iff.mpr
  intro escaped
  have member : other ∈ escapesBelow step start bound := ⟨by simpa using below, escaped⟩
  rw [captive] at member
  cases member

/-- An orbit has a first escape under a bound or none at all. -/
theorem exists_isLeast_or_captive (step : Coordinate α → Coordinate α) (start : Coordinate α)
    (bound : Nat) :
    (∃ found, IsLeast (escapesBelow step start bound) found) ∨
      escapesBelow step start bound = ∅ := by
  classical
  rcases Set.eq_empty_or_nonempty (escapesBelow step start bound) with captive | escapes
  · exact .inr captive
  · exact .inl ⟨Nat.find escapes, Nat.find_spec escapes,
      fun _ member => Nat.find_min' escapes member⟩

/-! ## Fates -/

section Fates

variable {map : Coordinate α → Coordinate α → Coordinate α} {parameter : Coordinate α}
  {bound : UInt32}

theorem fate_of_isLeast {found : Nat}
    (least : IsLeast (escapesBelow (map · parameter) start.normalized bound.toNat) found) :
    fate map start parameter bound =
      ⟨found.toUInt32, true,
        shade found ((point (map · parameter) start.normalized found).dist .infinity)⟩ := by
  rw [fate, firstEscape_of_isLeast least]

theorem fate_of_captive
    (captive : escapesBelow (map · parameter) start.normalized bound.toNat = ∅) :
    fate map start parameter bound = ⟨bound, false, 0⟩ := by
  rw [fate, firstEscape_of_captive captive]

/-- An index below a bound is not changed by storing it in a word. -/
theorem toNat_toUInt32_of_mem {index : Nat}
    (member : index ∈ escapesBelow step start bound.toNat) :
    index.toUInt32.toNat = index := by
  rw [Nat.toUInt32_eq]
  exact UInt32.toNat_ofNat_of_lt' (Nat.lt_trans member.1 bound.toNat_lt)

/-- An orbit that escaped did so first at the index that its fate tells. -/
theorem isLeast_iterations (escaped : (fate map start parameter bound).escaped = true) :
    IsLeast (escapesBelow (map · parameter) start.normalized bound.toNat)
        (fate map start parameter bound).iterations.toNat ∧
      (fate map start parameter bound).shade =
        shade (fate map start parameter bound).iterations.toNat
          ((point (map · parameter) start.normalized
            (fate map start parameter bound).iterations.toNat).dist .infinity) := by
  rcases exists_isLeast_or_captive (map · parameter) start.normalized bound.toNat with
    ⟨found, least⟩ | captive
  · rw [fate_of_isLeast least]
    simp only [toNat_toUInt32_of_mem least.1, and_true]
    exact least
  · rw [fate_of_captive captive] at escaped
    cases escaped

/-- An orbit that did not escape has no point that escaped before the bound. -/
theorem captive_of_escaped_eq_false
    (stayed : (fate map start parameter bound).escaped = false) :
    escapesBelow (map · parameter) start.normalized bound.toNat = ∅ := by
  rcases exists_isLeast_or_captive (map · parameter) start.normalized bound.toNat with
    ⟨found, least⟩ | captive
  · rw [fate_of_isLeast least] at stayed
    cases stayed
  · exact captive

theorem escaped_iff_nonempty :
    (fate map start parameter bound).escaped = true ↔
      (escapesBelow (map · parameter) start.normalized bound.toNat).Nonempty := by
  constructor
  · intro escaped
    exact (isLeast_iterations escaped).1.nonempty
  · intro nonempty
    by_contra stayed
    exact nonempty.ne_empty (captive_of_escaped_eq_false (Bool.eq_false_of_not_eq_true stayed))

variable {longer : UInt32}

theorem fate_eq_of_le (le : bound ≤ longer)
    (escaped : (fate map start parameter bound).escaped = true) :
    fate map start parameter longer = fate map start parameter bound := by
  have least := (isLeast_iterations escaped).1
  have leastLonger := isLeast_escapesBelow_mono (UInt32.le_iff_toNat_le.mp le) least
  rw [fate_of_isLeast leastLonger, ← fate_of_isLeast least]

theorem le_iterations_of_le (stayed : (fate map start parameter bound).escaped = false)
    (escaped : (fate map start parameter longer).escaped = true) :
    bound ≤ (fate map start parameter longer).iterations := by
  have least := (isLeast_iterations escaped).1
  apply UInt32.le_iff_toNat_le.mpr
  by_contra early
  have member : _ ∈ escapesBelow (map · parameter) start.normalized bound.toNat :=
    ⟨Nat.lt_of_not_le early, least.1.2⟩
  rw [captive_of_escaped_eq_false stayed] at member
  cases member

end Fates

/-- Under every bound an orbit escapes exactly if one of the points before the bound has
escaped.  Its fate then tells the first of them with its shade, and otherwise the bound and
no shade.  Under a longer bound an orbit that escaped has the same fate, and one that did
not escape stays or escapes no earlier than at the shorter bound. -/
theorem fate_tells_first_escape (map : Coordinate α → Coordinate α → Coordinate α)
    (start parameter : Coordinate α) :
    let orbit := point (map · parameter) start.normalized
    let fate := fate map start parameter
    (∀ bound,
      ((fate bound).escaped = true ↔
        ∃ index < bound.toNat, (orbit index).dist .infinity < escapeDistance) ∧
      ((fate bound).escaped = true →
        IsLeast {index | index < bound.toNat ∧ (orbit index).dist .infinity < escapeDistance}
          (fate bound).iterations.toNat ∧
        (fate bound).shade = shade (fate bound).iterations.toNat
          ((orbit (fate bound).iterations.toNat).dist .infinity)) ∧
      ((fate bound).escaped = false → (fate bound).iterations = bound ∧ (fate bound).shade = 0)) ∧
    ∀ bound longer, bound ≤ longer →
      ((fate bound).escaped = true → fate longer = fate bound) ∧
      ((fate bound).escaped = false →
        (fate longer).escaped = false ∨ bound ≤ (fate longer).iterations) := by
  intro orbit fate
  have sameSet : ∀ bound,
      {index | index < bound ∧ (orbit index).dist .infinity < escapeDistance} =
        escapesBelow (map · parameter) start.normalized bound := by
    intro bound
    ext index
    apply and_congr_right
    intro _
    exact decide_eq_true_iff.symm
  constructor
  · intro bound
    rw [sameSet]
    refine ⟨?_, isLeast_iterations, ?_⟩
    · rw [escaped_iff_nonempty, ← sameSet]
      rfl
    · intro stayed
      have told : fate bound = _ := fate_of_captive (captive_of_escaped_eq_false stayed)
      rw [told]
      exact ⟨rfl, rfl⟩
  · intro bound longer le
    refine ⟨fate_eq_of_le le, ?_⟩
    intro stayed
    cases escaped : (fate longer).escaped with
    | false => exact .inl rfl
    | true => exact .inr (le_iterations_of_le stayed escaped)

/-- An orbit that jumps from zero to infinity stays under the bound one and has one fate
under all longer bounds. -/
theorem fate_tells_first_escape_jump :
    let fate := fate (fun _ _ => .infinity) .zero (.zero : Coordinate ℝ)
    (fate 1).escaped = false ∧ (fate 2).escaped = true ∧ (1 : UInt32) ≤ 2 ∧
      (fate 2).iterations = 1 ∧ fate 5 = fate 2 ∧
      ((fate 5).escaped = false ∨ 1 ≤ (fate 5).iterations) := by
  intro fate
  have zero_eq : (Coordinate.zero : Coordinate ℝ).normalized = .zero := by
    apply Coordinate.normalized_of_norm_eq_one
    simp [Coordinate.norm_eq_sqrt, Coordinate.zero, ComplexNumber.normSq]
  have far : ¬ (Coordinate.zero : Coordinate ℝ).dist .infinity < escapeDistance :=
    of_decide_eq_false (Coordinate.hasEscaped_of_denominator_one rfl)
  have near : (Coordinate.infinity : Coordinate ℝ).dist .infinity < escapeDistance := by
    rw [Coordinate.dist_infinity, ComplexNumber.norm_eq]
    change ‖(ComplexNumber.zero : ComplexNumber ℝ).toComplex‖ < escapeDistance
    rw [ComplexNumber.toComplex_zero, norm_zero]
    norm_num [escapeDistance]
  obtain ⟨tells, stable⟩ := fate_tells_first_escape
    (fun _ _ => .infinity) .zero (.zero : Coordinate ℝ)
  rw [zero_eq] at tells
  have jumps : (fate 2).escaped = true := (tells 2).1.mpr ⟨1, by decide, near⟩
  have stays : (fate 1).escaped = false := by
    apply Bool.eq_false_iff.mpr
    intro escaped
    obtain ⟨index, below, first⟩ := (tells 1).1.mp escaped
    obtain rfl : index = 0 := Nat.lt_one_iff.mp below
    exact far first
  have early : (fate 2).iterations = 1 := by
    apply UInt32.toNat_inj.mp
    apply ((tells 2).2.1 jumps).1.unique
    refine ⟨⟨by decide, near⟩, ?_⟩
    rintro index ⟨-, first⟩
    apply Nat.one_le_iff_ne_zero.mpr
    rintro rfl
    exact far first
  exact ⟨stays, jumps, by decide, early, (stable 2 5 (by decide)).1 jumps,
    (stable 1 5 (by decide)).2 stays⟩

end Stereograph.Orbit
