import Stereograph.Proofs.Decimal.Order
import Stereograph.Scene.Pointing

/-!
# The sphere under the pointer

The pointer picks the nearest sphere whose disc contains it.  A sphere is left out of the
search where its squared radius is at most the squared distance of the pointer, which is the
opposite of being inside the disc for numbers only.  The undefined value compares with
nothing, so a pointer without a position is inside no disc and picks a sphere all the same.
-/

namespace Stereograph

/-- Whether a sphere wins over another one that is as close. -/
def Globe.Precedes (first second : Globe) : Prop :=
  Globe.all.idxOf first < Globe.all.idxOf second

instance (first second : Globe) : Decidable (first.Precedes second) :=
  inferInstanceAs (Decidable (_ < _))

namespace SceneSetup

section Answer

variable {α : Type} [Scalar α] (setup : SceneSetup α) (aspect : α) (pointer : Vec2 α)

/-- Squared distance of the pointer from the center of a sphere's pick disc. -/
def distanceSq (globe : Globe) : α :=
  (setup.placement globe).distanceSq aspect pointer

/-- Square of the radius of a sphere's pick disc. -/
def radiusSq (globe : Globe) : α :=
  (setup.placement globe).discRadiusSq

/-- Whether the pick disc of a sphere contains the pointer. -/
def Covers (globe : Globe) : Prop :=
  setup.distanceSq aspect pointer globe < setup.radiusSq globe

/-- Whether an answer is the nearest sphere whose disc contains the pointer, the earlier one
of two that are equally close, or no sphere where no disc contains the pointer. -/
def IsNearest : Option Globe → Prop
  | none => ∀ globe, ¬setup.Covers aspect pointer globe
  | some globe => setup.Covers aspect pointer globe ∧
      ∀ other, other ≠ globe → setup.Covers aspect pointer other →
        ¬(setup.distanceSq aspect pointer other < setup.distanceSq aspect pointer globe ∨
          (setup.distanceSq aspect pointer other == setup.distanceSq aspect pointer globe) = true ∧
            other.Precedes globe)

/-- What the search for the nearest sphere compares. -/
theorem pick_eq :
    setup.pick aspect pointer =
      if setup.radiusSq .parameter ≤ setup.distanceSq aspect pointer .parameter then
        if setup.radiusSq .dynamical ≤ setup.distanceSq aspect pointer .dynamical then none
        else some .dynamical
      else if setup.radiusSq .dynamical ≤ setup.distanceSq aspect pointer .dynamical ∨
          setup.distanceSq aspect pointer .parameter ≤
            setup.distanceSq aspect pointer .dynamical then some .parameter
      else some .dynamical := by
  simp only [pick, Globe.all, List.foldl_cons, List.foldl_nil, consider]
  split_ifs <;> simp_all [closer, distanceSq, radiusSq]

end Answer

section Order

open Decimal

variable (setup : SceneSetup Float) (aspect : Float) (pointer : Vec2 Float) (globe : Globe)

/-- A disc contains the pointer if the search does not leave its sphere out and there is a
distance to compare. -/
theorem covers_iff :
    setup.Covers aspect pointer globe ↔
      ¬setup.radiusSq globe ≤ setup.distanceSq aspect pointer globe ∧
        (setup.distanceSq aspect pointer globe).isNaN = false ∧
          (setup.radiusSq globe).isNaN = false :=
  Binary.lt_iff_not_le

theorem not_covers_of_le
    (outside : setup.radiusSq globe ≤ setup.distanceSq aspect pointer globe) :
    ¬setup.Covers aspect pointer globe :=
  fun covered => ((setup.covers_iff aspect pointer globe).mp covered).1 outside

/-- The search does not leave out the sphere that it finds. -/
theorem not_le_of_pick (found : setup.pick aspect pointer = some globe) :
    ¬setup.radiusSq globe ≤ setup.distanceSq aspect pointer globe := by
  rw [pick_eq] at found
  split_ifs at found with parameterOut dynamicalOut others
  · cases found
    exact dynamicalOut
  · cases found
    exact parameterOut
  · cases found
    exact fun out => others (.inl out)

/-- Of all the conditions on the nearest sphere the search can only miss that the disc of the
sphere that it finds contains the pointer. -/
theorem isNearest_pick_iff_covers :
    setup.IsNearest aspect pointer (setup.pick aspect pointer) ↔
      ∀ globe, setup.pick aspect pointer = some globe → setup.Covers aspect pointer globe := by
  constructor
  · intro nearest globe found
    rw [found] at nearest
    exact nearest.1
  · intro covered
    rw [pick_eq] at covered ⊢
    -- In the order of the search: no sphere, and three ways in which one of them is left.
    split_ifs at covered ⊢ with parameterOut dynamicalOut others
    · intro globe
      cases globe with
      | parameter => exact setup.not_covers_of_le aspect pointer _ parameterOut
      | dynamical => exact setup.not_covers_of_le aspect pointer _ dynamicalOut
    · refine ⟨covered _ rfl, fun other different inside => ?_⟩
      cases other with
      | parameter => exact (setup.not_covers_of_le aspect pointer _ parameterOut inside).elim
      | dynamical => exact (different rfl).elim
    · refine ⟨covered _ rfl, fun other different inside => ?_⟩
      cases other with
      | parameter => exact (different rfl).elim
      | dynamical =>
          rintro (closer | ⟨-, earlier⟩)
          · obtain dynamicalOut | notCloser := others
            · exact setup.not_covers_of_le aspect pointer _ dynamicalOut inside
            · exact (Binary.lt_iff_not_le.mp closer).1 notCloser
          · exact absurd earlier (by decide)
    · refine ⟨covered _ rfl, fun other different inside => ?_⟩
      cases other with
      | dynamical => exact (different rfl).elim
      | parameter =>
          rintro (closer | ⟨same, -⟩)
          · exact others (.inr (Binary.le_of_lt closer))
          · exact others (.inr (Binary.le_of_beq same))

/-- The distance from a finite center is undefined only if the pointer has no position. -/
theorem isNaN_distanceSq
    (horizontal : (setup.placement globe).discCenter.x.isFinite = true)
    (vertical : (setup.placement globe).discCenter.y.isFinite = true) :
    (setup.distanceSq aspect pointer globe).isNaN =
      ((pointer.x * aspect).isNaN || pointer.y.isNaN) := by
  rw [distanceSq, Placement.distanceSq, Binary.isNaN_add_squares, Binary.isNaN_sub horizontal,
    Binary.isNaN_sub vertical]

/-- Where the pointer is at no number every comparison fails and the later sphere is found. -/
theorem pick_of_isNaN
    (undefined : ∀ globe, (setup.distanceSq aspect pointer globe).isNaN = true) :
    setup.pick aspect pointer = some .dynamical := by
  rw [pick_eq, if_neg (Binary.not_le_of_isNaN (undefined .parameter)),
    if_neg]
  rintro (out | closer)
  · exact Binary.not_le_of_isNaN (undefined .dynamical) out
  · exact Binary.not_le_of_isNaN (undefined .dynamical) closer

/-- The pointer picks the nearest sphere whose disc contains it exactly if the distance and the
radius that admitted the sphere are numbers.  About finite discs this says that the pointer
has a position, that is, that neither of its coordinates is undefined once the first one is
measured in units of the second. -/
theorem pick_nearest_iff :
    (setup.IsNearest aspect pointer (setup.pick aspect pointer) ↔
      ∀ globe, setup.pick aspect pointer = some globe →
        (setup.distanceSq aspect pointer globe).isNaN = false ∧
          (setup.radiusSq globe).isNaN = false) ∧
    ((∀ globe, (setup.placement globe).discCenter.x.isFinite = true ∧
        (setup.placement globe).discCenter.y.isFinite = true ∧
          (setup.radiusSq globe).isNaN = false) →
      (setup.IsNearest aspect pointer (setup.pick aspect pointer) ↔
        (pointer.x * aspect).isNaN = false ∧ pointer.y.isNaN = false)) := by
  have first : setup.IsNearest aspect pointer (setup.pick aspect pointer) ↔
      ∀ globe, setup.pick aspect pointer = some globe →
        (setup.distanceSq aspect pointer globe).isNaN = false ∧
          (setup.radiusSq globe).isNaN = false := by
    rw [isNearest_pick_iff_covers]
    refine forall_congr' fun globe => forall_congr' fun found => ?_
    rw [covers_iff, and_iff_right (setup.not_le_of_pick aspect pointer globe found)]
  refine ⟨first, fun discs => ?_⟩
  have undefined : ∀ globe, (setup.distanceSq aspect pointer globe).isNaN =
      ((pointer.x * aspect).isNaN || pointer.y.isNaN) := fun globe =>
    setup.isNaN_distanceSq aspect pointer globe (discs globe).1 (discs globe).2.1
  rw [← Bool.or_eq_false_iff, first]
  constructor
  · intro numbers
    rw [← undefined .dynamical]
    by_contra nowhere
    have found := setup.pick_of_isNaN aspect pointer fun globe => by
      rw [undefined globe, ← undefined .dynamical]
      exact Bool.eq_true_of_not_eq_false nowhere
    exact nowhere (numbers _ found).1
  · intro position globe _
    exact ⟨(undefined globe).trans position, (discs globe).2.2⟩

/-- A pointer in both discs of the standard setup picks the dynamical sphere, whose center is
closer. -/
theorem pick_nearest_iff_overlap :
    let setup : SceneSetup Float := standard
    let pointer : Vec2 Float := ⟨0.6, -0.4⟩
    (∀ globe, (setup.placement globe).discCenter.x.isFinite = true ∧
        (setup.placement globe).discCenter.y.isFinite = true ∧
          (setup.radiusSq globe).isNaN = false) ∧
    (∀ globe, setup.Covers 1 pointer globe) ∧
    setup.pick 1 pointer = some .dynamical ∧
    setup.IsNearest 1 pointer (some .dynamical) := by
  intro setup pointer
  have discs : ∀ globe, (setup.placement globe).discCenter.x.isFinite = true ∧
      (setup.placement globe).discCenter.y.isFinite = true ∧
        (setup.radiusSq globe).isNaN = false := by
    rintro (_ | _) <;> decide +kernel
  have inside : ∀ globe, setup.distanceSq 1 pointer globe < setup.radiusSq globe := by
    rintro (_ | _) <;> decide +kernel
  have found : setup.pick 1 pointer = some .dynamical := by decide +kernel
  have position : (pointer.x * 1).isNaN = false ∧ pointer.y.isNaN = false := by decide +kernel
  have nearest := ((pick_nearest_iff setup 1 pointer).2 discs).mpr position
  exact ⟨discs, inside, found, found ▸ nearest⟩

/-- On a canvas without extent a pointer has no position, is in no disc and picks a sphere. -/
theorem pick_without_position :
    let setup : SceneSetup Float := standard
    let pointer := Canvas.toClip (⟨0, 0, 0, 0⟩ : Canvas Float) ⟨0, 0⟩
    setup.pick 1 pointer = some .dynamical ∧
      ¬setup.IsNearest 1 pointer (setup.pick 1 pointer) := by
  intro setup pointer
  have found : setup.pick 1 pointer = some .dynamical := by decide +kernel
  have outside : ¬setup.distanceSq 1 pointer .dynamical < setup.radiusSq .dynamical := by
    decide +kernel
  rw [found]
  exact ⟨rfl, fun nearest => outside nearest.1⟩

end Order

end SceneSetup

end Stereograph
