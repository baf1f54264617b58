import Stereograph.Proofs.Decimal.Single
import Stereograph.Proofs.Scene.Stretch
import Stereograph.Proofs.Sphere.Nearness

/-!
# The matrix that a renderer gets

What a sphere shows is uploaded in single precision.  The renderer needs finite entries of
an invertible matrix.  A transform of determinant one whose entries are not too large stays
invertible when its entries are stored and rounded, and how large they are is a question of
how far the wheel has stretched the sphere.  One step of the wheel is enough to stretch it
too far.
-/

namespace Stereograph

open Decimal

/-! ## Usable columns -/

/-- The real number of a number of single precision, and zero where there is none. -/
noncomputable def realOfSingle (number : Float32) : ℝ :=
  ((singleValue? number).getD 0 : ℚ)

/-- Whether a renderer can use some columns: every entry is finite, and the matrix that they
form has an inverse. -/
def Usable (columns : List Float32) : Prop :=
  (∀ entry ∈ columns, entry.isFinite = true) ∧
    ∃ matrix inverse : Matrix4 ℝ, matrix.transpose.toList = columns.map realOfSingle ∧
      matrix.multiply inverse = .identity ∧ inverse.multiply matrix = .identity

/-- Whether a matrix is stored in finite numbers that are off by an amount at most. -/
def Matrix4.StoredWithin (amount : ℝ) (stored : Matrix4 Float) (exact : Matrix4 ℝ) : Prop :=
  List.Forall₂ (fun entry number => entry.isFinite = true ∧ |realOfFloat entry - number| ≤ amount)
    stored.toList exact.toList

namespace Matrix4

variable {α β : Type}

theorem mem_toList_transpose {matrix : Matrix4 α} {entry : α} :
    entry ∈ matrix.transpose.toList ↔ entry ∈ matrix.toList := by
  simp only [transpose, toList, Vec4.toList, List.mem_append, List.mem_cons, List.not_mem_nil,
    or_false]
  grind

theorem toList_map (image : α → β) (matrix : Matrix4 α) :
    (matrix.map image).toList = matrix.toList.map image :=
  rfl

theorem toList_transpose_map (image : α → β) (matrix : Matrix4 α) :
    (matrix.map image).transpose.toList = matrix.transpose.toList.map image :=
  rfl

theorem sq_le_sumSq {matrix : Matrix4 ℝ} {number : ℝ} (member : number ∈ matrix.toList) :
    number ^ 2 ≤ sumSq matrix.toMatrix := by
  rw [sumSq_toMatrix]
  apply List.single_le_sum
  · intro square present
    obtain ⟨entry, -, rfl⟩ := List.mem_map.mp present
    exact sq_nonneg entry
  · exact List.mem_map_of_mem member

end Matrix4

/-! ## Rounding of entries -/

theorem Decimal.Binary.withSign_magnitude (number : Binary) :
    withSign number.sign number.magnitude = number.value := by
  rw [Binary.value, Binary.sign]
  cases number.negative <;> rfl

/-- Single precision stores every moderate number with a small error. -/
theorem realOfSingle_toSingle {value : Float} (finite : value.isFinite = true)
    (small : |realOfFloat value| < 2 ^ (127 : Int)) :
    (toSingle value).isFinite = true ∧
      |realOfSingle (toSingle value) - realOfFloat value| ≤
        2 ^ (-24 : Int) * |realOfFloat value| + 2 ^ (-150 : Int) := by
  obtain ⟨number, found⟩ := Binary.isFinite_iff.mp finite
  have exact : realOfFloat value = (number.value : ℚ) := by
    rw [realOfFloat, found]
  have magnitude_lt : number.magnitude < 2 ^ (127 : Int) := by
    rw [exact, ← Rat.cast_abs, Binary.abs_value] at small
    exact_mod_cast small
  obtain ⟨stored, single, near⟩ := Binary.exists_singleValue?_toSingle found magnitude_lt
  refine ⟨isFinite_of_singleValue? single, ?_⟩
  rw [Binary.withSign_magnitude, ← Binary.abs_value, mul_comm] at near
  have cast := (Rat.cast_le (K := ℝ)).mpr near
  push_cast at cast
  rwa [realOfSingle, single, Option.getD_some, exact]

/-- What a drift and the rounding to single precision add up to. -/
theorem realOfSingle_toSingle_of_near {value : Float} {number : ℝ}
    (finite : value.isFinite = true) (near : |realOfFloat value - number| ≤ 2 ^ (-16 : Int))
    (small : |number| ≤ 2 ^ (12 : Int)) :
    (toSingle value).isFinite = true ∧
      |realOfSingle (toSingle value) - number| ≤
        2 ^ (-24 : Int) * |number| + 2 ^ (-15 : Int) := by
  have close : |realOfFloat value| ≤ |number| + 2 ^ (-16 : Int) := by
    have split := abs_add_le (realOfFloat value - number) number
    rw [sub_add_cancel] at split
    linarith
  have moderate : |realOfFloat value| < 2 ^ (127 : Int) := by
    norm_num at close small ⊢
    linarith
  obtain ⟨stored, rounded⟩ := realOfSingle_toSingle finite moderate
  refine ⟨stored, ?_⟩
  have through := abs_sub_le (realOfSingle (toSingle value)) (realOfFloat value) number
  norm_num at close rounded near through ⊢
  linarith

/-! ## Transforms of moderate energy -/

/-- A transform of determinant one is usable if its energy is moderate. -/
theorem Mobius.IsUnimodular.usable_columnMajor {transform : Mobius ℝ}
    (unimodular : transform.IsUnimodular) (moderate : energy transform.toMatrix ≤ 2 ^ 22)
    {stored : Matrix4 Float} (near : stored.StoredWithin (2 ^ (-16 : Int)) transform.matrix) :
    Usable stored.columnMajor := by
  have squares : sumSq transform.matrix.toMatrix = 2 * energy transform.toMatrix := by
    have blocks := Mobius.sumSq_ofBlocks transform.blocks
    rwa [unimodular.isComplex] at blocks
  let single := stored.map fun entry => realOfSingle (toSingle entry)
  have entries : List.Forall₂ (fun entry number => (toSingle entry).isFinite = true ∧
      |realOfSingle (toSingle entry) - number| ≤ 2 ^ (-24 : Int) * |number| + 2 ^ (-15 : Int))
      stored.toList transform.matrix.toList := by
    obtain ⟨sameLength, pairs⟩ := List.forall₂_iff_zip.mp near
    refine List.forall₂_iff_zip.mpr ⟨sameLength, ?_⟩
    intro entry number member
    obtain ⟨finite, close⟩ := pairs member
    have bounded := Matrix4.sq_le_sumSq (List.of_mem_zip member).2
    have small : |number| ≤ 2 ^ (12 : Int) := by
      apply abs_le_of_sq_le_sq _ (by positivity)
      norm_num
      linarith
    exact realOfSingle_toSingle_of_near finite close small
  obtain ⟨finite, rounded⟩ := (List.forall₂_and_left _ _).mp entries
  have error : sumSq (single.toMatrix - transform.matrix.toMatrix) ≤
      2 ^ (-24 : Int) + 2 ^ (-25 : Int) := by
    have bound := sum_sq_sub_le (List.forall₂_map_left_iff.mpr rounded)
    rw [Matrix4.sumSq_sub, Matrix4.toList_map]
    rw [← Matrix4.sumSq_toMatrix, squares] at bound
    have length : transform.matrix.toList.length = 16 := rfl
    rw [length] at bound
    norm_num at bound ⊢
    linarith
  have nonsingular : single.determinant ≠ 0 := by
    apply unimodular.determinant_ne_zero_of_near
    have error_nonneg := sumSq_nonneg (single.toMatrix - transform.matrix.toMatrix)
    calc
      2 * energy transform.toMatrix * sumSq (single.toMatrix - transform.matrix.toMatrix) ≤
          2 * 2 ^ 22 * (2 ^ (-24 : Int) + 2 ^ (-25 : Int)) := by gcongr
      _ < 1 := by norm_num
  obtain ⟨inverse, -, right, left⟩ := Matrix4.exists_inverse? nonsingular
  refine ⟨?_, single, inverse, ?_, right, left⟩
  · intro entry member
    obtain ⟨value, present, rfl⟩ := List.mem_map.mp member
    exact finite value (Matrix4.mem_toList_transpose.mp present)
  · rw [Matrix4.toList_transpose_map, Matrix4.columnMajor, List.map_map]
    rfl

namespace Scene

/-- As long as the wheel has not stretched a sphere too far since it was last reset, its
matrix is usable, for all gestures that take nothing over and in any number.  The entries may
be stored with a drift. -/
theorem upload_usable_of_stretch_le (setup : SceneSetup ℝ) {gestures : List (Gesture ℝ)}
    (live : ∀ snapshot, .restore snapshot ∉ gestures) (globe : Globe)
    (bounded : Gesture.totalStretch setup globe gestures ≤ 2 ^ 20) {stored : Matrix4 Float}
    (near : stored.StoredWithin (2 ^ (-16 : Int))
      (((start setup).replay gestures).navigation globe).mobius.matrix) :
    Usable stored.columnMajor := by
  have stretched := Stretched.replay setup globe live
  apply (stretched.reachable.isUnimodular globe).usable_columnMajor _ near
  have exponent : 0 ≤ Mobius.growthExponent := by norm_num [Mobius.growthExponent]
  have power : ((2 : ℝ) ^ 20) ^ Mobius.growthExponent = 2 ^ 21 := by
    rw [← Real.rpow_natCast, ← Real.rpow_natCast, ← Real.rpow_mul zero_le_two]
    norm_num [Mobius.growthExponent]
  calc
    energy (((start setup).replay gestures).navigation globe).mobius.toMatrix ≤
        2 * Gesture.totalStretch setup globe gestures ^ Mobius.growthExponent :=
      stretched.energy_le
    _ ≤ 2 * (2 ^ 20) ^ Mobius.growthExponent := by
      have nonneg := zero_le_one.trans stretched.one_le
      have grown := Real.rpow_le_rpow nonneg bounded exponent
      linarith
    _ = 2 ^ 22 := by
      rw [power]
      norm_num

/-- One step of the wheel over a fresh sphere stretches it by four. -/
theorem upload_usable_of_stretch_le_wheel :
    let gestures : List (Gesture ℝ) := [.wheel ⟨0, 0⟩ 3000]
    let stored : Matrix4 Float :=
      ⟨⟨2, 0, 0, 0⟩, ⟨0, 2, 0, 0⟩, ⟨0, 0, 0.5, 0⟩, ⟨0, 0, 0, 0.5⟩⟩
    (∀ snapshot, .restore snapshot ∉ gestures) ∧
      Gesture.totalStretch .standard .parameter gestures ≤ 2 ^ 20 ∧
      stored.StoredWithin (2 ^ (-16 : Int))
        (((start .standard).replay gestures).navigation .parameter).mobius.matrix ∧
      Usable stored.columnMajor := by
  intro gestures stored
  have live : ∀ snapshot, .restore snapshot ∉ gestures := by
    simp [gestures]
  have scale : (SceneSetup.standard : SceneSetup ℝ).wheelScale 3000 = 4 := by
    norm_num [SceneSetup.wheelScale, SceneSetup.standard, Scalar.maximum]
  have bounded : Gesture.totalStretch .standard .parameter gestures ≤ 2 ^ 20 := by
    simp only [Gesture.totalStretch, gestures, List.foldl_cons, List.foldl_nil, Gesture.stretch]
    norm_num [scale, gain]
  have exact : (((start .standard).replay gestures).navigation .parameter).mobius.matrix =
      ⟨⟨2, 0, 0, 0⟩, ⟨0, 2, 0, 0⟩, ⟨0, 0, 2⁻¹, 0⟩, ⟨0, 0, 0, 2⁻¹⟩⟩ := by
    have root : √(4 : ℝ) = 2 := by
      rw [Real.sqrt_eq_iff_mul_self_eq_of_pos two_pos]
      norm_num
    have notOne : ((SceneSetup.standard : SceneSetup ℝ).wheelScale 3000 == 1) = false := by
      norm_num [scale, beq_real]
    have zoomed := Navigation.zoom_start
      (SceneSetup.standard : SceneSetup ℝ).parameter.model (by norm_num : (0 : ℝ) < 4)
    rw [← scale] at zoomed
    rw [replay, List.foldl_cons, List.foldl_nil,
      navigation_perform_wheel pick_standard_middle notOne zoomed, scale, root]
    simp [Mobius.ofBlocks, Blocks.realRows, ComplexNumber.real, ComplexNumber.zero]
  have near : stored.StoredWithin (2 ^ (-16 : Int))
      (((start .standard).replay gestures).navigation .parameter).mobius.matrix := by
    have zero : Binary.ofFloat? 0 = some ⟨false, 0, -1074⟩ := by decide +kernel
    have two : Binary.ofFloat? 2 = some ⟨false, 2 ^ 52, -51⟩ := by decide +kernel
    have half : Binary.ofFloat? 0.5 = some ⟨false, 2 ^ 52, -53⟩ := by decide +kernel
    have finite : ∀ entry ∈ stored.toList, entry.isFinite = true := by decide +kernel
    rw [exact]
    apply (List.forall₂_and_left _ _).mpr ⟨finite, _⟩
    norm_num [Matrix4.toList, Vec4.toList, stored, realOfFloat, zero, two, half, Binary.value,
      Binary.magnitude]
  exact ⟨live, bounded, near, upload_usable_of_stretch_le .standard live .parameter bounded near⟩

end Scene

/-! ## A step that is too large -/

/-- A transform whose determinant overflows is kept as it is. -/
theorem Mobius.normalized_eq_self_of_overflow {transform : Mobius Float}
    (overflow : (Scalar.sqrt transform.determinant.norm).isFinite = false) :
    transform.normalized = transform := by
  have part : Scalar.isFinite transform.determinant.sqrt.re = false :=
    Binary.not_isFinite_mul overflow _
  have root : transform.determinant.sqrt.isFinite = false := by
    rw [ComplexNumber.isFinite, part, Bool.false_and]
  rw [normalized, root]
  rfl

/-- One step of the wheel by a large finite number leaves a matrix whose entries are out of
the range of single precision. -/
theorem Scene.upload_overflows :
    let gestures : List (Gesture Float) := [.wheel ⟨0, 0⟩ 1e200]
    let navigation := ((start .standard).replay gestures).navigation .parameter
    Float.isFinite 0 = true ∧ Float.isFinite 1e200 = true ∧
      ¬ Usable navigation.mobius.matrix.columnMajor := by
  intro gestures navigation
  let setup : SceneSetup Float := .standard
  let fresh : Navigation Float := .start setup.parameter.model
  let scale := setup.wheelScale 1e200
  let increment : Mobius Float := .ofBlocks ⟨⟨scale, 0⟩, ⟨0, -0⟩, ⟨0, 0⟩, ⟨1, 0⟩⟩
  let composed := fresh.mobius.compose increment
  have inside : (start setup).pick ⟨0, 0⟩ = some .parameter := by decide +kernel
  have notOne : (scale == 1) = false := by decide +kernel
  have defined : Mobius.zoom fresh.nearPole fresh.farPole scale = .ok increment := by
    decide +kernel
  have overflow : (Scalar.sqrt composed.determinant.norm).isFinite = false := by decide +kernel
  have kept := Mobius.normalized_eq_self_of_overflow overflow
  have zoomed : fresh.zoom scale = .ok { fresh with mobius := composed } := by
    rw [Navigation.zoom_eq_ok_iff]
    exact ⟨increment, defined, by rw [kept]⟩
  have uploaded : navigation.mobius = composed := by
    have performed := navigation_perform_wheel inside notOne zoomed
    exact congrArg Navigation.mobius performed
  have unlimited : (composed.matrix.columnMajor.all fun entry => entry.isFinite) = false := by
    decide +kernel
  refine ⟨by decide +kernel, by decide +kernel, ?_⟩
  rintro ⟨finite, -⟩
  rw [List.all_eq_false] at unlimited
  obtain ⟨entry, member, infinite⟩ := unlimited
  rw [uploaded] at finite
  exact infinite (finite entry member)

end Stereograph
