import Stereograph.Proofs.Scene.History
import Stereograph.Proofs.Sphere.Storage
import Stereograph.Session

/-!
# Saved navigation

A snapshot is written with all entries of its eight matrices.  If each of them is read back as
itself, the text restores the navigation of both spheres as it was, and if one of them is not
finite, the text restores nothing.  A text that is no snapshot of the present version leaves a
session as it is.
-/

namespace Stereograph

/-! ## Entries of a snapshot -/

/-- The matrices that hold the navigation of a sphere. -/
def Navigation.matrices {α : Type} (navigation : Navigation α) : List (Matrix4 α) :=
  [navigation.mobius.matrix, navigation.rotation, navigation.inverseRotation, navigation.model]

/-- The entries of the matrices that hold the navigation of both spheres. -/
def Snapshot.entries {α : Type} (snapshot : Snapshot α) : List α :=
  (snapshot.parameter.matrices ++ snapshot.dynamical.matrices).flatMap Matrix4.toList

/-! ## What snapshots are read from -/

namespace Json

/-- Whether a stored value shows the navigation of a sphere. -/
def ShowsNavigation (json : Json) (navigation : Navigation Float) : Prop :=
  ∃ mobius rotation inverseRotation model,
    HasFields ["mobius", "rotation", "inverse_rotation", "model"] json
        [mobius, rotation, inverseRotation, model] ∧
      ShowsMobius mobius navigation.mobius ∧ ShowsMatrix rotation navigation.rotation ∧
      ShowsMatrix inverseRotation navigation.inverseRotation ∧
      ShowsMatrix model navigation.model

/-- Whether a stored value is the literal of a word. -/
def ShowsWord (json : Json) (word : UInt32) : Prop :=
  ∃ literal, json = .number literal ∧ Numeral.word? literal = some word

/-- Whether a stored value shows the navigation of both spheres and a version. -/
def ShowsSnapshot (json : Json) (snapshot : Snapshot Float) : Prop :=
  ∃ parameter dynamical version,
    HasFields ["parameter", "dynamical", "version"] json [parameter, dynamical, version] ∧
      ShowsNavigation parameter snapshot.parameter ∧
      ShowsNavigation dynamical snapshot.dynamical ∧ ShowsWord version snapshot.version

end Json

/-- Whether a text is a snapshot of the first version. -/
def Snapshot.IsTold (text : String) (snapshot : Snapshot Float) : Prop :=
  ∃ json, Json.read? text = some json ∧ json.ShowsSnapshot snapshot ∧ snapshot.version = 1

namespace Stored

open Json

variable {json : Json}

theorem ofJson?_navigation_iff {navigation : Navigation Float} :
    ofJson? json = some navigation ↔ ShowsNavigation json navigation := by
  constructor
  · intro read
    obtain ⟨first, second, third, fourth, mobius, rotation, inverseRotation, model, has,
      mobiusRead, rotationRead, inverseRead, modelRead, rfl⟩ := record₄?_eq_some_iff.mp read
    exact ⟨first, second, third, fourth, has, ofJson?_mobius_iff.mp mobiusRead,
      ofJson?_matrix_iff.mp rotationRead, ofJson?_matrix_iff.mp inverseRead,
      ofJson?_matrix_iff.mp modelRead⟩
  · rintro ⟨first, second, third, fourth, has, mobius, rotation, inverseRotation, model⟩
    exact record₄?_eq_some_iff.mpr ⟨first, second, third, fourth, _, _, _, _, has,
      ofJson?_mobius_iff.mpr mobius, ofJson?_matrix_iff.mpr rotation,
      ofJson?_matrix_iff.mpr inverseRotation, ofJson?_matrix_iff.mpr model, rfl⟩

theorem ofJson?_word_iff {word : UInt32} : ofJson? json = some word ↔ ShowsWord json word := by
  cases json <;> simp [ofJson?, ShowsWord]

theorem ofJson?_snapshot_iff {snapshot : Snapshot Float} :
    ofJson? json = some snapshot ↔ ShowsSnapshot json snapshot := by
  constructor
  · intro read
    obtain ⟨first, second, third, parameter, dynamical, version, has, parameterRead,
      dynamicalRead, versionRead, rfl⟩ := record₃?_eq_some_iff.mp read
    exact ⟨first, second, third, has, ofJson?_navigation_iff.mp parameterRead,
      ofJson?_navigation_iff.mp dynamicalRead, ofJson?_word_iff.mp versionRead⟩
  · rintro ⟨first, second, third, has, parameter, dynamical, version⟩
    exact record₃?_eq_some_iff.mpr ⟨first, second, third, _, _, _, has,
      ofJson?_navigation_iff.mpr parameter, ofJson?_navigation_iff.mpr dynamical,
      ofJson?_word_iff.mpr version, rfl⟩

end Stored

namespace Snapshot

variable {text : String} {snapshot : Snapshot Float}

/-- A text is read as a snapshot exactly when it is one of the first version. -/
theorem read?_eq_some_iff : Snapshot.read? text = some snapshot ↔ snapshot.IsTold text := by
  constructor
  · intro read
    obtain ⟨stored, storedRead, rest⟩ := Option.bind_eq_some_iff.mp read
    obtain ⟨json, jsonRead, accepted⟩ := Option.bind_eq_some_iff.mp storedRead
    split at rest
    next version =>
      cases rest
      exact ⟨json, jsonRead, Stored.ofJson?_snapshot_iff.mp accepted, version⟩
    next => cases rest
  · rintro ⟨json, jsonRead, shown, version⟩
    have accepted := Stored.ofJson?_snapshot_iff.mpr shown
    simp [Snapshot.read?, Stored.read?, jsonRead, accepted, version, format]

/-- A text is read as no snapshot exactly when it is none of the first version. -/
theorem read?_eq_none_iff :
    (Snapshot.read? text : Option (Snapshot Float)) = none ↔
      ∀ snapshot : Snapshot Float, ¬ snapshot.IsTold text := by
  simp [Option.eq_none_iff_forall_ne_some, read?_eq_some_iff]

end Snapshot

/-! ## Snapshots read back -/

namespace Stored

open Json

/-- The navigation of a sphere is read back matrix by matrix. -/
theorem reread?_navigation_iff {navigation other : Navigation Float} :
    reread? navigation = some other ↔
      List.Forall₂ (fun before after => reread? before = some after)
        navigation.matrices other.matrices := by
  have distinct : ["mobius", "rotation", "inverse_rotation", "model"].Nodup := by decide
  have record : reread? navigation = (do
      some ⟨← reread? navigation.mobius, ← reread? navigation.rotation,
        ← reread? navigation.inverseRotation, ← reread? navigation.model⟩) :=
    record₄?_members distinct Navigation.mk _ _ _ _
  rw [record]
  simp only [Option.bind_eq_bind, Option.bind_eq_some_iff, Option.some.injEq,
    Navigation.matrices, List.forall₂_cons, List.forall₂_nil_left_iff, and_true]
  constructor
  · rintro ⟨mobius, mobiusRead, rotation, rotationRead, inverse, inverseRead, model, modelRead,
      rfl⟩
    exact ⟨reread?_mobius_iff.mp mobiusRead, rotationRead, inverseRead, modelRead⟩
  · rintro ⟨mobius, rotation, inverse, model⟩
    exact ⟨_, reread?_mobius_iff.mpr mobius, _, rotation, _, inverse, _, model, rfl⟩

theorem hasLiterals_navigation (navigation : Navigation Float) :
    (toJson navigation).HasLiterals := by
  refine hasLiterals_ofMembers fun member listed => ?_
  simp only [List.mem_cons, List.not_mem_nil, or_false] at listed
  obtain rfl | rfl | rfl | rfl := listed
  · exact hasLiterals_mobius navigation.mobius
  · exact hasLiterals_matrix navigation.rotation
  · exact hasLiterals_matrix navigation.inverseRotation
  · exact hasLiterals_matrix navigation.model

theorem reread?_snapshot_iff {snapshot other : Snapshot Float} :
    reread? snapshot = some other ↔
      reread? snapshot.parameter = some other.parameter ∧
        reread? snapshot.dynamical = some other.dynamical ∧ snapshot.version = other.version := by
  have distinct : ["parameter", "dynamical", "version"].Nodup := by decide
  have record : reread? snapshot = (do
      some ⟨← reread? snapshot.parameter, ← reread? snapshot.dynamical,
        ← reread? snapshot.version⟩) :=
    record₃?_members distinct Snapshot.mk _ _ _
  have version : reread? snapshot.version = some snapshot.version :=
    (lasts_word snapshot.version).accepted
  rw [record, version]
  simp only [Option.bind_eq_bind, Option.bind_eq_some_iff, Option.bind_some, Option.some.injEq]
  constructor
  · rintro ⟨parameter, parameterRead, dynamical, dynamicalRead, rfl⟩
    exact ⟨parameterRead, dynamicalRead, rfl⟩
  · rintro ⟨parameter, dynamical, version⟩
    exact ⟨_, parameter, _, dynamical, by rw [version]⟩

theorem hasLiterals_snapshot (snapshot : Snapshot Float) : (toJson snapshot).HasLiterals := by
  refine hasLiterals_ofMembers fun member listed => ?_
  simp only [List.mem_cons, List.not_mem_nil, or_false] at listed
  obtain rfl | rfl | rfl := listed
  · exact hasLiterals_navigation snapshot.parameter
  · exact hasLiterals_navigation snapshot.dynamical
  · exact (lasts_word snapshot.version).literals

/-- A snapshot whose entries are read back as themselves is read back as itself. -/
theorem reread?_snapshot_eq_self {snapshot : Snapshot Float}
    (same : ∀ entry ∈ snapshot.entries, reread? entry = some entry) :
    reread? snapshot = some snapshot := by
  have each : ∀ matrix ∈ snapshot.parameter.matrices ++ snapshot.dynamical.matrices,
      reread? matrix = some matrix := by
    intro matrix listed
    refine reread?_matrix_iff.mpr (List.forall₂_same.mpr fun entry member => ?_)
    exact same entry (List.mem_flatMap.mpr ⟨matrix, listed, member⟩)
  obtain ⟨parameter, dynamical⟩ := List.forall_mem_append.mp each
  exact reread?_snapshot_iff.mpr
    ⟨reread?_navigation_iff.mpr (List.forall₂_same.mpr parameter),
      reread?_navigation_iff.mpr (List.forall₂_same.mpr dynamical), rfl⟩

theorem isFinite_of_reread?_navigation {navigation other : Navigation Float}
    (read : reread? navigation = some other) :
    ∀ matrix ∈ navigation.matrices, ∀ entry ∈ matrix.toList, entry.isFinite = true := by
  have each := (reread?_navigation_iff.mp read).imp fun _ _ same =>
    And.intro (isFinite_of_reread?_matrix same) same
  exact ((List.forall₂_and_left _ _).mp each).1

/-- Only a snapshot of finite entries is read back as a snapshot. -/
theorem isFinite_of_reread?_snapshot {snapshot other : Snapshot Float}
    (read : reread? snapshot = some other) :
    ∀ entry ∈ snapshot.entries, entry.isFinite = true := by
  obtain ⟨parameter, dynamical, -⟩ := reread?_snapshot_iff.mp read
  have each := List.forall_mem_append.mpr
    ⟨isFinite_of_reread?_navigation parameter, isFinite_of_reread?_navigation dynamical⟩
  intro entry listed
  obtain ⟨matrix, inside, member⟩ := List.mem_flatMap.mp listed
  exact each matrix inside entry member

end Stored

/-! ## Texts of snapshots -/

namespace Snapshot

variable {snapshot : Snapshot Float}

theorem read?_write_eq_some (present : snapshot.version = format)
    (same : ∀ entry ∈ snapshot.entries, Stored.reread? entry = some entry) :
    Snapshot.read? (Stored.write snapshot) = some snapshot := by
  rw [Snapshot.read?, Stored.read?_write (Stored.hasLiterals_snapshot snapshot),
    Stored.reread?_snapshot_eq_self same]
  exact if_pos present

theorem read?_write_eq_none {entry : Float} (listed : entry ∈ snapshot.entries)
    (infinite : entry.isFinite = false) :
    (Snapshot.read? (Stored.write snapshot) : Option (Snapshot Float)) = none := by
  have unread : Stored.reread? snapshot = none := by
    by_contra read
    obtain ⟨other, found⟩ := Option.ne_none_iff_exists'.mp read
    rw [Stored.isFinite_of_reread?_snapshot found entry listed] at infinite
    cases infinite
  rw [Snapshot.read?, Stored.read?_write (Stored.hasLiterals_snapshot snapshot), unread]
  rfl

end Snapshot

namespace Session

/-- Whether a session takes over what a text says, by what the text says. -/
theorem restoreText_eq_of_isTold (session : Session) {text : String} {snapshot : Snapshot Float}
    (told : snapshot.IsTold text) :
    session.restoreText text =
      (true, { session with scene := session.scene.restore snapshot }) := by
  rw [restoreText, Snapshot.read?_eq_some_iff.mpr told]

theorem restoreText_eq_self (session : Session) {text : String}
    (untold : ∀ snapshot : Snapshot Float, ¬ snapshot.IsTold text) :
    session.restoreText text = (false, session) := by
  rw [restoreText, Snapshot.read?_eq_none_iff.mpr untold]

end Session

/-- The text of a scene whose entries are finite and are read back as themselves restores the
navigation of both spheres in every scene and leaves everything else there.  The text of a
scene with an entry that is not finite is no snapshot.  A session takes over the navigation
that a snapshot of the first version says and leaves all other texts aside. -/
theorem Scene.restores_exactly_or_not_at_all :
    (∀ scene : Scene Float, (∀ entry ∈ scene.snapshot.entries, entry.isFinite = true) →
      (∀ entry ∈ scene.snapshot.entries,
        entry.isFinite = true → Stored.ofJson? (Stored.toJson entry) = some entry) →
      ∃ snapshot : Snapshot Float, Snapshot.read? (Stored.write scene.snapshot) = some snapshot ∧
        ∀ target : Scene Float,
          (target.restore snapshot).navigation = scene.navigation ∧
            (target.restore snapshot).pointer = target.pointer ∧
            (target.restore snapshot).aspect = target.aspect ∧
            (target.restore snapshot).projection = target.projection ∧
            (target.restore snapshot).setup = target.setup) ∧
    (∀ scene : Scene Float, (∃ entry ∈ scene.snapshot.entries, entry.isFinite = false) →
      (Snapshot.read? (Stored.write scene.snapshot) : Option (Snapshot Float)) = none) ∧
    ∀ (session : Session) (text : String),
      (∀ snapshot : Snapshot Float, snapshot.IsTold text →
        session.restoreText text =
          (true, { session with scene := session.scene.restore snapshot })) ∧
      ((∀ snapshot : Snapshot Float, ¬ snapshot.IsTold text) →
        session.restoreText text = (false, session)) := by
  refine ⟨?_, ?_, ?_⟩
  · intro scene finite same
    have each : ∀ entry ∈ scene.snapshot.entries, Stored.reread? entry = some entry :=
      fun entry listed => same entry listed (finite entry listed)
    refine ⟨scene.snapshot, Snapshot.read?_write_eq_some rfl each, fun target => ?_⟩
    exact ⟨navigation_restore_snapshot target scene, rfl, rfl, rfl, rfl⟩
  · rintro scene ⟨entry, listed, infinite⟩
    exact Snapshot.read?_write_eq_none listed infinite
  · intro session text
    exact ⟨fun snapshot told => session.restoreText_eq_of_isTold told,
      fun untold => session.restoreText_eq_self untold⟩

/-- The scene at its start restores itself, one with a sphere infinitely far away restores
nothing, and an empty text is no snapshot. -/
theorem Scene.restores_exactly_or_not_at_all_start :
    let scene : Scene Float := .start .standard
    let faraway : Scene Float :=
      { scene with parameter := .start (.translation ⟨1 / 0, 0, 0⟩) }
    (∃ snapshot : Snapshot Float, Snapshot.read? (Stored.write scene.snapshot) = some snapshot ∧
      (faraway.restore snapshot).navigation = scene.navigation ∧
      Session.start.restoreText (Stored.write scene.snapshot) =
        (true, { Session.start with scene := Session.start.scene.restore snapshot })) ∧
      (Snapshot.read? (Stored.write faraway.snapshot) : Option (Snapshot Float)) = none ∧
      Session.start.restoreText "" = (false, Session.start) := by
  intro scene faraway
  obtain ⟨exactly, nothing, restores⟩ := Scene.restores_exactly_or_not_at_all
  have few : ∀ entry ∈ scene.snapshot.entries,
      ∃ other ∈ [0, 1, -3.0, 2.2, -1.2, -6.0], entry = other := by
    decide +kernel
  have each : ∀ other ∈ [(0 : Float), 1, -3.0, 2.2, -1.2, -6.0],
      Stored.reread? other = some other := by
    decide +kernel
  have same : ∀ entry ∈ scene.snapshot.entries, Stored.reread? entry = some entry := by
    intro entry listed
    obtain ⟨other, known, rfl⟩ := few entry listed
    exact each entry known
  have infinite : ∃ entry ∈ faraway.snapshot.entries, entry.isFinite = false := by
    decide +kernel
  have untold : ∀ snapshot : Snapshot Float, ¬ snapshot.IsTold "" := by
    rintro snapshot ⟨json, read, -⟩
    cases read
  obtain ⟨snapshot, read, restored⟩ := exactly scene
    (fun entry listed => Stored.isFinite_of_reread? (same entry listed))
    (fun entry listed _ => same entry listed)
  have told := Snapshot.read?_eq_some_iff.mp read
  exact ⟨⟨snapshot, read, (restored faraway).1, (restores Session.start _).1 snapshot told⟩,
    nothing faraway infinite, (restores Session.start "").2 untold⟩

end Stereograph
