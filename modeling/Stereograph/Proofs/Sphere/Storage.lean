import Mathlib.Data.List.Forall2
import Stereograph.Proofs.Json.Record
import Stereograph.Proofs.Json.Written
import Stereograph.Sphere.Storage

/-!
# Stored matrices

A matrix is stored with all its entries and nothing else.  What a matrix is read from says each
of its entries by a literal, and a written matrix is read back entry by entry.
-/

namespace Stereograph

/-! ## What matrices are read from -/

namespace Json

/-- Whether a stored value is a literal of a number. -/
def ShowsNumber (json : Json) (number : Float) : Prop :=
  ∃ literal, json = .number literal ∧ Numeral.float? literal = some number

/-- Whether a stored value is an array of what shows four components. -/
def ShowsFour {α : Type} (shows : Json → α → Prop) (json : Json) (vector : Vec4 α) : Prop :=
  ∃ items, json = .array items ∧ List.Forall₂ shows items vector.toList

/-- Whether a stored value shows a matrix, row by row. -/
def ShowsMatrix (json : Json) (matrix : Matrix4 Float) : Prop :=
  ∃ rows, HasFields ["data"] json [rows] ∧ ShowsFour (ShowsFour ShowsNumber) rows matrix.rows

/-- Whether a stored value shows a transform by its matrix. -/
def ShowsMobius (json : Json) (transform : Mobius Float) : Prop :=
  ∃ matrix, HasFields ["matrix"] json [matrix] ∧ ShowsMatrix matrix transform.matrix

end Json

namespace Stored

open Json

variable {json : Json}

theorem ofJson?_number_iff {number : Float} :
    ofJson? json = some number ↔ ShowsNumber json number := by
  cases json <;> simp [ofJson?, ShowsNumber]

section Four

variable {α : Type} [Stored α] {shows : Json → α → Prop}
  (reads : ∀ {json : Json} {value : α}, ofJson? json = some value ↔ shows json value)

include reads

theorem ofJson?_four_iff {vector : Vec4 α} :
    ofJson? json = some vector ↔ ShowsFour shows json vector := by
  constructor
  · intro read
    simp only [ofJson?] at read
    split at read
    next first second third fourth =>
      obtain ⟨x, firstRead, rest⟩ := Option.bind_eq_some_iff.mp read
      obtain ⟨y, secondRead, rest⟩ := Option.bind_eq_some_iff.mp rest
      obtain ⟨z, thirdRead, rest⟩ := Option.bind_eq_some_iff.mp rest
      obtain ⟨w, fourthRead, built⟩ := Option.bind_eq_some_iff.mp rest
      cases built
      exact ⟨_, rfl, .cons (reads.mp firstRead) (.cons (reads.mp secondRead)
        (.cons (reads.mp thirdRead) (.cons (reads.mp fourthRead) .nil)))⟩
    next => cases read
  · rintro ⟨items, rfl, _ | ⟨first, _ | ⟨second, _ | ⟨third, _ | ⟨fourth, _ | _⟩⟩⟩⟩⟩
    simp [ofJson?, reads.mpr first, reads.mpr second, reads.mpr third, reads.mpr fourth]

end Four

theorem ofJson?_matrix_iff {matrix : Matrix4 Float} :
    ofJson? json = some matrix ↔ ShowsMatrix json matrix := by
  have reads : ∀ {json : Json} {rows : Vec4 (Vec4 Float)},
      ofJson? json = some rows ↔ ShowsFour (ShowsFour ShowsNumber) json rows :=
    ofJson?_four_iff (ofJson?_four_iff ofJson?_number_iff)
  constructor
  · intro read
    obtain ⟨data, rows, has, rowsRead, rfl⟩ := record₁?_eq_some_iff.mp read
    exact ⟨data, has, reads.mp rowsRead⟩
  · rintro ⟨data, has, rowsShown⟩
    exact record₁?_eq_some_iff.mpr ⟨data, matrix.rows, has, reads.mpr rowsShown, rfl⟩

theorem ofJson?_mobius_iff {transform : Mobius Float} :
    ofJson? json = some transform ↔ ShowsMobius json transform := by
  constructor
  · intro read
    obtain ⟨data, matrix, has, matrixRead, rfl⟩ := record₁?_eq_some_iff.mp read
    exact ⟨data, has, ofJson?_matrix_iff.mp matrixRead⟩
  · rintro ⟨data, has, matrixShown⟩
    exact record₁?_eq_some_iff.mpr
      ⟨data, transform.matrix, has, ofJson?_matrix_iff.mpr matrixShown, rfl⟩

/-! ## Matrices read back -/

/-- An array of four is read back component by component. -/
theorem reread?_four_iff {α : Type} [Stored α] {vector other : Vec4 α} :
    reread? vector = some other ↔
      List.Forall₂ (fun before after => reread? before = some after)
        vector.toList other.toList := by
  rw [reread?, ofJson?_four_iff Iff.rfl]
  constructor
  · rintro ⟨items, written, each⟩
    cases written
    exact List.forall₂_map_left_iff.mp each
  · intro each
    exact ⟨_, rfl, List.forall₂_map_left_iff.mpr each⟩

/-- A matrix is read back entry by entry. -/
theorem reread?_matrix_iff {α : Type} [Stored α] {matrix other : Matrix4 α} :
    reread? matrix = some other ↔
      List.Forall₂ (fun before after => reread? before = some after)
        matrix.toList other.toList := by
  have record : reread? matrix = (reread? matrix.rows).map Matrix4.ofRows :=
    record₁?_member "data" Matrix4.ofRows matrix.rows
  have rows : reread? matrix = some other ↔ reread? matrix.rows = some other.rows := by
    rw [record, Option.map_eq_some_iff]
    constructor
    · rintro ⟨rows, read, rfl⟩
      exact read
    · intro read
      exact ⟨other.rows, read, rfl⟩
  rw [rows, reread?_four_iff]
  simp [reread?_four_iff, Matrix4.rows, Matrix4.toList, Vec4.toList, and_assoc]

theorem reread?_mobius_iff {α : Type} [Stored α] {transform other : Mobius α} :
    reread? transform = some other ↔ reread? transform.matrix = some other.matrix := by
  have record : reread? transform = (reread? transform.matrix).map Mobius.mk :=
    record₁?_member "matrix" Mobius.mk transform.matrix
  rw [record, Option.map_eq_some_iff]
  constructor
  · rintro ⟨matrix, read, rfl⟩
    exact read
  · intro read
    exact ⟨other.matrix, read, rfl⟩

/-- Only a finite number is read back as a number. -/
theorem isFinite_of_reread? {value other : Float} (read : reread? value = some other) :
    value.isFinite = true := by
  by_contra infinite
  rw [reread?, toJson_of_not_isFinite (Bool.eq_false_of_not_eq_true infinite)] at read
  cases read

/-- Only a matrix of finite entries is read back as a matrix. -/
theorem isFinite_of_reread?_matrix {matrix other : Matrix4 Float}
    (read : reread? matrix = some other) : ∀ entry ∈ matrix.toList, entry.isFinite = true := by
  have each := (reread?_matrix_iff.mp read).imp fun _ _ same =>
    And.intro (isFinite_of_reread? same) same
  exact ((List.forall₂_and_left _ _).mp each).1

/-! ## Literals of matrices -/

theorem hasLiterals_four {α : Type} [Stored α] (each : ∀ value : α, (toJson value).HasLiterals)
    (vector : Vec4 α) : (toJson vector).HasLiterals :=
  ⟨each vector.x, each vector.y, each vector.z, each vector.w, trivial⟩

theorem hasLiterals_matrix (matrix : Matrix4 Float) : (toJson matrix).HasLiterals := by
  refine hasLiterals_ofMembers (List.forall_mem_singleton.mpr ?_)
  exact hasLiterals_four (hasLiterals_four hasLiterals_float) matrix.rows

theorem hasLiterals_mobius (transform : Mobius Float) : (toJson transform).HasLiterals :=
  hasLiterals_ofMembers (List.forall_mem_singleton.mpr (hasLiterals_matrix transform.matrix))

end Stored

end Stereograph
