import Stereograph.Proofs.Json.Stored

/-!
# Records field by field

A stored value is a record if it gives each field one value, by position in an array or by name
in an object whose keys are all texts.  A record is read exactly when its fields are.
-/

namespace Stereograph

namespace Json

/-! ## Values of fields -/

/-- Whether a stored value gives each of some fields one value. -/
inductive HasFields (names : List String) : Json → List Json → Prop
  | array {items : List Json} (length : items.length = names.length) :
      HasFields names (.array items) items
  | object {members : List (Option String × Json)} {values : List Json}
      (texts : ∀ member ∈ members, member.1 ≠ none)
      (once : List.Forall₂ (fun name value => valuesOf name members = [value]) names values) :
      HasFields names (.object members) values

/-- What is looked up for every name is there for every name. -/
theorem mapM_eq_some_map_iff (lookup : String → Option (Option Json)) {names : List String}
    {values : List Json} :
    names.mapM lookup = some (values.map some) ↔
      List.Forall₂ (fun name value => lookup name = some (some value)) names values := by
  induction names generalizing values with
  | nil =>
      rw [List.mapM_nil, List.forall₂_nil_left_iff]
      cases values <;> simp
  | cons name names hypothesis =>
      rw [List.mapM_cons]
      constructor
      · intro found
        obtain ⟨first, firstFound, rest⟩ := Option.bind_eq_some_iff.mp found
        obtain ⟨others, othersFound, joined⟩ := Option.bind_eq_some_iff.mp rest
        cases values with
        | nil => cases joined
        | cons value values =>
            cases joined
            exact .cons firstFound (hypothesis.mp othersFound)
      · rintro (_ | ⟨firstFound, othersFound⟩)
        rw [firstFound, hypothesis.mpr othersFound]
        rfl

/-- One value lies under a name exactly when the field of that name is present. -/
theorem lookup_eq_some_iff {name : String} {members : List (Option String × Json)}
    {value : Json} :
    (match valuesOf name members with
      | [] => some none
      | [value] => some (some value)
      | _ => none) = some (some value) ↔ valuesOf name members = [value] := by
  split <;> simp_all

/-- The fields of a record are its values and no others. -/
theorem fields?_eq_some_map_iff {names : List String} {json : Json} {values : List Json} :
    json.fields? names = some (values.map some) ↔ HasFields names json values := by
  constructor
  · intro found
    unfold fields? at found
    split at found
    next items =>
      split at found
      next length =>
        rw [Option.some.injEq, List.map_inj_right fun _ _ => Option.some.inj] at found
        subst found
        exact .array length
      next => cases found
    next members =>
      split at found
      next => cases found
      next texts =>
        have once := (mapM_eq_some_map_iff _).mp found
        refine .object ?_ (once.imp fun name value => lookup_eq_some_iff.mp)
        intro member listed keyless
        exact texts (List.any_eq_true.mpr ⟨member, listed, Option.isNone_iff_eq_none.mpr keyless⟩)
    next => cases found
  · intro has
    cases has with
    | array length => simp [fields?, length]
    | object texts once =>
        rw [fields?, if_neg]
        · exact (mapM_eq_some_map_iff _).mpr (once.imp fun name value => lookup_eq_some_iff.mpr)
        · intro missing
          obtain ⟨member, listed, keyless⟩ := List.any_eq_true.mp missing
          exact texts member listed (Option.isNone_iff_eq_none.mp keyless)

/-! ## Reading -/

section Reading

variable {α β γ δ ε : Type} [Stored α] {json : Json} {name₁ name₂ name₃ name₄ : String}

theorem required?_eq_some_iff {field : Option Json} {value : α} :
    required? field = some value ↔
      ∃ json, field = some json ∧ Stored.ofJson? json = some value :=
  Option.bind_eq_some_iff

theorem record₁?_eq_some_iff {build : α → β} {record : β} :
    record₁? name₁ build json = some record ↔
      ∃ first value, HasFields [name₁] json [first] ∧ Stored.ofJson? first = some value ∧
        build value = record := by
  constructor
  · intro read
    obtain ⟨fields, found, rest⟩ := Option.bind_eq_some_iff.mp read
    split at rest
    next =>
      obtain ⟨value, present, built⟩ := Option.bind_eq_some_iff.mp rest
      obtain ⟨first, rfl, accepted⟩ := required?_eq_some_iff.mp present
      exact ⟨first, value, fields?_eq_some_map_iff.mp found, accepted, Option.some.inj built⟩
    next => cases rest
  · rintro ⟨first, value, has, accepted, rfl⟩
    rw [record₁?, fields?_eq_some_map_iff.mpr has]
    simp [required?, accepted]

theorem record₃?_eq_some_iff [Stored β] [Stored γ] {build : α → β → γ → δ} {record : δ} :
    record₃? name₁ name₂ name₃ build json = some record ↔
      ∃ first second third value₁ value₂ value₃,
        HasFields [name₁, name₂, name₃] json [first, second, third] ∧
          Stored.ofJson? first = some value₁ ∧ Stored.ofJson? second = some value₂ ∧
          Stored.ofJson? third = some value₃ ∧ build value₁ value₂ value₃ = record := by
  constructor
  · intro read
    obtain ⟨fields, found, rest⟩ := Option.bind_eq_some_iff.mp read
    split at rest
    next =>
      obtain ⟨value₁, present₁, rest⟩ := Option.bind_eq_some_iff.mp rest
      obtain ⟨value₂, present₂, rest⟩ := Option.bind_eq_some_iff.mp rest
      obtain ⟨value₃, present₃, built⟩ := Option.bind_eq_some_iff.mp rest
      obtain ⟨first, rfl, accepted₁⟩ := required?_eq_some_iff.mp present₁
      obtain ⟨second, rfl, accepted₂⟩ := required?_eq_some_iff.mp present₂
      obtain ⟨third, rfl, accepted₃⟩ := required?_eq_some_iff.mp present₃
      exact ⟨first, second, third, value₁, value₂, value₃, fields?_eq_some_map_iff.mp found,
        accepted₁, accepted₂, accepted₃, Option.some.inj built⟩
    next => cases rest
  · rintro ⟨first, second, third, value₁, value₂, value₃, has, accepted₁, accepted₂, accepted₃,
      rfl⟩
    rw [record₃?, fields?_eq_some_map_iff.mpr has]
    simp [required?, accepted₁, accepted₂, accepted₃]

theorem record₄?_eq_some_iff [Stored β] [Stored γ] [Stored δ] {build : α → β → γ → δ → ε}
    {record : ε} :
    record₄? name₁ name₂ name₃ name₄ build json = some record ↔
      ∃ first second third fourth value₁ value₂ value₃ value₄,
        HasFields [name₁, name₂, name₃, name₄] json [first, second, third, fourth] ∧
          Stored.ofJson? first = some value₁ ∧ Stored.ofJson? second = some value₂ ∧
          Stored.ofJson? third = some value₃ ∧ Stored.ofJson? fourth = some value₄ ∧
          build value₁ value₂ value₃ value₄ = record := by
  constructor
  · intro read
    obtain ⟨fields, found, rest⟩ := Option.bind_eq_some_iff.mp read
    split at rest
    next =>
      obtain ⟨value₁, present₁, rest⟩ := Option.bind_eq_some_iff.mp rest
      obtain ⟨value₂, present₂, rest⟩ := Option.bind_eq_some_iff.mp rest
      obtain ⟨value₃, present₃, rest⟩ := Option.bind_eq_some_iff.mp rest
      obtain ⟨value₄, present₄, built⟩ := Option.bind_eq_some_iff.mp rest
      obtain ⟨first, rfl, accepted₁⟩ := required?_eq_some_iff.mp present₁
      obtain ⟨second, rfl, accepted₂⟩ := required?_eq_some_iff.mp present₂
      obtain ⟨third, rfl, accepted₃⟩ := required?_eq_some_iff.mp present₃
      obtain ⟨fourth, rfl, accepted₄⟩ := required?_eq_some_iff.mp present₄
      exact ⟨first, second, third, fourth, value₁, value₂, value₃, value₄,
        fields?_eq_some_map_iff.mp found, accepted₁, accepted₂, accepted₃, accepted₄,
        Option.some.inj built⟩
    next => cases rest
  · rintro ⟨first, second, third, fourth, value₁, value₂, value₃, value₄, has, accepted₁,
      accepted₂, accepted₃, accepted₄, rfl⟩
    rw [record₄?, fields?_eq_some_map_iff.mpr has]
    simp [required?, accepted₁, accepted₂, accepted₃, accepted₄]

end Reading

end Json

end Stereograph
