import Stereograph.Scene.Scene
import Stereograph.Sphere.Storage

/-!
# Stored scenes

A snapshot holds the navigation of both spheres and the version of its format.  A
text of another version is refused.
-/

namespace Stereograph

instance : Stored Globe where
  toJson
    | .parameter => .ofString "Parameter"
    | .dynamical => .ofString "Dynamical"
  ofJson? := Json.oneOf? [("Parameter", .parameter), ("Dynamical", .dynamical)]

/-- The sphere that a pointer holds may be left out. -/
instance {α : Type} [Stored α] : Stored (Pointer α) where
  toJson pointer :=
    .ofMembers
      [Json.member "position" pointer.position,
        Json.member "last_position" pointer.previousPosition,
        Json.member "is_down" pointer.isPressed, Json.member "captured" pointer.grabbed]
  ofJson? json := do
    match ← json.fields? ["position", "last_position", "is_down", "captured"] with
    | [position, last, down, grabbed] =>
        let grabbed ← match grabbed with
          | some grabbed => Stored.ofJson? grabbed
          | none => some none
        some ⟨← Json.required? position, ← Json.required? last, ← Json.required? down,
          grabbed⟩
    | _ => none

instance {α : Type} [Stored α] : Stored (Navigation α) where
  toJson navigation :=
    .ofMembers
      [Json.member "mobius" navigation.mobius, Json.member "rotation" navigation.rotation,
        Json.member "inverse_rotation" navigation.inverseRotation,
        Json.member "model" navigation.model]
  ofJson? :=
    Json.record₄? "mobius" "rotation" "inverse_rotation" "model" Navigation.mk

instance {α : Type} [Stored α] : Stored (Snapshot α) where
  toJson snapshot :=
    .ofMembers
      [Json.member "parameter" snapshot.parameter,
        Json.member "dynamical" snapshot.dynamical,
        Json.member "version" snapshot.version]
  ofJson? := Json.record₃? "parameter" "dynamical" "version" Snapshot.mk

/-- The snapshot that a text stores, if the text has the present version. -/
def Snapshot.read? {α : Type} [Stored α] (text : String) : Option (Snapshot α) := do
  let snapshot : Snapshot α ← Stored.read? text
  if snapshot.version = format then some snapshot else none

end Stereograph
