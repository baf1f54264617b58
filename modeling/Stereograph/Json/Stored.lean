import Stereograph.Json.Text

/-!
# Values that can be stored

A type whose values can be stored says how a value is written and which stored
values it accepts.  A record is an object with its fields in order, and is also
accepted as an array of all of them.  An object may name its fields in any order
and hold other members, but it may not name a field twice.
-/

namespace Stereograph

/-- A type with a stored form. -/
class Stored (α : Type) where
  toJson : α → Json
  ofJson? : Json → Option α

namespace Stored

/-- The stored text of a value. -/
def write {α : Type} [Stored α] (value : α) : String :=
  (toJson value).write

/-- The value that a text stores. -/
def read? {α : Type} [Stored α] (text : String) : Option α :=
  (Json.read? text).bind ofJson?

end Stored

namespace Json

/-- The values that an object holds under a key. -/
def valuesOf (key : String) (members : List (Option String × Json)) : List Json :=
  (members.filter fun member => member.1 == some key).map Prod.snd

/-- The fields of a record by their names, in order.  A field that an object does
not name is absent. -/
def fields? (names : List String) : Json → Option (List (Option Json))
  | .array items =>
      if items.length = names.length then some (items.map some) else none
  | .object members =>
      if members.any fun member => member.1.isNone then none
      else
        names.mapM fun name =>
          match valuesOf name members with
          | [] => some none
          | [value] => some (some value)
          | _ => none
  | _ => none

/-- The value of a field that must be present. -/
def required? {α : Type} [Stored α] (field : Option Json) : Option α :=
  field.bind Stored.ofJson?

/-- Read a record with one field. -/
def record₁? {α β : Type} [Stored α] (name : String) (build : α → β) (json : Json) :
    Option β := do
  match ← json.fields? [name] with
  | [first] => some (build (← required? first))
  | _ => none

/-- Read a record with two fields. -/
def record₂? {α β γ : Type} [Stored α] [Stored β] (first second : String)
    (build : α → β → γ) (json : Json) : Option γ := do
  match ← json.fields? [first, second] with
  | [first, second] => some (build (← required? first) (← required? second))
  | _ => none

/-- Read a record with three fields. -/
def record₃? {α β γ δ : Type} [Stored α] [Stored β] [Stored γ]
    (first second third : String) (build : α → β → γ → δ) (json : Json) :
    Option δ := do
  match ← json.fields? [first, second, third] with
  | [first, second, third] =>
      some (build (← required? first) (← required? second) (← required? third))
  | _ => none

/-- Read a record with four fields. -/
def record₄? {α β γ δ ε : Type} [Stored α] [Stored β] [Stored γ] [Stored δ]
    (first second third fourth : String) (build : α → β → γ → δ → ε) (json : Json) :
    Option ε := do
  match ← json.fields? [first, second, third, fourth] with
  | [first, second, third, fourth] =>
      some (build (← required? first) (← required? second) (← required? third)
        (← required? fourth))
  | _ => none

/-- The tag and the body of a tagged value, an object with one member. -/
def tagged? : Json → Option (String × Json)
  | .object [(some tag, body)] => some (tag, body)
  | _ => none

/-- Read one of several names.  A name may also be the tag of an empty body. -/
def oneOf? {α : Type} (names : List (String × α)) (json : Json) : Option α := do
  let name ← match json with
    | .text (some name) => some name
    | json =>
        match json.tagged? with
        | some (name, .null) => some name
        | _ => none
  names.lookup name

/-- A member of a record with the stored form of its value. -/
def member {α : Type} [Stored α] (name : String) (value : α) : String × Json :=
  (name, Stored.toJson value)

end Json

/-- Numbers that are not finite are written as the null value, which no number is
read from. -/
instance : Stored Float where
  toJson value :=
    match Json.Numeral.write? value with
    | some literal => .number literal
    | none => .null
  ofJson?
    | .number literal => Json.Numeral.float? literal
    | _ => none

instance : Stored Bool where
  toJson := .bool
  ofJson?
    | .bool value => some value
    | _ => none

instance : Stored UInt32 where
  toJson value := .number (toString value)
  ofJson?
    | .number literal => Json.Numeral.word? literal
    | _ => none

instance : Stored String where
  toJson := .ofString
  ofJson?
    | .text content => content
    | _ => none

/-- A value that may be absent is written as the null value when it is. -/
instance {α : Type} [Stored α] : Stored (Option α) where
  toJson
    | some value => Stored.toJson value
    | none => .null
  ofJson?
    | .null => some none
    | json => (Stored.ofJson? json).map some

end Stereograph
