import Stereograph.Json.Stored
import Stereograph.Proofs.Json.Text

/-!
# Stored values read back

A value lasts if its stored form has proper literals and is accepted as the value again.
The text of a lasting value stores that value.  Every field of a record lies under a name
of its own, so a record is read back as far as its fields are, and lasts with them.
-/

namespace Stereograph

namespace Stored

variable {α : Type} [Stored α]

/-- What a value is read back as. -/
def reread? (value : α) : Option α :=
  ofJson? (toJson value)

/-- A text with proper literals is read back as its stored form. -/
theorem read?_write {value : α} (literals : (toJson value).HasLiterals) :
    read? (write value) = reread? value := by
  rw [read?, write, Json.read?_write literals, Option.bind_some, reread?]

/-- A value that its stored form stands for. -/
structure Lasts (value : α) : Prop where
  literals : (toJson value).HasLiterals
  accepted : ofJson? (toJson value) = some value

theorem Lasts.reread? {value : α} (lasts : Lasts value) : Stored.reread? value = some value :=
  lasts.accepted

/-- The text of a lasting value is read back as the value. -/
theorem Lasts.read?_write {value : α} (lasts : Lasts value) :
    read? (write value) = some value := by
  rw [Stored.read?_write lasts.literals, lasts.reread?]

theorem lasts_string (content : String) : Lasts content :=
  ⟨trivial, rfl⟩

theorem lasts_word (value : UInt32) : Lasts value :=
  ⟨Json.Numeral.isLiteral_repr value.toNat, Json.Numeral.word?_toString value⟩

end Stored

namespace Json

theorem hasLiterals_ofMembers {members : List (String × Json)}
    (literals : ∀ member ∈ members, member.2.HasLiterals) :
    (ofMembers members).HasLiterals := by
  rw [ofMembers, HasLiterals]
  induction members with
  | nil => trivial
  | cons first rest hypothesis =>
      obtain ⟨firstLiterals, restLiterals⟩ := List.forall_mem_cons.mp literals
      exact ⟨firstLiterals, hypothesis restLiterals⟩

/-! ## Fields of a record -/

theorem valuesOf_eq_nil {name : String} {members : List (String × Json)}
    (absent : name ∉ members.map Prod.fst) :
    valuesOf name (members.map fun member => (some member.1, member.2)) = [] := by
  rw [valuesOf, List.map_eq_nil_iff, List.filter_eq_nil_iff]
  rintro entry listed
  obtain ⟨member, inside, rfl⟩ := List.mem_map.mp listed
  simp only [beq_iff_eq, Option.some.injEq]
  rintro rfl
  exact absent (List.mem_map_of_mem inside)

/-- An object holds one value under each of its names. -/
theorem valuesOf_of_mem {members : List (String × Json)} (distinct : (members.map Prod.fst).Nodup)
    {member : String × Json} (inside : member ∈ members) :
    valuesOf member.1 (members.map fun member => (some member.1, member.2)) = [member.2] := by
  induction members with
  | nil => cases inside
  | cons first rest hypothesis =>
      rw [List.map_cons, List.nodup_cons] at distinct
      obtain ⟨absent, distinctRest⟩ := distinct
      obtain rfl | insideRest := List.mem_cons.mp inside
      · have others := valuesOf_eq_nil absent
        rw [valuesOf] at others ⊢
        simp [others]
      · have other : first.1 ≠ member.1 := by
          intro same
          exact absent (same ▸ List.mem_map_of_mem insideRest)
        have others := hypothesis distinctRest insideRest
        rw [valuesOf] at others ⊢
        simp [other, others]

/-- A record has the fields that it was written with. -/
theorem fields?_ofMembers {members : List (String × Json)}
    (distinct : (members.map Prod.fst).Nodup) :
    (ofMembers members).fields? (members.map Prod.fst) =
      some (members.map fun member => some member.2) := by
  have named : ((members.map fun member => (some member.1, member.2)).any
      fun member => member.1.isNone) = false := by
    simp
  rw [ofMembers, fields?, named, if_neg Bool.false_ne_true, List.mapM_map]
  -- Each field is looked up among all members, so the induction is over some of them.
  suffices every : ∀ part ⊆ members, part.mapM (_ ∘ Prod.fst) =
      some (part.map fun member => some member.2) from every members (List.Subset.refl members)
  intro part
  induction part with
  | nil => intro _; rfl
  | cons first rest hypothesis =>
      intro inside
      obtain ⟨insideFirst, insideRest⟩ := List.cons_subset.mp inside
      rw [List.mapM_cons, hypothesis insideRest, Function.comp_apply,
        valuesOf_of_mem distinct insideFirst]
      rfl

/-! ## Written records -/

section Written

variable {α β γ δ ε : Type} [Stored α] {name₁ name₂ name₃ name₄ : String}

open Stored (reread?)

theorem record₁?_member (name : String) (build : α → β) (first : α) :
    record₁? name build (ofMembers [member name first]) = (reread? first).map build := by
  have fields : (ofMembers [member name first]).fields? [name] = _ :=
    fields?_ofMembers (List.nodup_singleton name)
  rw [record₁?, fields]
  exact (Option.map_eq_bind).symm

/-- A written record is read back as far as its fields are. -/
theorem record₃?_members [Stored β] [Stored γ] (distinct : [name₁, name₂, name₃].Nodup)
    (build : α → β → γ → δ) (first : α) (second : β) (third : γ) :
    record₃? name₁ name₂ name₃ build
        (ofMembers [member name₁ first, member name₂ second, member name₃ third]) =
      (do some (build (← reread? first) (← reread? second) (← reread? third))) := by
  have fields : (ofMembers [member name₁ first, member name₂ second,
      member name₃ third]).fields? [name₁, name₂, name₃] = _ :=
    fields?_ofMembers distinct
  rw [record₃?, fields]
  rfl

theorem record₄?_members [Stored β] [Stored γ] [Stored δ]
    (distinct : [name₁, name₂, name₃, name₄].Nodup) (build : α → β → γ → δ → ε) (first : α)
    (second : β) (third : γ) (fourth : δ) :
    record₄? name₁ name₂ name₃ name₄ build
        (ofMembers [member name₁ first, member name₂ second, member name₃ third,
          member name₄ fourth]) =
      (do some (build (← reread? first) (← reread? second) (← reread? third)
        (← reread? fourth))) := by
  have fields : (ofMembers [member name₁ first, member name₂ second, member name₃ third,
      member name₄ fourth]).fields? [name₁, name₂, name₃, name₄] = _ :=
    fields?_ofMembers distinct
  rw [record₄?, fields]
  rfl

/-- A record of four lasting fields with different names is read back. -/
theorem record₄?_ofMembers [Stored β] [Stored γ] [Stored δ]
    (distinct : [name₁, name₂, name₃, name₄].Nodup) (build : α → β → γ → δ → ε)
    {first : α} {second : β} {third : γ} {fourth : δ} (lastsFirst : Stored.Lasts first)
    (lastsSecond : Stored.Lasts second) (lastsThird : Stored.Lasts third)
    (lastsFourth : Stored.Lasts fourth) :
    record₄? name₁ name₂ name₃ name₄ build
        (ofMembers [member name₁ first, member name₂ second, member name₃ third,
          member name₄ fourth]) =
      some (build first second third fourth) := by
  rw [record₄?_members distinct, lastsFirst.reread?, lastsSecond.reread?, lastsThird.reread?,
    lastsFourth.reread?]
  rfl

end Written

end Json

end Stereograph
