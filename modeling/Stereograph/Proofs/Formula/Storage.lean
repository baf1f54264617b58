import Stereograph.Formula.Storage
import Stereograph.Proofs.Json.Written
import Stereograph.Proofs.Session

/-!
# Stored formulas and settings read back

Arrays and objects of a stored tree nest three levels deep for an operator, two for a call
and one for a symbol or a constant.  A reader with as many levels finds the tree again if
the constants are read back, and a reader with fewer levels finds nothing.
-/

namespace Stereograph

namespace Json

mutual
/-- How deeply the arrays and objects of a stored value nest. -/
def nesting : Json → Nat
  | .null | .bool _ | .number _ | .text _ => 0
  | .array items => nestings items + 1
  | .object members => nestingsOfMembers members + 1
termination_by structural value => value

/-- The deepest nesting among some items. -/
def nestings : List Json → Nat
  | [] => 0
  | item :: rest => max item.nesting (nestings rest)
termination_by structural items => items

/-- The deepest nesting among the values of some members. -/
def nestingsOfMembers : List (Option String × Json) → Nat
  | [] => 0
  | member :: rest => max (nestingOfMember member) (nestingsOfMembers rest)
termination_by structural members => members

/-- How deeply the value of a member nests. -/
def nestingOfMember : Option String × Json → Nat
  | (_, value) => value.nesting
termination_by structural member => member
end

theorem nesting_member (name : String) (value : Json) :
    (ofMembers [(name, value)]).nesting = value.nesting + 1 := by
  simp [ofMembers, nesting, nestingsOfMembers, nestingOfMember]

theorem nesting_two_members (name₁ name₂ : String) (value₁ value₂ : Json) :
    (ofMembers [(name₁, value₁), (name₂, value₂)]).nesting =
      max value₁.nesting value₂.nesting + 1 := by
  simp [ofMembers, nesting, nestingsOfMembers, nestingOfMember]

end Json

namespace Formula

open Stored (reread?)

mutual
/-- The constants of a tree, from left to right. -/
def constants : Formula → List Float
  | .operation _ arguments => allConstants arguments
  | .call _ argument => argument.constants
  | .symbol _ => []
  | .constant value => [value]
termination_by structural formula => formula

/-- The constants of several trees. -/
def allConstants : List Formula → List Float
  | [] => []
  | formula :: rest => formula.constants ++ allConstants rest
termination_by structural formulas => formulas
end

/-! ## Stored nodes -/

theorem nesting_float (value : Float) : (Stored.toJson value).nesting = 0 := by
  simp only [Stored.toJson]
  split
  · rfl
  · rfl

theorem nesting_operator (operator : Operator) : (Stored.toJson operator).nesting = 0 := by
  cases operator <;> rfl

@[simp] theorem nesting_operation (operator : Operator) (arguments : List Formula) :
    (operation operator arguments).toJson.nesting = Json.nestings (toJsons arguments) + 3 := by
  rw [toJson, Json.nesting_member, Json.member, Json.nesting_two_members, nesting_operator,
    Nat.zero_max, Json.nesting]

@[simp] theorem nesting_call (function : String) (argument : Formula) :
    (call function argument).toJson.nesting = argument.toJson.nesting + 2 := by
  rw [toJson, Json.nesting_member, Json.member, Json.nesting_two_members]
  exact congrArg (· + 2) (Nat.zero_max _)

@[simp] theorem nesting_symbol (name : String) : (symbol name).toJson.nesting = 1 :=
  Json.nesting_member _ _

@[simp] theorem nesting_constant (value : Float) : (constant value).toJson.nesting = 1 := by
  rw [toJson, Json.member, Json.nesting_member, nesting_float]

/-! ## Reading nodes -/

/-- An operator is read with three levels around its arguments. -/
theorem ofJson?_operation (levels : Nat) (operator : Operator) (arguments : List Formula) :
    ofJson? (levels + 3) (operation operator arguments).toJson =
      ((toJsons arguments).mapM (ofJson? levels)).bind
        fun arguments => some (.operation operator arguments) := by
  delta ofJson?
  cases operator <;> rfl

/-- A call is read with two levels around its argument. -/
theorem ofJson?_call (levels : Nat) (function : String) (argument : Formula) :
    ofJson? (levels + 2) (call function argument).toJson =
      (ofJson? levels argument.toJson).bind fun argument => some (.call function argument) := by
  delta ofJson?
  rfl

theorem ofJson?_symbol (levels : Nat) (name : String) :
    ofJson? (levels + 1) (symbol name).toJson = some (.symbol name) := by
  delta ofJson?
  rfl

theorem ofJson?_constant (levels : Nat) (value : Float) :
    ofJson? (levels + 1) (constant value).toJson = (reread? value).map .constant := by
  delta ofJson?
  rfl

/-- Without a level for each of its three parts an operator is not read. -/
theorem ofJson?_operation_of_lt {levels : Nat} (few : levels < 3) (operator : Operator)
    (arguments : List Formula) :
    ofJson? levels (operation operator arguments).toJson = none := by
  delta ofJson?
  match levels, few with
  | 0, _ => rfl
  | 1, _ => rfl
  | 2, _ => rfl

theorem ofJson?_call_of_lt {levels : Nat} (few : levels < 2) (function : String)
    (argument : Formula) :
    ofJson? levels (call function argument).toJson = none := by
  delta ofJson?
  match levels, few with
  | 0, _ => rfl
  | 1, _ => rfl

/-! ## Trees read back -/

mutual
/-- A tree is read back when there are levels for its arrays and objects. -/
theorem ofJson?_toJson (formula : Formula) {levels : Nat}
    (same : ∀ value ∈ formula.constants, reread? value = some value)
    (bounded : formula.toJson.nesting ≤ levels) :
    ofJson? levels formula.toJson = some formula := by
  cases formula with
  | operation operator arguments =>
      rw [nesting_operation] at bounded
      obtain ⟨inside, rfl⟩ := Nat.exists_eq_add_of_le' (Nat.le_of_add_left_le bounded)
      rw [ofJson?_operation, mapM_ofJson? arguments same (Nat.le_of_add_le_add_right bounded)]
      rfl
  | call function argument =>
      rw [nesting_call] at bounded
      obtain ⟨inside, rfl⟩ := Nat.exists_eq_add_of_le' (Nat.le_of_add_left_le bounded)
      rw [ofJson?_call, ofJson?_toJson argument same (Nat.le_of_add_le_add_right bounded)]
      rfl
  | symbol name =>
      rw [nesting_symbol] at bounded
      obtain ⟨inside, rfl⟩ := Nat.exists_eq_add_of_le' bounded
      exact ofJson?_symbol inside name
  | constant value =>
      rw [nesting_constant] at bounded
      obtain ⟨inside, rfl⟩ := Nat.exists_eq_add_of_le' bounded
      rw [ofJson?_constant, same value List.mem_cons_self]
      rfl
termination_by structural formula

theorem mapM_ofJson? (formulas : List Formula) {levels : Nat}
    (same : ∀ value ∈ allConstants formulas, reread? value = some value)
    (bounded : Json.nestings (toJsons formulas) ≤ levels) :
    (toJsons formulas).mapM (ofJson? levels) = some formulas := by
  cases formulas with
  | nil => rfl
  | cons formula rest =>
      rw [toJsons, Json.nestings, Nat.max_le] at bounded
      rw [allConstants, List.forall_mem_append] at same
      rw [toJsons, List.mapM_cons, ofJson?_toJson formula same.1 bounded.1,
        mapM_ofJson? rest same.2 bounded.2]
      rfl
termination_by structural formulas
end

mutual
/-- A tree is not read when its arrays and objects nest deeper than the levels reach. -/
theorem ofJson?_eq_none (formula : Formula) {levels : Nat}
    (deep : levels < formula.toJson.nesting) : ofJson? levels formula.toJson = none := by
  cases formula with
  | operation operator arguments =>
      rw [nesting_operation] at deep
      rcases Nat.lt_or_ge levels 3 with few | enough
      · exact ofJson?_operation_of_lt few operator arguments
      · obtain ⟨inside, rfl⟩ := Nat.exists_eq_add_of_le' enough
        rw [ofJson?_operation, mapM_eq_none arguments (Nat.lt_of_add_lt_add_right deep)]
        rfl
  | call function argument =>
      rw [nesting_call] at deep
      rcases Nat.lt_or_ge levels 2 with few | enough
      · exact ofJson?_call_of_lt few function argument
      · obtain ⟨inside, rfl⟩ := Nat.exists_eq_add_of_le' enough
        rw [ofJson?_call, ofJson?_eq_none argument (Nat.lt_of_add_lt_add_right deep)]
        rfl
  | symbol name =>
      rw [nesting_symbol] at deep
      obtain rfl := Nat.lt_one_iff.mp deep
      rfl
  | constant value =>
      rw [nesting_constant] at deep
      obtain rfl := Nat.lt_one_iff.mp deep
      rfl
termination_by structural formula

theorem mapM_eq_none (formulas : List Formula) {levels : Nat}
    (deep : levels < Json.nestings (toJsons formulas)) :
    (toJsons formulas).mapM (ofJson? levels) = none := by
  cases formulas with
  | nil => cases deep
  | cons formula rest =>
      rw [toJsons, Json.nestings, lt_max_iff] at deep
      rw [toJsons, List.mapM_cons]
      rcases deep with first | later
      · rw [ofJson?_eq_none formula first]
        rfl
      · rw [mapM_eq_none rest later]
        cases ofJson? levels formula.toJson <;> rfl
termination_by structural formulas
end

/-! ## Texts of trees -/

mutual
/-- Every number of a stored tree is a literal. -/
theorem hasLiterals_toJson (formula : Formula) : formula.toJson.HasLiterals := by
  cases formula with
  | operation operator arguments =>
      have named : (Stored.toJson operator).HasLiterals := by
        cases operator <;> trivial
      exact ⟨⟨named, hasLiterals_toJsons arguments, trivial⟩, trivial⟩
  | call function argument => exact ⟨⟨trivial, hasLiterals_toJson argument, trivial⟩, trivial⟩
  | symbol name => exact ⟨trivial, trivial⟩
  | constant value => exact ⟨Stored.hasLiterals_float value, trivial⟩
termination_by structural formula

theorem hasLiterals_toJsons (formulas : List Formula) :
    Json.HaveLiterals (toJsons formulas) := by
  cases formulas with
  | nil => trivial
  | cons formula rest => exact ⟨hasLiterals_toJson formula, hasLiterals_toJsons rest⟩
termination_by structural formulas
end

/-- The text of a tree is read back as far as its stored form is. -/
theorem read?_write_formula (formula : Formula) :
    Stored.read? (Stored.write formula) = ofJson? maximumStoredNesting formula.toJson :=
  Stored.read?_write (hasLiterals_toJson formula)

end Formula

/-- Settings are read back from their text.  A tree of finite constants that are read back
as themselves is read back from its text when its arrays and objects nest no deeper than is
read, and is refused when they nest deeper. -/
theorem settings_and_trees_are_read_back :
    (∀ settings : Shader.Settings, Stored.read? (Stored.write settings) = some settings) ∧
    ∀ formula : Formula, (∀ value ∈ formula.constants, value.isFinite = true) →
      (∀ value ∈ formula.constants, value.isFinite = true →
        Stored.ofJson? (Stored.toJson value) = some value) →
      ((Stored.toJson formula).nesting ≤ Formula.maximumStoredNesting →
        Stored.read? (Stored.write formula) = some formula) ∧
      (Formula.maximumStoredNesting < (Stored.toJson formula).nesting →
        (Stored.read? (Stored.write formula) : Option Formula) = none) := by
  constructor
  · intro settings
    exact (Shader.lasts_settings settings).read?_write
  · intro formula finite same
    rw [Formula.read?_write_formula]
    constructor
    · intro bounded
      apply Formula.ofJson?_toJson formula _ bounded
      intro value listed
      exact same value listed (finite value listed)
    · exact Formula.ofJson?_eq_none formula

/-- A misapplied operator, names that have to be quoted, and two constants. -/
theorem settings_and_trees_are_read_back_quoted :
    let formula : Formula :=
      .operation .negate [.call "\"\\\n" (.symbol "ζ"), .constant 0.5, .operation .add [],
        .constant (-2)]
    (∀ value ∈ formula.constants, value.isFinite = true) ∧
      (Stored.toJson formula).nesting ≤ Formula.maximumStoredNesting ∧
      Stored.read? (Stored.write formula) = some formula := by
  intro formula
  have finite : ∀ value ∈ formula.constants, value.isFinite = true := by
    decide +kernel
  have same : ∀ value ∈ formula.constants,
      Stored.ofJson? (Stored.toJson value) = some value := by
    decide +kernel
  have bounded : (Stored.toJson formula).nesting ≤ Formula.maximumStoredNesting := by
    decide +kernel
  exact ⟨finite, bounded, (settings_and_trees_are_read_back.2 formula finite
    fun value listed _ => same value listed).1 bounded⟩

end Stereograph
