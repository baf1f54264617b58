import Stereograph.Formula.Basic
import Stereograph.Json.Stored

/-!
# Stored formulas

A tree is stored as a tagged value for each of its nodes.  Reading limits how
deeply arrays and objects nest.  The levels that remain are the structural argument
of the reader: an operator takes up three of them and a call two.
-/

namespace Stereograph

instance : Stored Operator where
  toJson
    | .add => .ofString "Add"
    | .subtract => .ofString "Subtract"
    | .negate => .ofString "Negate"
    | .multiply => .ofString "Multiply"
    | .divide => .ofString "Divide"
    | .power => .ofString "Power"
  ofJson? :=
    Json.oneOf?
      [("Add", .add), ("Subtract", .subtract), ("Negate", .negate),
        ("Multiply", .multiply), ("Divide", .divide), ("Power", .power)]

instance : Stored Arithmetic where
  toJson arithmetic := .ofString arithmetic.name
  ofJson? := Json.oneOf? [("projective", .projective), ("affine", .affine)]

namespace Formula

mutual
/-- Stored form of a tree. -/
def toJson : Formula → Json
  | .operation operator arguments =>
      .ofMembers [("Operator",
        .ofMembers [Json.member "op" operator, ("args", .array (toJsons arguments))])]
  | .call function argument =>
      .ofMembers [("Call",
        .ofMembers [Json.member "name" function, ("arg", argument.toJson)])]
  | .symbol name => .ofMembers [Json.member "Symbol" name]
  | .constant value => .ofMembers [Json.member "Constant" value]
termination_by structural formula => formula

/-- Stored forms of several trees. -/
def toJsons : List Formula → List Json
  | [] => []
  | formula :: rest => formula.toJson :: toJsons rest
termination_by structural formulas => formulas
end

/-- Deepest nesting of arrays and objects that is read. -/
def maximumStoredNesting : Nat := 127

/-- The tree of a stored value whose arrays and objects nest within some levels. -/
def ofJson? : (levels : Nat) → Json → Option Formula
  | 0, _ => none
  | inBody + 1, json => do
      match ← json.tagged?, inBody with
      | ("Symbol", body), _ => (Stored.ofJson? body).map Formula.symbol
      | ("Constant", body), _ => (Stored.ofJson? body).map Formula.constant
      | ("Call", body), inFields + 1 =>
          match ← body.fields? ["name", "arg"] with
          | [name, some argument] =>
              some (.call (← Json.required? name) (← ofJson? inFields argument))
          | _ => none
      | ("Operator", body), inFields + 1 =>
          match ← body.fields? ["op", "args"], inFields with
          | [operator, some (.array arguments)], inArguments + 1 =>
              some (.operation (← Json.required? operator)
                (← arguments.mapM (ofJson? inArguments)))
          | _, _ => none
      | _, _ => none

end Formula

instance : Stored Formula where
  toJson := Formula.toJson
  ofJson? := Formula.ofJson? Formula.maximumStoredNesting

end Stereograph
