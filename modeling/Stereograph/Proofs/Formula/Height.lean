import Stereograph.Formula.Basic

/-!
# Depth and height

The depth of a formula is found with a list of pending subtrees and its height by
recursion.  They are the same number.
-/

namespace Stereograph.Formula

@[simp] theorem heights_children (formula : Formula) :
    heights formula.children + 1 = formula.height := by
  cases formula <;> simp [children, heights, height]

theorem height_pos (formula : Formula) : 0 < formula.height := by
  rw [← heights_children]
  exact Nat.succ_pos _

/-- The depth at which the deepest node below pending subtrees stands. -/
def reach : List (Formula × Nat) → Nat
  | [] => 0
  | (formula, depth) :: rest => max (depth + heights formula.children) (reach rest)

theorem reach_append (left right : List (Formula × Nat)) :
    reach (left ++ right) = max (reach left) (reach right) := by
  induction left with
  | nil => simp [reach]
  | cons entry rest ih => rw [List.cons_append, reach, reach, ih, Nat.max_assoc]

/-- A node and its children reach as deep as the children are high. -/
theorem reach_children (formulas : List Formula) (depth : Nat) :
    max depth (reach (formulas.map fun child => (child, depth + 1))) =
      depth + heights formulas := by
  induction formulas with
  | nil => simp [reach, heights]
  | cons formula rest ih =>
      have below := heights_children formula
      simp only [List.map_cons, reach, heights]
      omega

/-- The walk finds the deepest node of all pending subtrees. -/
theorem deepest_eq_max (pending : List (Formula × Nat)) (found : Nat) :
    deepest pending found = max found (reach pending) := by
  induction pending, found using deepest.induct with
  | case1 found => simp [deepest, reach]
  | case2 found formula depth rest ih =>
      rw [deepest, ih, reach_append, reach, ← reach_children]
      simp only [Nat.max_assoc]

/-- The depth of a formula is its height. -/
theorem depth_eq_height (formula : Formula) : formula.depth = formula.height := by
  rw [depth, deepest_eq_max, ← heights_children, reach, reach]
  omega

theorem height_binary (operator : Operator) (left right : Formula) :
    (operation operator [left, right]).height = max left.height right.height + 1 := by
  simp [height, heights]

theorem height_negation (inner : Formula) :
    (operation .negate [inner]).height = inner.height + 1 := by
  simp [height, heights]

/-- The operands of a tree keep to a limit that the tree keeps to. -/
theorem height_operands_le {operator : Operator} {left right : Formula} {limit : Nat}
    (bounded : (operation operator [left, right]).height ≤ limit) :
    left.height ≤ limit ∧ right.height ≤ limit := by
  rw [height_binary] at bounded
  have below := Nat.le_of_succ_le bounded
  exact ⟨Nat.le_trans (Nat.le_max_left _ _) below, Nat.le_trans (Nat.le_max_right _ _) below⟩

end Stereograph.Formula
