import Mathlib.Order.Bounds.Defs
import Stereograph.Proofs.Formula.Height

/-!
# Paths and walks

The depth of a formula is the number of nodes on a longest path from its root to a leaf.  It
is found by a walk that keeps the subtrees that are still to be visited.  The order in which
they are taken does not matter: every walk visits each node once, and what it has found by
then is the depth.
-/

namespace Stereograph.Formula

/-! ## Longest paths -/

/-- Nodes from the root of a tree down to a leaf, each a child of the node in front of it.
An operator without arguments is a leaf too. -/
inductive LeafPath : Formula → List Formula → Prop
  | leaf {formula} (childless : formula.children = []) : LeafPath formula [formula]
  | step {formula child path} (isChild : child ∈ formula.children)
      (below : LeafPath child path) : LeafPath formula (formula :: path)

theorem height_le_heights {formula : Formula} {formulas : List Formula}
    (member : formula ∈ formulas) : formula.height ≤ heights formulas := by
  induction member with
  | head rest => exact Nat.le_max_left _ _
  | tail first _ ih => exact Nat.le_trans ih (Nat.le_max_right _ _)

theorem height_lt_of_mem_children {formula child : Formula}
    (isChild : child ∈ formula.children) : child.height < formula.height := by
  rw [← heights_children formula]
  exact Nat.lt_succ_of_le (height_le_heights isChild)

/-- One of several trees is the highest. -/
theorem exists_height_eq_heights {formulas : List Formula} (several : formulas ≠ []) :
    ∃ formula ∈ formulas, formula.height = heights formulas := by
  induction formulas with
  | nil => exact (several rfl).elim
  | cons formula rest ih =>
      rcases Nat.lt_or_ge formula.height (heights rest) with lower | highest
      · have others : rest ≠ [] := by
          rintro rfl
          exact Nat.not_lt_zero _ lower
        obtain ⟨highest, member, same⟩ := ih others
        exact ⟨highest, List.mem_cons_of_mem _ member,
          same.trans (Nat.max_eq_right (Nat.le_of_lt lower)).symm⟩
      · exact ⟨formula, List.mem_cons_self, (Nat.max_eq_left highest).symm⟩

theorem LeafPath.length_le_height {formula : Formula} {path : List Formula}
    (isPath : formula.LeafPath path) : path.length ≤ formula.height := by
  induction isPath with
  | leaf childless => exact height_pos _
  | step isChild _ ih => exact Nat.lt_of_le_of_lt ih (height_lt_of_mem_children isChild)

theorem exists_leafPath (formula : Formula) :
    ∃ path, formula.LeafPath path ∧ path.length = formula.height := by
  induction height : formula.height using Nat.strongRecOn generalizing formula with
  | ind _ ih =>
      subst height
      by_cases childless : formula.children = []
      · refine ⟨[formula], .leaf childless, ?_⟩
        rw [← heights_children formula, childless]
        rfl
      · obtain ⟨child, isChild, highest⟩ := exists_height_eq_heights childless
        obtain ⟨path, below, length⟩ := ih _ (height_lt_of_mem_children isChild) child rfl
        refine ⟨formula :: path, .step isChild below, ?_⟩
        rw [List.length_cons, length, highest, heights_children]

/-- The height of a tree is the number of nodes on its longest path. -/
theorem isGreatest_height (formula : Formula) :
    IsGreatest {length | ∃ path, formula.LeafPath path ∧ path.length = length}
      formula.height := by
  refine ⟨exists_leafPath formula, ?_⟩
  rintro length ⟨path, isPath, rfl⟩
  exact isPath.length_le_height

/-! ## Walks in any order -/

/-- The state of a walk that measures trees. -/
structure Walk where
  /-- Subtrees that are not visited yet, each with the depth of its root. -/
  pending : List (Formula × Nat)
  /-- Depth of the deepest node that is visited. -/
  deepest : Nat

namespace Walk

/-- A walk starts at the root. -/
def start (formula : Formula) : Walk :=
  ⟨[(formula, 1)], 0⟩

/-- Number of nodes that are not visited. -/
def size (walk : Walk) : Nat :=
  sizes (walk.pending.map Prod.fst)

/-- Depth of the deepest node, visited or not. -/
def reached (walk : Walk) : Nat :=
  max walk.deepest (reach walk.pending)

/-- Visit the root of any pending subtree.  Its children may go anywhere. -/
inductive Round : Walk → Walk → Prop
  | visit (before after : List (Formula × Nat)) {pending formula depth found}
      (order : pending.Perm
        (formula.children.map (fun child => (child, depth + 1)) ++ (before ++ after))) :
      Round ⟨before ++ (formula, depth) :: after, found⟩ ⟨pending, max found depth⟩

/-- A number of rounds, one after another. -/
inductive Run : Nat → Walk → Walk → Prop
  | done (walk) : Run 0 walk walk
  | round {rounds walk next last} (first : Round walk next) (rest : Run rounds next last) :
      Run (rounds + 1) walk last

end Walk

theorem size_pos (formula : Formula) : 0 < formula.size := by
  rw [← sizes_children]
  exact Nat.succ_pos _

theorem sizes_perm {left right : List Formula} (order : left.Perm right) :
    sizes left = sizes right := by
  induction order with
  | nil => rfl
  | cons formula _ ih => rw [sizes, sizes, ih]
  | swap first second rest => simp only [sizes, Nat.add_left_comm]
  | trans _ _ first second => exact first.trans second

theorem reach_perm {left right : List (Formula × Nat)} (order : left.Perm right) :
    reach left = reach right := by
  induction order with
  | nil => rfl
  | cons entry _ ih => rw [reach, reach, ih]
  | swap first second rest => simp only [reach, Nat.max_left_comm]
  | trans _ _ first second => exact first.trans second

namespace Walk

variable {walk next last : Walk} {rounds : Nat}

/-- A round visits one node. -/
theorem Round.size_eq (round : Round walk next) : next.size + 1 = walk.size := by
  cases round with
  | @visit before after pending formula depth found order =>
      -- The children that are added are one node fewer than the tree that is taken.
      have visited := sizes_children formula
      have childrenOnly : (formula.children.map fun child => (child, depth + 1)).map Prod.fst =
          formula.children := by
        rw [List.map_map]
        exact List.map_id _
      simp only [size, sizes_perm (order.map Prod.fst), List.map_append, List.map_cons,
        childrenOnly, sizes_append, sizes]
      omega

/-- A round leaves the deepest node where it is. -/
theorem Round.reached_eq (round : Round walk next) : next.reached = walk.reached := by
  cases round with
  | @visit before after pending formula depth found order =>
      -- A node and its children reach as deep as the tree that is taken.
      have visited := reach_children formula.children depth
      simp only [reached, reach_perm order, reach_append, reach]
      omega

theorem Run.size_eq (run : Run rounds walk last) : last.size + rounds = walk.size := by
  induction run with
  | done walk => rfl
  | round first _ ih => rw [← first.size_eq, ← ih, Nat.add_assoc]

theorem Run.reached_eq (run : Run rounds walk last) : last.reached = walk.reached := by
  induction run with
  | done walk => rfl
  | round first _ ih => rw [ih, first.reached_eq]

/-- When every node is visited, the deepest one is. -/
theorem reached_of_size_eq_zero (finished : walk.size = 0) :
    walk.reached = walk.deepest := by
  obtain ⟨pending, found⟩ := walk
  cases pending with
  | nil => exact Nat.max_eq_left (Nat.zero_le found)
  | cons entry rest =>
      have unvisited : 0 < size ⟨entry :: rest, found⟩ :=
        Nat.add_pos_left (size_pos entry.1) _
      exact (Nat.ne_of_gt unvisited finished).elim

/-- A walk goes on as long as a node is not visited. -/
theorem exists_round_iff : (∃ next, Round walk next) ↔ 0 < walk.size := by
  constructor
  · rintro ⟨next, round⟩
    rw [← round.size_eq]
    exact Nat.succ_pos _
  · intro unvisited
    obtain ⟨pending, found⟩ := walk
    cases pending with
    | nil => exact (Nat.lt_irrefl 0 unvisited).elim
    | cons entry rest => exact ⟨_, .visit [] rest (.refl _)⟩

/-- The walk that measures the depth of a formula is one of these. -/
theorem run_deepest (pending : List (Formula × Nat)) (found : Nat) :
    Run (size ⟨pending, found⟩) ⟨pending, found⟩ ⟨[], Formula.deepest pending found⟩ := by
  induction pending, found using Formula.deepest.induct with
  | case1 found =>
      rw [Formula.deepest]
      exact .done _
  | case2 found formula depth rest ih =>
      have first : Round ⟨(formula, depth) :: rest, found⟩ ⟨_, max found depth⟩ :=
        .visit [] rest (.refl _)
      rw [Formula.deepest, ← first.size_eq]
      exact .round first ih

theorem size_start (formula : Formula) : (start formula).size = formula.size := by
  simp only [start, size, List.map_cons, List.map_nil, sizes, Nat.add_zero]

theorem reached_start (formula : Formula) : (start formula).reached = formula.depth :=
  (deepest_eq_max [(formula, 1)] 0).symm

/-- Whichever subtree is visited next, a walk from the root visits every node once and then
has found the depth. -/
theorem Run.of_start {formula : Formula} (run : Run rounds (start formula) walk) :
    rounds ≤ formula.size ∧ ((∃ next, Round walk next) ↔ rounds < formula.size) ∧
      (rounds = formula.size → walk.deepest = formula.depth) := by
  have counted := run.size_eq
  rw [size_start] at counted
  refine ⟨by omega, ?_, ?_⟩
  · rw [exists_round_iff]
    omega
  · intro complete
    rw [← reached_of_size_eq_zero (by omega), run.reached_eq, reached_start]

end Walk

end Stereograph.Formula
