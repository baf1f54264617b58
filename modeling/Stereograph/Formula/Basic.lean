/-!
# Formulas

A formula is the tree that a reader's text denotes: operators, calls of named
functions, symbols and constants.  The tree admits more than the text can write.
An operator may carry any number of arguments and a name may be any string, so
every consumer of a formula states which trees it refuses.

`Formula.depth` walks the tree with a list of pending subtrees.  Its stack use does
not grow with the tree, so a tree can be measured before anything recurses into it.
-/

namespace Stereograph

/-- Arithmetic operators. -/
inductive Operator where
  | add
  | subtract
  | negate
  | multiply
  | divide
  | power
  deriving DecidableEq, Repr

namespace Operator

/-- How many arguments an application of the operator has. -/
def arity : Operator → Nat
  | .negate => 1
  | _ => 2

/-- Name of the operator in the names of shader primitives. -/
def shaderName : Operator → String
  | .add => "Add"
  | .subtract => "Sub"
  | .negate => "Opp"
  | .multiply => "Mul"
  | .divide => "Div"
  | .power => "Pow"

/-- The operator as it is written in formulas. -/
def symbol : Operator → String
  | .add => "+"
  | .subtract => "-"
  | .negate => "-"
  | .multiply => "*"
  | .divide => "/"
  | .power => "^"

end Operator

/-- Functions that formulas may call. -/
inductive ElementaryFunction where
  | sqrt
  | exp
  | log
  | sin
  | cos
  deriving DecidableEq, Repr

namespace ElementaryFunction

/-- Every callable function. -/
def all : List ElementaryFunction := [.sqrt, .exp, .log, .sin, .cos]

/-- The name by which formulas call the function. -/
def name : ElementaryFunction → String
  | .sqrt => "sqrt"
  | .exp => "exp"
  | .log => "log"
  | .sin => "sin"
  | .cos => "cos"

/-- The function with a name, letter case included. -/
def named? (name : String) : Option ElementaryFunction :=
  all.find? fun function => function.name == name

end ElementaryFunction

/-- The two number systems in which a formula is computed. -/
inductive Arithmetic where
  /-- Homogeneous coordinates, in which infinity is a point like any other. -/
  | projective
  /-- Complex numbers. -/
  | affine
  deriving DecidableEq, Repr

/-- The word by which messages name an arithmetic. -/
def Arithmetic.name : Arithmetic → String
  | .projective => "projective"
  | .affine => "affine"

/-- The symbols that have a meaning. -/
inductive Symbol where
  | imaginaryUnit
  /-- The iterated point `z`. -/
  | iterate
  /-- The parameter `c`. -/
  | parameter
  deriving DecidableEq, Repr

/-- The symbol that a name stands for.  The iterated point exists in projective
arithmetic only. -/
def Arithmetic.symbol? (arithmetic : Arithmetic) (name : String) : Option Symbol :=
  if name = "i" ∨ name = "I" then some .imaginaryUnit
  else if name = "c" then some .parameter
  else if name = "z" then
    match arithmetic with
    | .projective => some .iterate
    | .affine => none
  else none

/-- Expression tree of a formula. -/
inductive Formula where
  | operation (operator : Operator) (arguments : List Formula)
  | call (function : String) (argument : Formula)
  | symbol (name : String)
  | constant (value : Float)
  deriving Repr

namespace Formula

/-- Deepest tree, and deepest nesting of a text, that is accepted. -/
def maximumNesting : Nat := 128

/-- Subtrees directly below the root. -/
def children : Formula → List Formula
  | .operation _ arguments => arguments
  | .call _ argument => [argument]
  | .symbol _ => []
  | .constant _ => []

mutual
/-- Number of nodes. -/
def size : Formula → Nat
  | .operation _ arguments => sizes arguments + 1
  | .call _ argument => argument.size + 1
  | .symbol _ => 1
  | .constant _ => 1
termination_by structural formula => formula

/-- Number of nodes of a list of trees. -/
def sizes : List Formula → Nat
  | [] => 0
  | formula :: rest => formula.size + sizes rest
termination_by structural formulas => formulas
end

mutual
/-- Count of nodes along a longest path downward. -/
def height : Formula → Nat
  | .operation _ arguments => heights arguments + 1
  | .call _ argument => argument.height + 1
  | .symbol _ => 1
  | .constant _ => 1
termination_by structural formula => formula

/-- Height of the highest tree of a list. -/
def heights : List Formula → Nat
  | [] => 0
  | formula :: rest => max formula.height (heights rest)
termination_by structural formulas => formulas
end

/-- The children of a tree have one node fewer than the tree. -/
theorem sizes_children (formula : Formula) :
    sizes formula.children + 1 = formula.size := by
  cases formula <;> simp [children, sizes, size]

theorem sizes_append (left right : List Formula) :
    sizes (left ++ right) = sizes left + sizes right := by
  induction left with
  | nil => simp [sizes]
  | cons formula rest ih => simp [sizes, ih, Nat.add_assoc]

/-- Greatest depth among pending subtrees, each paired with the depth of its root,
and a depth already found. -/
def deepest (pending : List (Formula × Nat)) (found : Nat) : Nat :=
  match pending with
  | [] => found
  | (formula, depth) :: rest =>
      deepest (formula.children.map (fun child => (child, depth + 1)) ++ rest)
        (max found depth)
termination_by sizes (pending.map Prod.fst)
decreasing_by
  have children := sizes_children formula
  simp only [List.map_append, List.map_map, List.map_cons, sizes_append, sizes]
  have same : formula.children.map (Prod.fst ∘ fun child => (child, depth + 1)) =
      formula.children := by
    simp [Function.comp_def]
  rw [same]
  omega

/-- Count of nodes along a longest path downward, found without recursion into the
tree. -/
def depth (formula : Formula) : Nat :=
  deepest [(formula, 1)] 0

mutual
/-- Whether a symbol occurs anywhere in the tree. -/
def mentions (name : String) : Formula → Bool
  | .operation _ arguments => anyMentions name arguments
  | .call _ argument => argument.mentions name
  | .symbol found => found == name
  | .constant _ => false
termination_by structural formula => formula

/-- Whether a symbol occurs in one of several trees. -/
def anyMentions (name : String) : List Formula → Bool
  | [] => false
  | formula :: rest => formula.mentions name || anyMentions name rest
termination_by structural formulas => formulas
end

/-- The value of a constant or of a negated constant.  No other tree has one. -/
def asConstant? : Formula → Option Float
  | .constant value => some value
  | .operation .negate [.constant value] => some (-value)
  | _ => none

end Formula

end Stereograph
