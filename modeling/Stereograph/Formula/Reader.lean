import Stereograph.Formula.Error
import Stereograph.Formula.Token

/-!
# Reading formulas

The grammar, loosest binding first:

```text
sum         := product (('+' | '-') product)*
product     := unary (('*' | '/') unary)*
unary       := ('-' | '+') unary | power(atom)
power(base) := base ('^' unary)?
atom        := number power(juxtaposed)? | juxtaposed
juxtaposed  := '(' sum ')' | name ('(' sum ')')?
```

A caret associates to the right and binds tighter than a sign in front of its
base.  A number directly before a name or a parenthesis is multiplied with it.
What may be left out is taken when it can be read and left out otherwise.

Every sign, exponent and parenthesis that encloses a unary position uses up one
level of nesting.  The levels that remain are the structural argument of the
recursion, so the limit on nesting is also what bounds it.  Each reader returns
what is left of its input with a proof that it is shorter.
-/

namespace Stereograph.Formula

/-- A tree that was read, with its depth. -/
structure Subtree where
  formula : Formula
  depth : Nat

/-- Why a reader stops.  A missing part lets an optional construct be left out.  A
nesting failure always ends the reading. -/
inductive Failure where
  | missing (fault : ParseFault) (rest : List Lexeme)
  | nesting (rest : List Lexeme)

/-- A failure in the right operand of an operator is reported as a missing operand. -/
def Failure.inOperand : Failure → Failure
  | .missing _ rest => .missing .operand rest
  | .nesting rest => .nesting rest

/-- A subtree read from the front of an input, and the input after it. -/
structure Parsed (input : List Lexeme) where
  subtree : Subtree
  rest : List Lexeme
  shorter : rest.length < input.length

/-- Reads a subtree at the front of an input. -/
abbrev Reader := (input : List Lexeme) → Except Failure (Parsed input)

namespace Subtree

/-- A tree without children. -/
def single (formula : Formula) : Subtree := ⟨formula, 1⟩

/-- Accept a tree unless it is too deep.  The failure stands at the given input. -/
def checked (input : List Lexeme) (formula : Formula) (depth : Nat) :
    Except Failure Subtree :=
  if maximumNesting < depth then .error (.nesting input) else .ok ⟨formula, depth⟩

/-- An operator applied to two subtrees. -/
def ofOperands (input : List Lexeme) (operator : Operator) (left right : Subtree) :
    Except Failure Subtree :=
  checked input (.operation operator [left.formula, right.formula])
    (max left.depth right.depth + 1)

/-- A negated subtree. -/
def negated (input : List Lexeme) (inner : Subtree) : Except Failure Subtree :=
  checked input (.operation .negate [inner.formula]) (inner.depth + 1)

/-- A function call. -/
def ofCall (input : List Lexeme) (function : String) (argument : Subtree) :
    Except Failure Subtree :=
  checked input (.call function argument.formula) (argument.depth + 1)

end Subtree

namespace Reader

/-- Read a construct that may be left out. -/
def optional (reader : Reader) (input : List Lexeme) :
    Except Failure (Option (Parsed input)) :=
  match reader input with
  | .ok parsed => .ok (some parsed)
  | .error (.missing _ _) => .ok none
  | .error (.nesting rest) => .error (.nesting rest)

/-- Extend a left operand by the operators of one precedence that follow it. -/
def extend (operator? : Token → Option Operator) (operand : Reader) (left : Subtree)
    (input : List Lexeme) :
    Except Failure { result : Subtree × List Lexeme //
      result.2.length ≤ input.length } :=
  match input with
  | [] => .ok ⟨(left, []), Nat.le_refl _⟩
  | lexeme :: following =>
      match operator? lexeme.token with
      | none => .ok ⟨(left, lexeme :: following), Nat.le_refl _⟩
      | some operator => do
          let right ← (operand following).mapError Failure.inOperand
          let combined ← Subtree.ofOperands (lexeme :: following) operator left right.subtree
          let result ← extend operator? operand combined right.rest
          .ok ⟨result.val, by
            have := result.property
            have := right.shorter
            simp only [List.length_cons]
            omega⟩
termination_by input.length
decreasing_by
  have := right.shorter
  simp only [List.length_cons]
  omega

/-- Operands joined by operators of one precedence, grouped from the left. -/
def chain (operator? : Token → Option Operator) (operand : Reader) : Reader :=
  fun input => do
    let first ← operand input
    let result ← extend operator? operand first.subtree first.rest
    .ok ⟨result.val.1, result.val.2, by
      have := result.property
      have := first.shorter
      omega⟩

/-- Operators of a product. -/
def multiplicative? : Token → Option Operator
  | .times => some .multiply
  | .over => some .divide
  | _ => none

/-- Operators of a sum. -/
def additive? : Token → Option Operator
  | .plus => some .add
  | .minus => some .subtract
  | _ => none

/-- A sum of products. -/
def sum (unary : Reader) : Reader :=
  chain additive? (chain multiplicative? unary)

/-- A sum in parentheses. -/
def parenthesized (unary : Reader) : Reader
  | ⟨.opening, offset, first⟩ :: following => do
      let inner ← sum unary following
      match closed : inner.rest with
      | ⟨.closing, _, _⟩ :: rest =>
          .ok ⟨inner.subtree, rest, by
            have := inner.shorter
            simp only [closed, List.length_cons] at this ⊢
            omega⟩
      | _ => .error (.missing .expression (⟨.opening, offset, first⟩ :: following))
  | input => .error (.missing .expression input)

/-- A parenthesized sum, a symbol or a call. -/
def juxtaposed (unary : Reader) : Reader
  | ⟨.name name, offset, first⟩ :: following => do
      let input := ⟨.name name, offset, first⟩ :: following
      match ← optional (parenthesized unary) following with
      | some argument =>
          let subtree ← Subtree.ofCall input name argument.subtree
          .ok ⟨subtree, argument.rest, by
            have := argument.shorter
            simp only [List.length_cons]
            omega⟩
      | none => .ok ⟨.single (.symbol name), following, by simp⟩
  | input => do
      match ← optional (parenthesized unary) input with
      | some inner => .ok inner
      | none => .error (.missing .expression input)

/-- A base, raised to the exponent that follows it if there is one. -/
def power (unary base : Reader) : Reader :=
  fun input => do
    let base ← base input
    match caret : base.rest with
    | ⟨.caret, _, _⟩ :: following =>
        match ← optional unary following with
        | some exponent =>
            let subtree ← Subtree.ofOperands input .power base.subtree exponent.subtree
            .ok ⟨subtree, exponent.rest, by
              have := base.shorter
              have := exponent.shorter
              simp only [caret, List.length_cons] at *
              omega⟩
        | none => .ok base
    | _ => .ok base

/-- A number with the factor that follows it, or a construct without a number. -/
def atom (unary : Reader) : Reader
  | ⟨.number value, offset, first⟩ :: following => do
      let input := ⟨.number value, offset, first⟩ :: following
      match ← optional (power unary (juxtaposed unary)) following with
      | some factor =>
          let subtree ← Subtree.ofOperands input .multiply (.single (.constant value))
            factor.subtree
          .ok ⟨subtree, factor.rest, by
            have := factor.shorter
            simp only [List.length_cons]
            omega⟩
      | none => .ok ⟨.single (.constant value), following, by simp⟩
  | input => juxtaposed unary input

/-- Signs in front of a power.  A plus sign leaves no node.  Without a level of
nesting left the position itself is the failure. -/
def unary : (levels : Nat) → Reader
  | 0 => fun input => .error (.nesting input)
  | levels + 1 => fun input =>
      match input with
      | ⟨.minus, offset, first⟩ :: following => do
          let inner ← unary levels following
          let subtree ← Subtree.negated (⟨.minus, offset, first⟩ :: following)
            inner.subtree
          .ok ⟨subtree, inner.rest, by
            have := inner.shorter
            simp only [List.length_cons]
            omega⟩
      | ⟨.plus, _, _⟩ :: following => do
          let inner ← unary levels following
          .ok ⟨inner.subtree, inner.rest, by
            have := inner.shorter
            simp only [List.length_cons]
            omega⟩
      | input => power (unary levels) (atom (unary levels)) input

/-- The outermost sum.  It is enclosed by nothing, so the limit itself is still
accepted. -/
def top : Reader := sum (unary (maximumNesting + 1))

end Reader

/-- Byte offset at which the remaining input starts. -/
def offsetOf (text : String) : (rest : List Lexeme) → Nat
  | [] => text.utf8ByteSize
  | lexeme :: _ => lexeme.offset

/-- Read a complete formula. -/
def parse (text : String) : Except FormulaError Formula :=
  match Reader.top (lexemes text) with
  | .ok parsed =>
      match parsed.rest with
      | [] => .ok parsed.subtree.formula
      | lexeme :: _ => .error (.malformed lexeme.offset (.unexpected lexeme.first))
  | .error (.missing fault rest) => .error (.malformed (offsetOf text rest) fault)
  | .error (.nesting rest) => .error (.malformed (offsetOf text rest) .nesting)

end Stereograph.Formula
