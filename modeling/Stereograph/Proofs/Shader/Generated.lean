import Stereograph.Proofs.Shader.Expansion
import Stereograph.Proofs.Shader.Unambiguity
import Stereograph.Shader.Typing

/-!
# Expressions that generated code consists of

Expansions are built from the vectors of constants, the symbols of their arithmetic and
calls of primitives.  Every such expression is well typed, reads no variable but the
point and the parameter, and is the only expression that its text derives.
-/

namespace Stereograph.Shader

open Decimal Formula

/-- The expressions that expansions are made of. -/
inductive Generated (arithmetic : Arithmetic) : Expression → Prop
  | constant {value : Float} (finite : value.isFinite = true) :
      Generated arithmetic (constantExpression arithmetic value)
  | symbol {name : String} {symbol : Symbol} (known : arithmetic.symbol? name = some symbol) :
      Generated arithmetic (symbolExpression arithmetic symbol)
  | negation {operand : Expression} :
      Generated arithmetic operand →
      Generated arithmetic (.call (operatorName arithmetic .negate) [operand])
  | function (function : ElementaryFunction) {operand : Expression} :
      Generated arithmetic operand →
      Generated arithmetic (.call (functionName function) [operand])
  | binary {operator : Operator} {left right : Expression} (binary : operator ≠ .negate) :
      Generated arithmetic left → Generated arithmetic right →
      Generated arithmetic (.call (operatorName arithmetic operator) [left, right])

namespace Generated

variable {arithmetic : Arithmetic}

theorem chain {base product : Expression} (baseGenerated : Generated arithmetic base)
    (generated : Generated arithmetic product) (count : Nat) :
    Generated arithmetic
      (chainExpression (operatorName arithmetic .multiply) base count product) := by
  induction count generalizing product with
  | zero => exact generated
  | succ count ih => exact ih (.binary (by decide) generated baseGenerated)

/-- Every expansion is made of constants, symbols and primitives. -/
theorem of_expands {formula : Formula} {expression : Expression}
    (expands : Expands arithmetic formula expression) : Generated arithmetic expression := by
  induction expands with
  | negation _ ih => exact .negation ih
  | whole _ _ ih => exact chain ih ih _
  | real classified _ ih =>
      exact .binary (by decide) ih (.constant (isFinite_of_exponent classified))
  | binary isBinary _ _ leftIH rightIH => exact .binary isBinary.1 leftIH rightIH
  | call _ _ ih => exact .function _ ih
  | symbol known => exact .symbol known
  | constant finite => exact .constant finite

theorem of_expand {formula : Formula} {expression : Expression}
    (expanded : expand arithmetic formula = .ok expression) :
    Generated arithmetic expression :=
  of_expands (.of_expand expanded)

/-! ## Types and variables -/

theorem affine_symbol?_ne_iterate (name : String) :
    Arithmetic.affine.symbol? name ≠ some .iterate := by
  unfold Arithmetic.symbol?
  split_ifs <;> simp

theorem type?_ofFloat (value : Float) : (Expression.ofFloat value).type? = some .scalar := by
  unfold Expression.ofFloat
  split <;> rfl

theorem callType?_unary (arithmetic : Arithmetic) {name : String}
    (declared : name = operatorName arithmetic .negate ∨
      ∃ function, name = functionName function) :
    callType? name [valueType arithmetic] = some (valueType arithmetic) := by
  obtain rfl | ⟨function, rfl⟩ := declared
  · cases arithmetic <;> rfl
  · cases arithmetic <;> cases function <;> rfl

theorem callType?_binary (arithmetic : Arithmetic) {operator : Operator}
    (binary : operator ≠ .negate) :
    callType? (operatorName arithmetic operator)
      [valueType arithmetic, valueType arithmetic] = some (valueType arithmetic) := by
  cases operator with
  | negate => exact (binary rfl).elim
  | add | subtract | multiply | divide | power => cases arithmetic <;> rfl

/-- Generated expressions have the type of their arithmetic. -/
theorem type? {expression : Expression} (generated : Generated arithmetic expression) :
    expression.type? = some (valueType arithmetic) := by
  induction generated with
  | constant _ =>
      cases arithmetic <;>
        simp [constantExpression, Expression.type?, Expression.types?, type?_ofFloat] <;> rfl
  | @symbol name symbol known =>
      cases arithmetic with
      | projective => cases symbol <;> rfl
      | affine =>
          cases symbol with
          | imaginaryUnit | parameter => rfl
          | iterate => exact (affine_symbol?_ne_iterate name known).elim
  | negation _ ih =>
      simp [Expression.type?, Expression.types?, ih, callType?_unary]
  | function function _ ih =>
      simp [Expression.type?, Expression.types?, ih, callType?_unary]
  | binary binary _ _ leftIH rightIH =>
      simp [Expression.type?, Expression.types?, leftIH, rightIH, callType?_binary, binary]

theorem references_constantExpression (arithmetic : Arithmetic) (value : Float) :
    (constantExpression arithmetic value).references = [] := by
  have literal : (Expression.ofFloat value).references = [] := by
    unfold Expression.ofFloat
    split <;> rfl
  cases arithmetic <;>
    simp [constantExpression, Expression.references, Expression.allReferences, literal]

/-- Generated expressions read the point and the parameter and nothing else. -/
theorem references {expression : Expression} (generated : Generated arithmetic expression) :
    ∀ name ∈ expression.references, name = "z" ∨ name = "c" := by
  induction generated with
  | constant _ => simp [references_constantExpression]
  | @symbol _ symbol _ =>
      cases arithmetic <;> cases symbol <;>
        simp [symbolExpression, Expression.references, Expression.allReferences]
  | negation _ ih | function function _ ih =>
      simpa [Expression.references, Expression.allReferences] using ih
  | binary _ _ _ leftIH rightIH =>
      intro name member
      simp only [Expression.references, Expression.allReferences, List.append_nil,
        List.mem_append] at member
      exact member.elim (leftIH name) (rightIH name)

/-! ## Texts -/

theorem isName_operatorName (arithmetic : Arithmetic) (operator : Operator) :
    IsName (operatorName arithmetic operator) := by
  cases arithmetic <;> cases operator <;> exact ⟨'_', _, rfl, rfl, rfl⟩

theorem isName_functionName (function : ElementaryFunction) :
    IsName (functionName function) := by
  cases function <;> exact ⟨'_', _, rfl, rfl, rfl⟩

theorem derives_literal {value : Float} (finite : value.isFinite = true) :
    Derives .sum (literalText value).toList (.ofFloat value) := by
  obtain ⟨number, finite⟩ := Binary.isFinite_iff.mp finite
  unfold Expression.ofFloat
  rw [Binary.testBit_of_ofFloat? finite]
  cases sign : number.negative with
  | false =>
      have literal := isLiteral_literalText finite sign
      exact (Derives.number literal).primary.selection.signed.quotient
  | true =>
      have positive : number.opposite.negative = false := by simp [Binary.opposite, sign]
      have literal := isLiteral_literalText (Binary.ofFloat?_neg finite) positive
      rw [literalText_of_negative finite sign, String.toList_append]
      exact (Derives.number literal).primary.selection.opposite.signed.quotient

theorem derives_zero : Derives .sum "0.0".toList (.number 0) := by
  have literal : Derives .sum (literalText 0).toList (.ofFloat 0) := derives_literal rfl
  rwa [literalText_zero] at literal

theorem derives_one : Derives .sum "1.0".toList (.number 1) := by
  have literal : Derives .sum (literalText 1).toList (.ofFloat 1) := derives_literal rfl
  rwa [literalText_one] at literal

theorem derives_callCode {name code : String} {argument : Expression} (isName : IsName name)
    (derives : Derives .sum code.toList argument) :
    Derives .primary (callCode name code).toList (.call name [argument]) := by
  simpa [callCode] using Derives.call isName (.one derives)

theorem derives_callCode₂ {name leftCode rightCode : String} {left right : Expression}
    (isName : IsName name) (leftDerives : Derives .sum leftCode.toList left)
    (rightDerives : Derives .sum rightCode.toList right) :
    Derives .primary (callCode₂ name leftCode rightCode).toList
      (.call name [left, right]) := by
  simpa [callCode₂] using
    Derives.call isName (.more leftDerives (.one rightDerives.blankBefore))

theorem derives_vec4 {xText yText zText wText : List Char} {x y z w : Expression}
    (xDerives : Derives .sum xText x) (yDerives : Derives .sum yText y)
    (zDerives : Derives .sum zText z) (wDerives : Derives .sum wText w) :
    Derives .primary
      ("vec4(".toList ++ xText ++ ", ".toList ++ yText ++ ", ".toList ++ zText ++
        ", ".toList ++ wText ++ ")".toList)
      (.call "vec4" [x, y, z, w]) := by
  have isName : IsName "vec4" := ⟨'v', _, rfl, rfl, rfl⟩
  simpa using Derives.call isName (.more xDerives (.more yDerives.blankBefore
    (.more zDerives.blankBefore (.one wDerives.blankBefore))))

/-- The text of a constant derives its vector. -/
theorem derives_constant (arithmetic : Arithmetic) {value : Float}
    (finite : value.isFinite = true) :
    Derives .primary (constantCode arithmetic value).toList
      (constantExpression arithmetic value) := by
  cases arithmetic with
  | projective =>
      simpa [constantCode, constantExpression] using
        derives_vec4 (derives_literal finite) derives_zero derives_one derives_zero
  | affine =>
      have isName : IsName "vec2" := ⟨'v', _, rfl, rfl, rfl⟩
      simpa [constantCode, constantExpression, callCode₂] using
        derives_callCode₂ isName (derives_literal finite) derives_zero

/-- The text of a symbol derives its expression. -/
theorem derives_symbol (arithmetic : Arithmetic) (symbol : Symbol) :
    Derives .primary (symbolCode arithmetic symbol).toList
      (symbolExpression arithmetic symbol) := by
  have isC : IsName "c" := ⟨'c', _, rfl, rfl, rfl⟩
  have isZ : IsName "z" := ⟨'z', _, rfl, rfl, rfl⟩
  have component : ∀ {letters : String}, IsName letters →
      Derives .signed ('c' :: '.' :: letters.toList)
        (.components (.reference "c") letters) :=
    fun isName => ((Derives.reference isC).primary.select isName).selection
  cases symbol with
  | imaginaryUnit =>
      cases arithmetic with
      | projective =>
          simpa [symbolCode, symbolExpression] using
            derives_vec4 derives_zero derives_one derives_one derives_zero
      | affine =>
          have isName : IsName "vec2" := ⟨'v', _, rfl, rfl, rfl⟩
          simpa [symbolCode, symbolExpression, callCode₂] using
            derives_callCode₂ isName derives_zero derives_one
  | iterate => cases arithmetic <;> exact .reference isZ
  | parameter =>
      cases arithmetic with
      | projective => exact .reference isC
      | affine =>
          have isXY : IsName "xy" := ⟨'x', _, rfl, rfl, rfl⟩
          have isW : IsName "w" := ⟨'w', _, rfl, rfl, rfl⟩
          have isZ : IsName "z" := ⟨'z', _, rfl, rfl, rfl⟩
          have denominator := (component isW).signed.blankAfter.quotient.add
            (component isZ).signed.blankBefore
          have quotient := (component isXY).signed.blankAfter.divide
            denominator.parenthesized.primary.selection.blankBefore
          simpa [symbolCode, symbolExpression] using quotient.quotient.parenthesized

/-- The text of a generated expression derives the expression. -/
theorem derives_write {expression : Expression}
    (generated : Generated arithmetic expression) :
    Derives .primary expression.write.toList expression := by
  induction generated with
  | constant finite =>
      rw [write_constantExpression arithmetic finite]
      exact derives_constant arithmetic finite
  | symbol _ =>
      rw [write_symbolExpression]
      exact derives_symbol arithmetic _
  | negation _ ih =>
      rw [Expression.write_call_one]
      exact derives_callCode (isName_operatorName arithmetic _)
        ih.primary.selection.signed.quotient
  | function function _ ih =>
      rw [Expression.write_call_one]
      exact derives_callCode (isName_functionName function)
        ih.primary.selection.signed.quotient
  | binary _ _ _ leftIH rightIH =>
      rw [Expression.write_call_two]
      exact derives_callCode₂ (isName_operatorName arithmetic _)
        leftIH.primary.selection.signed.quotient rightIH.primary.selection.signed.quotient

theorem plainExponents_of_not_mem {text : List Char} (absent : '+' ∉ text) :
    PlainExponents text := by
  rintro front mark back rfl
  exact (absent (by simp)).elim

theorem plainExponents_plus {rest : List Char} (absent : '+' ∉ rest) :
    PlainExponents ('+' :: rest) := by
  intro front mark back same
  cases front with
  | nil =>
      obtain ⟨rfl, rfl⟩ := List.cons_eq_cons.mp same
      exact (absent List.mem_cons_self).elim
  | cons first front =>
      obtain ⟨-, rfl⟩ := List.cons_eq_cons.mp same
      exact (absent (by simp)).elim

/-- A character that is no part of an exponent separates exponents. -/
theorem plainExponents_joined {left right : List Char} {separator : Char}
    (leftPlain : PlainExponents left) (rightPlain : PlainExponents right)
    (other : isExponentPart separator = false) :
    PlainExponents (left ++ separator :: right) := by
  have separates : separator ≠ 'e' ∧ separator ≠ 'E' := by
    constructor <;> rintro rfl <;> cases other
  intro front mark back same
  obtain ⟨middle, rfl, rest⟩ | ⟨middle, rfl, rest⟩ := List.append_eq_append_iff.mp same
  · cases middle with
    | nil =>
        obtain ⟨rfl, -⟩ := List.cons_eq_cons.mp rest
        exact separates
    | cons first middle =>
        obtain ⟨rfl, rfl⟩ := List.cons_eq_cons.mp rest
        exact rightPlain middle mark back rfl
  · cases middle with
    | nil =>
        obtain ⟨rfl, -⟩ := List.cons_eq_cons.mp rest
        exact separates
    | cons first middle =>
        obtain ⟨rfl, following⟩ := List.cons_eq_cons.mp rest
        clear rest
        cases middle with
        | nil =>
            obtain ⟨rfl, -⟩ := List.cons_eq_cons.mp following
            cases other
        | cons second middle =>
            obtain ⟨rfl, -⟩ := List.cons_eq_cons.mp following
            exact leftPlain front mark middle rfl

theorem plainExponents_symbolCode (arithmetic : Arithmetic) (symbol : Symbol) :
    PlainExponents (symbolCode arithmetic symbol).toList := by
  cases arithmetic with
  | projective =>
      refine plainExponents_of_not_mem ?_
      cases symbol <;> simp [symbolCode]
  | affine =>
      cases symbol with
      | imaginaryUnit | iterate => exact plainExponents_of_not_mem (by simp [symbolCode])
      | parameter =>
          have sum : PlainExponents ('+' :: " c.z))".toList) :=
            plainExponents_plus (by simp)
          have front : PlainExponents "(c.xy / (c.w".toList :=
            plainExponents_of_not_mem (by simp)
          simpa [symbolCode] using
            plainExponents_joined front sum (by decide : isExponentPart ' ' = false)

theorem plus_not_mem_literalText {value : Float} (finite : value.isFinite = true) :
    '+' ∉ (literalText value).toList := by
  obtain ⟨number, finite⟩ := Binary.isFinite_iff.mp finite
  have positive : ∀ {value number}, Binary.ofFloat? value = some number →
      number.negative = false → '+' ∉ (literalText value).toList := by
    intro value number finite sign member
    obtain ⟨whole, fraction, text, pointed, -⟩ := exists_literalText finite sign
    rw [text] at member
    obtain inside | inside := List.mem_append.mp member
    · simpa using pointed.isDigit _ (List.mem_append_left _ inside)
    obtain point | inside := List.mem_cons.mp inside
    · cases point
    · simpa using pointed.isDigit _ (List.mem_append_right _ inside)
  cases sign : number.negative with
  | false => exact positive finite sign
  | true =>
      rw [literalText_of_negative finite sign, String.toList_append]
      simpa using positive (Binary.ofFloat?_neg finite) (by simp [Binary.opposite, sign])

/-- Generated code has no exponent with a plus sign. -/
theorem plainExponents_write {expression : Expression}
    (generated : Generated arithmetic expression) :
    PlainExponents expression.write.toList := by
  have nil : PlainExponents [] := plainExponents_of_not_mem (by simp)
  have name : ∀ {name : String}, IsName name → PlainExponents name.toList := fun isName =>
    plainExponents_of_not_mem (not_mem_name isName (by decide))
  have call : ∀ {name code : String}, IsName name → PlainExponents code.toList →
      PlainExponents (callCode name code).toList := by
    intro function code isName plain
    have inner := plainExponents_joined plain nil (by decide : isExponentPart ')' = false)
    simpa [callCode] using
      plainExponents_joined (name isName) inner (by decide : isExponentPart '(' = false)
  induction generated with
  | @constant value finite =>
      rw [write_constantExpression arithmetic finite]
      have literal := plus_not_mem_literalText finite
      refine plainExponents_of_not_mem ?_
      cases arithmetic <;> simp [constantCode, literal]
  | @symbol _ symbol _ =>
      rw [write_symbolExpression]
      exact plainExponents_symbolCode arithmetic symbol
  | negation _ ih =>
      rw [Expression.write_call_one]
      exact call (isName_operatorName arithmetic _) ih
  | function function _ ih =>
      rw [Expression.write_call_one]
      exact call (isName_functionName function) ih
  | @binary operator left right _ _ _ leftIH rightIH =>
      have arguments : PlainExponents
          (String.ofList (left.write.toList ++ ',' :: ' ' :: right.write.toList)).toList := by
        rw [String.toList_ofList]
        exact plainExponents_joined leftIH
          (plainExponents_joined nil rightIH (by decide : isExponentPart ' ' = false))
          (by decide : isExponentPart ',' = false)
      rw [Expression.write_call_two]
      simpa [callCode, callCode₂] using call (isName_operatorName arithmetic operator) arguments

/-- The text of a generated expression reads in one way only. -/
theorem derives_write_iff {expression : Expression}
    (generated : Generated arithmetic expression) (other : Expression) :
    Derives .sum expression.write.toList other ↔ other = expression := by
  have derives : Derives .sum expression.write.toList expression :=
    generated.derives_write.primary.selection.signed.quotient
  constructor
  · intro otherDerives
    exact derives.unique generated.plainExponents_write otherDerives
  · rintro rfl
    exact derives

end Generated

end Stereograph.Shader
