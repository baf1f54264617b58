import Stereograph.Proofs.Formula.Height
import Stereograph.Proofs.Formula.StatedPower

/-!
# Length of generated code

The generator holds every piece of code to a limit while it is put together, and computes
the length of a chain in machine words before it builds the chain.  Neither refuses too
much or too little: a formula is accepted exactly when the text of its full expansion keeps
to the limit, and the text is its code.
-/

namespace Stereograph.Shader

open Decimal Formula

section Power

variable {exponent : Formula} {value : Float} {count : ℕ}

/-- The expansion of a power has as many copies of its base as the exponent states. -/
theorem expand_power_of_represents (arithmetic : Arithmetic) {base : Formula}
    {operand : Expression} (constant : exponent.asConstant? = some value)
    (represents : Represents value count) (positive : 0 < count)
    (expanded : expand arithmetic base = .ok operand) :
    expand arithmetic (.operation .power [base, exponent]) =
      .ok (chainExpression (operatorName arithmetic .multiply) operand (count - 1) operand) := by
  rw [expand_power, expanded, Exponent.ofFormula_of_represents constant represents positive]
  rfl

end Power

/-- The length of a chain of multiplications. -/
theorem textSize_chainExpression (name : String) (base : Expression) (count : ℕ) :
    (chainExpression name base count base).textSize =
      base.textSize + (name.utf8ByteSize + base.textSize + 4) * count := by
  rw [Expression.textSize, write_chainExpression, utf8ByteSize_multiplyChain]
  rfl

/-- A formula that is not too deep has code exactly when it has an expansion whose text
keeps to the limit, and the code is that text.  The expansion of a power multiplies as many
copies of its base as the exponent states.  The length that is counted in machine words for
a chain is the length of the chain, up to the greatest word, so a chain is refused exactly
when it is too long. -/
theorem code_is_expansion_within_limit (arithmetic : Arithmetic) :
    (∀ (formula : Formula) (code : String), formulaCode arithmetic formula = .ok code ↔
      formula.depth ≤ maximumNesting ∧
        ∃ expansion, expand arithmetic formula = .ok expansion ∧
          expansion.write.utf8ByteSize ≤ FormulaError.maximumCodeLength ∧
          expansion.write = code) ∧
    (∀ (base exponent : Formula) (operand : Expression) (value : Float) (count : ℕ),
      exponent.asConstant? = some value → Represents value count → 0 < count →
      expand arithmetic base = .ok operand →
        expand arithmetic (.operation .power [base, exponent]) =
          .ok (chainExpression (operatorName arithmetic .multiply) operand (count - 1)
            operand)) ∧
    ∀ (base : String) (count : ℕ),
      let name := operatorName arithmetic .multiply
      let chain := multiplyChain name base (count - 1) base
      chainLength base.utf8ByteSize (name.utf8ByteSize + base.utf8ByteSize + 4)
          (min count Exponent.maximumFactors - 1) = min chain.utf8ByteSize maximumWord ∧
        productCode arithmetic base count =
          if FormulaError.maximumCodeLength < chain.utf8ByteSize then .error .codeTooLong
          else .ok chain := by
  refine ⟨?_, ?_, ?_⟩
  · intro formula code
    rw [formulaCode_eq_ok_iff_treeCode, treeCode_eq_ok_iff]
    rfl
  · intro base exponent operand value count constant represents positive expanded
    exact expand_power_of_represents arithmetic constant represents positive expanded
  · intro base count name chain
    rw [productCode_eq, chainLength_eq _ _ _ (by omega), utf8ByteSize_multiplyChain]
    exact ⟨rfl, rfl⟩

/-- The power of `z` with 6554 factors is the greatest that keeps to the limit. -/
theorem code_is_expansion_within_limit_boundary :
    Represents 6554 (6554 : ℕ) ∧ Represents 6555 (6555 : ℕ) ∧
      (∃ code, formulaCode .projective
          (.operation .power [.symbol "z", .constant 6554]) = .ok code ∧
        code.utf8ByteSize = 65531) ∧
      ∀ code, formulaCode .projective
        (.operation .power [.symbol "z", .constant 6555]) ≠ .ok code := by
  have fits : Represents 6554 (6554 : ℕ) := by
    refine ⟨⟨false, 6554 * 2 ^ 40, -40⟩, by decide +kernel, ?_⟩
    norm_num [Binary.value, Binary.magnitude]
  have exceeds : Represents 6555 (6555 : ℕ) := by
    refine ⟨⟨false, 6555 * 2 ^ 40, -40⟩, by decide +kernel, ?_⟩
    norm_num [Binary.value, Binary.magnitude]
  obtain ⟨accepted, powers, -⟩ := code_is_expansion_within_limit .projective
  have symbol : expand .projective (.symbol "z") = .ok (.reference "z") := rfl
  have size : ∀ count, (chainExpression (operatorName .projective .multiply) (.reference "z")
      count (.reference "z")).write.utf8ByteSize = 1 + 10 * count :=
    textSize_chainExpression (operatorName .projective .multiply) (.reference "z")
  have limit : FormulaError.maximumCodeLength = 65536 := rfl
  have short := powers (.symbol "z") (.constant 6554) _ _ _ rfl fits (by decide) symbol
  have long := powers (.symbol "z") (.constant 6555) _ _ _ rfl exceeds (by decide) symbol
  refine ⟨fits, exceeds, ⟨_, (accepted _ _).mpr ⟨?_, _, short, ?_, rfl⟩, ?_⟩, ?_⟩
  · rw [depth_eq_height]
    decide
  · rw [size, limit]
    decide
  · rw [size]
  · intro code written
    obtain ⟨-, expansion, expanded, bound, -⟩ := (accepted _ _).mp written
    have same := Except.ok.inj (long.symm.trans expanded)
    rw [← same, size, limit] at bound
    exact absurd bound (by decide)

end Stereograph.Shader
