import Stereograph.Proofs.Formula.Mentions
import Stereograph.Proofs.Shader.Generated
import Stereograph.Shader.Program

/-!
# Variables of shader code

The variables of a text can be told from its words alone: a word that a parenthesis follows
names a function and a word after a point names components.  For every text that derives an
expression they are the variables that the expression reads.

Generated code reads the symbols that its formula mentions.  So the critical point, which must
not mention the iterated point, reads the parameter only, and so does the dynamical sphere's
parameter, which is affine.  The statements in front of the escape loop then read no variable
before its declaration.
-/

namespace Stereograph.Shader

open Decimal Formula

/-! ## Words -/

/-- The variable that a word is, between the characters around it. -/
def wordVariable (before : Char) (word : List Char) (after : Char) : List String :=
  match word with
  | [] => []
  | first :: rest =>
      if isNameStart first && before != '.' && after != '(' then
        [String.ofList (first :: rest)]
      else []

/-- The variables of a text between two characters.  The word at its front has begun
already. -/
def variablesBetween (before : Char) (word : List Char) (after : Char) :
    List Char → List String
  | [] => wordVariable before word after
  | character :: rest =>
      if isNamePart character then variablesBetween before (word ++ [character]) after rest
      else wordVariable before word character ++ variablesBetween character [] after rest

/-- The variables of a text. -/
def variablesOf (code : String) : List String :=
  variablesBetween ' ' [] ' ' code.toList

section Words

variable {before after : Char} {word : List Char}

@[simp] theorem wordVariable_nil : wordVariable before [] after = [] :=
  rfl

/-- A word after a point names components. -/
@[simp] theorem wordVariable_point : wordVariable '.' word after = [] := by
  cases word <;> simp [wordVariable]

/-- A word before a parenthesis names a function. -/
@[simp] theorem wordVariable_parenthesis : wordVariable before word '(' = [] := by
  cases word <;> simp [wordVariable]

theorem wordVariable_digits {digits : List Char}
    (isDigit : ∀ digit ∈ digits, digit.isDigit = true) :
    wordVariable before digits after = [] := by
  cases digits with
  | nil => rfl
  | cons first rest =>
      have notStart : isNameStart first = false := by
        by_contra start
        have digit := isDigit first List.mem_cons_self
        rw [isDigit_of_isNameStart (Bool.eq_true_of_not_eq_false start)] at digit
        cases digit
      simp [wordVariable, notStart]

theorem wordVariable_name {name : String} (isName : IsName name) (notPoint : before ≠ '.')
    (notOpening : after ≠ '(') : wordVariable before name.toList after = [name] := by
  obtain ⟨first, rest, text, start, -⟩ := isName
  have same : String.ofList (first :: rest) = name := by rw [← text, String.ofList_toList]
  simp [text, wordVariable, start, notPoint, notOpening, same]

theorem variablesBetween_word {text : List Char}
    (isPart : ∀ character ∈ text, isNamePart character = true) :
    variablesBetween before word after text = wordVariable before (word ++ text) after := by
  induction text generalizing word with
  | nil => simp [variablesBetween]
  | cons character rest ih =>
      obtain ⟨part, others⟩ := List.forall_mem_cons.mp isPart
      simp [variablesBetween, part, ih others]

/-- A character that is in no name separates the variables of a text. -/
theorem variablesBetween_separated {left right : List Char} {mark : Char}
    (other : isNamePart mark = false) :
    variablesBetween before word after (left ++ mark :: right) =
      variablesBetween before word mark left ++ variablesBetween mark [] after right := by
  -- The word that has begun grows along the text, so it varies in the induction.
  induction left generalizing before word with
  | nil => simp [variablesBetween, other]
  | cons character rest ih =>
      simp only [List.cons_append, variablesBetween, ih]
      split
      · rfl
      · rw [List.append_assoc]

theorem variablesBetween_mark {text : List Char} {mark : Char}
    (other : isNamePart mark = false) :
    variablesBetween before [] after (mark :: text) = variablesBetween mark [] after text := by
  simp [variablesBetween, other]

end Words

/-! ## Variables of texts that derive expressions -/

theorem variablesBetween_name {before after : Char} {name : String} (isName : IsName name) :
    variablesBetween before [] after name.toList = wordVariable before name.toList after :=
  variablesBetween_word fun _ member => isNamePart_of_mem isName member

theorem isNamePart_of_isDigit {digit : Char} (isDigit : digit.isDigit = true) :
    isNamePart digit = true := by
  simp [isNamePart, Char.isAlphanum, isDigit]

theorem variablesBetween_digits {before after : Char} {digits : List Char}
    (isDigit : ∀ digit ∈ digits, digit.isDigit = true) :
    variablesBetween before [] after digits = [] := by
  rw [variablesBetween_word fun digit member => isNamePart_of_isDigit (isDigit digit member)]
  exact wordVariable_digits isDigit

/-- After a point an exponent continues the word of digits, up to its sign. -/
theorem variablesBetween_exponent {after : Char} {fraction text : List Char} {exponent : Int}
    (isDigit : ∀ digit ∈ fraction, digit.isDigit = true)
    (spelled : SpellsExponent text exponent) :
    variablesBetween '.' [] after (fraction ++ text) = [] := by
  have front : ∀ {mark : Char}, mark = 'e' ∨ mark = 'E' →
      ∀ character ∈ fraction ++ [mark], isNamePart character = true := by
    intro mark isMark character member
    obtain member | member := List.mem_append.mp member
    · exact isNamePart_of_isDigit (isDigit character member)
    · rw [List.mem_singleton.mp member]
      obtain rfl | rfl := isMark <;> rfl
  cases spelled with
  | absent => rw [List.append_nil, variablesBetween_digits isDigit]
  | @unsigned mark digits isMark isDigits =>
      rw [List.append_cons, variablesBetween_word, wordVariable_point]
      intro character member
      obtain member | member := List.mem_append.mp member
      · exact front isMark character member
      · exact isNamePart_of_isDigit (isDigits.isDigit character member)
  | plus isMark isDigits | minus isMark isDigits =>
      rw [List.append_cons, variablesBetween_separated (by decide),
        variablesBetween_word (front isMark), wordVariable_point,
        variablesBetween_digits isDigits.isDigit, List.append_nil]

theorem variablesBetween_literal {before after : Char} {text : List Char} {value : Float}
    (literal : IsLiteral text value) : variablesBetween before [] after text = [] := by
  obtain ⟨numeral, spelled⟩ := literal.spells
  have point := literal.1
  cases spelled with
  | whole isDigits tail =>
      obtain inside | inside := List.mem_append.mp point
      · cases isExponentPart_of_isDigits isDigits inside
      · cases isExponentPart_of_spellsExponent tail inside
  | pointed isDigits tail =>
      have isDigit := isDigits.isDigit
      rw [variablesBetween_separated (by decide),
        variablesBetween_digits fun digit member => isDigit digit (List.mem_append_left _ member),
        variablesBetween_exponent
          (fun digit member => isDigit digit (List.mem_append_right _ member)) tail,
        List.append_nil]

-- The characters around a text vary with the rule: each phrase is scanned up to the operator,
-- comma or parenthesis that its rule puts after it.
mutual
/-- The variables of a text are those that its expression reads. -/
theorem Derives.variablesBetween_eq {phrase : Phrase} {text : List Char} {expression : Expression} :
    Derives phrase text expression → ∀ {before after : Char}, before ≠ '.' → after ≠ '(' →
      variablesBetween before [] after text = expression.references
  | .blankBefore inner, _, _, _, notOpening => by
      rw [variablesBetween_mark (by decide), inner.variablesBetween_eq (by decide) notOpening]
  | .blankAfter inner, _, _, notPoint, _ => by
      rw [variablesBetween_separated (by decide), inner.variablesBetween_eq notPoint (by decide)]
      exact List.append_nil _
  | .quotient inner, _, _, notPoint, notOpening => inner.variablesBetween_eq notPoint notOpening
  | .add left right, _, _, notPoint, notOpening => by
      rw [variablesBetween_separated (by decide), left.variablesBetween_eq notPoint (by decide),
        right.variablesBetween_eq (by decide) notOpening, Expression.references]
  | .signed inner, _, _, notPoint, notOpening => inner.variablesBetween_eq notPoint notOpening
  | .divide left right, _, _, notPoint, notOpening => by
      rw [variablesBetween_separated (by decide), left.variablesBetween_eq notPoint (by decide),
        right.variablesBetween_eq (by decide) notOpening, Expression.references]
  | .selection inner, _, _, notPoint, notOpening => inner.variablesBetween_eq notPoint notOpening
  | .opposite inner, _, _, _, notOpening => by
      rw [variablesBetween_mark (by decide), inner.variablesBetween_eq (by decide) notOpening,
        Expression.references]
  | .primary inner, _, _, notPoint, notOpening => inner.variablesBetween_eq notPoint notOpening
  | .select inner isName, _, _, notPoint, _ => by
      rw [variablesBetween_separated (by decide), inner.variablesBetween_eq notPoint (by decide),
        variablesBetween_name isName, wordVariable_point, List.append_nil, Expression.references]
  | .reference isName, _, _, notPoint, notOpening => by
      rw [variablesBetween_name isName, wordVariable_name isName notPoint notOpening,
        Expression.references]
  | .number literal, _, _, _, _ => by
      rw [variablesBetween_literal literal, Expression.references]
  | .parenthesized inner, _, _, _, _ => by
      rw [List.cons_append, variablesBetween_mark (by decide),
        variablesBetween_separated (by decide), inner.variablesBetween_eq (by decide) (by decide)]
      exact List.append_nil _
  | .call isName arguments, _, _, _, _ => by
      rw [List.append_assoc, List.cons_append, variablesBetween_separated (by decide),
        variablesBetween_name isName, wordVariable_parenthesis,
        variablesBetween_separated (by decide),
        arguments.variablesBetween_eq (by decide) (by decide), Expression.references]
      exact List.append_nil _

/-- The variables of a text are those that its list of expressions reads. -/
theorem DerivesAll.variablesBetween_eq {text : List Char} {expressions : List Expression} :
    DerivesAll text expressions → ∀ {before after : Char}, before ≠ '.' → after ≠ '(' →
      variablesBetween before [] after text = Expression.allReferences expressions
  | .one inner, _, _, notPoint, notOpening => by
      rw [inner.variablesBetween_eq notPoint notOpening, Expression.allReferences,
        Expression.allReferences, List.append_nil]
  | .more first others, _, _, notPoint, notOpening => by
      rw [variablesBetween_separated (by decide), first.variablesBetween_eq notPoint (by decide),
        others.variablesBetween_eq (by decide) notOpening, Expression.allReferences]
end

/-! ## Variables of generated code -/

/-- A chain reads what its base and the expression at its start read. -/
theorem mem_references_chainExpression {function name : String} {base product : Expression}
    {count : Nat} (member : name ∈ (chainExpression function base count product).references) :
    name ∈ base.references ∨ name ∈ product.references := by
  induction count generalizing product with
  | zero => exact .inr member
  | succ count ih =>
      obtain inBase | inCall := ih member
      · exact .inl inBase
      · have split : name ∈ product.references ∨ name ∈ base.references := by
          simpa [Expression.references, Expression.allReferences] using inCall
        exact split.symm

theorem references_symbolExpression {arithmetic : Arithmetic} {name : String} {symbol : Symbol}
    (known : arithmetic.symbol? name = some symbol) :
    ∀ read ∈ (symbolExpression arithmetic symbol).references, read = name := by
  obtain rfl | ⟨rfl, rfl⟩ | ⟨rfl, rfl⟩ := Arithmetic.cases_of_symbol? known <;>
    cases arithmetic <;>
      simp [symbolExpression, Expression.references, Expression.allReferences]

/-- An expansion reads only what its formula mentions. -/
theorem mentions_of_mem_references {arithmetic : Arithmetic} {formula : Formula}
    {expression : Expression} (expands : Expands arithmetic formula expression) :
    ∀ name ∈ expression.references, formula.mentions name = true := by
  intro name member
  induction expands with
  | negation _ ih | call _ _ ih =>
      simpa using ih (by simpa [Expression.references, Expression.allReferences] using member)
  | whole _ _ ih =>
      have inBase := (mem_references_chainExpression member).elim id id
      simp [ih inBase]
  | real _ _ ih =>
      simp only [Expression.references, Expression.allReferences,
        Generated.references_constantExpression, List.append_nil] at member
      simp [ih member]
  | binary _ _ _ leftIH rightIH =>
      simp only [Expression.references, Expression.allReferences, List.append_nil,
        List.mem_append] at member
      obtain inLeft | inRight := member
      · simp [leftIH inLeft]
      · simp [rightIH inRight]
  | symbol known => simp [references_symbolExpression known name member]
  | constant finite =>
      rw [Generated.references_constantExpression] at member
      cases member

/-- A formula with an expansion mentions only symbols of its arithmetic. -/
theorem symbol?_ne_none_of_mentions {arithmetic : Arithmetic} {formula : Formula}
    {expression : Expression} (expands : Expands arithmetic formula expression) {name : String}
    (mentioned : formula.mentions name = true) : arithmetic.symbol? name ≠ none := by
  induction expands with
  | negation _ ih | call _ _ ih => exact ih (by simpa using mentioned)
  | whole classified _ ih | real classified _ ih =>
      exact ih (by simpa [mentions_of_exponent classified] using mentioned)
  | binary _ _ _ leftIH rightIH =>
      simp only [mentions_operation, anyMentions_cons, anyMentions_nil, Bool.or_false,
        Bool.or_eq_true] at mentioned
      exact mentioned.elim leftIH rightIH
  | symbol known =>
      rw [mentions_symbol, beq_iff_eq] at mentioned
      rw [← mentioned, known]
      exact Option.some_ne_none _
  | constant _ => cases mentioned

/-- Whether a code reads in one way only, and then no variable outside of a list. -/
structure OnlyReads (names : List String) (code : String) : Prop where
  /-- The words that look like variables are those that the only reading refers to. -/
  reading : ∃ expression : Expression,
    (∀ other, Derives .sum code.toList other ↔ other = expression) ∧
      expression.references = variablesOf code
  among : ∀ name ∈ variablesOf code, name ∈ names

/-- Code of a formula that does not mention the iterated point reads the parameter only. -/
theorem onlyReads_of_formulaCode {arithmetic : Arithmetic} {formula : Formula} {code : String}
    (absent : formula.mentions "z" = false)
    (accepted : formulaCode arithmetic formula = .ok code) : OnlyReads ["c"] code := by
  obtain ⟨-, -, expression, expanded, rfl⟩ := exists_expand_of_formulaCode accepted
  have generated : Generated arithmetic expression := .of_expand expanded
  have unique := generated.derives_write_iff
  have sameNames : variablesOf expression.write = expression.references :=
    ((unique expression).mpr rfl).variablesBetween_eq (by decide) (by decide)
  refine ⟨⟨expression, unique, sameNames.symm⟩, fun name member => ?_⟩
  rw [sameNames] at member
  obtain rfl | rfl := generated.references name member
  · rw [mentions_of_mem_references (.of_expand expanded) _ member] at absent
    cases absent
  · exact List.mem_singleton_self _

/-- A formula that is accepted in affine arithmetic does not mention the iterated point. -/
theorem not_mentions_of_affine {formula : Formula} {code : String}
    (accepted : formulaCode .affine formula = .ok code) : formula.mentions "z" = false := by
  obtain ⟨-, -, expression, expanded, -⟩ := exists_expand_of_formulaCode accepted
  have unknown : Arithmetic.affine.symbol? "z" = none := by simp [Arithmetic.symbol?]
  by_contra mentioned
  exact symbol?_ne_none_of_mentions (.of_expand expanded)
    (Bool.eq_true_of_not_eq_false mentioned) unknown

/-! ## Declarations before uses -/

/-- Lines of statements that read only variables in scope.  A declaration brings its variable
into scope for the lines after it. -/
inductive WellScoped : (scope lines : List String) → Prop
  | finished {scope} : WellScoped scope []
  | declaration {scope rest name value} (isName : IsName name)
      (inScope : ∀ read ∈ variablesOf value, read ∈ scope) :
      WellScoped (name :: scope) rest →
      WellScoped scope (("  vec4 " ++ name ++ " = " ++ value ++ ";") :: rest)
  | assignment {scope rest name value} (isName : IsName name) (declared : name ∈ scope)
      (inScope : ∀ read ∈ variablesOf value, read ∈ scope) :
      WellScoped scope rest →
      WellScoped scope (("  " ++ name ++ " = " ++ value ++ ";") :: rest)

/-- The inputs of a fragment shader that the starts of its orbits are computed from. -/
def orbitInputs : List String :=
  ["localPos", "uMobiusMatrix", "uParameter"]

theorem variablesOf_surfacePoint :
    variablesOf surfacePoint = ["uMobiusMatrix", "localPos", "localPos"] := by
  decide +kernel

/-- The homogeneous coordinate of a complex number reads what the number reads. -/
theorem variablesOf_normalize {names : List String} {code : String}
    (onlyReads : OnlyReads names code) :
    variablesOf ("normalize(vec4(" ++ code ++ ", 1.0, 0.0))") = variablesOf code := by
  obtain ⟨expression, unique, sameNames⟩ := onlyReads.reading
  have derives := (unique expression).mpr rfl
  have isVector : IsName "vec4" := ⟨'v', _, rfl, rfl, rfl⟩
  have isNormalize : IsName "normalize" := ⟨'n', _, rfl, rfl, rfl⟩
  have vector := Derives.call isVector (.more derives (.more Generated.derives_one.blankBefore
    (.one Generated.derives_zero.blankBefore)))
  have normalized := Derives.call isNormalize (.one vector.primary.selection.signed.quotient)
  have text : variablesBetween ' ' [] ' ' _ = _ :=
    normalized.variablesBetween_eq (by decide) (by decide)
  simpa [variablesOf, Expression.references, Expression.allReferences, sameNames] using text

/-- The parameter is in scope where the critical point is read. -/
theorem wellScoped_parameterStart {fragments : Fragments}
    (onlyReads : OnlyReads ["c"] fragments.criticalPoint) :
    WellScoped orbitInputs (parameterStart fragments) := by
  have isC : IsName "c" := ⟨'c', _, rfl, rfl, rfl⟩
  have isZ : IsName "z" := ⟨'z', _, rfl, rfl, rfl⟩
  refine .declaration isC ?_ (.declaration isZ ?_ .finished)
  · rw [variablesOf_surfacePoint]
    decide
  · intro read member
    rw [List.mem_singleton.mp (onlyReads.among read member)]
    exact List.mem_cons_self

/-- The given parameter is in scope where it is replaced by its image. -/
theorem wellScoped_dynamicalStart {fragments : Fragments}
    (onlyReads : OnlyReads ["c"] fragments.parameter) :
    WellScoped orbitInputs (dynamicalStart fragments) := by
  have isC : IsName "c" := ⟨'c', _, rfl, rfl, rfl⟩
  have isZ : IsName "z" := ⟨'z', _, rfl, rfl, rfl⟩
  have given : "  vec4 c = uParameter;" = "  vec4 " ++ "c" ++ " = " ++ "uParameter" ++ ";" := rfl
  have image : "  c = normalize(vec4(" ++ fragments.parameter ++ ", 1.0, 0.0));" =
      "  " ++ "c" ++ " = " ++ ("normalize(vec4(" ++ fragments.parameter ++ ", 1.0, 0.0))") ++
        ";" := by
    simp [← String.toList_inj]
  rw [dynamicalStart, given, image]
  refine .declaration isZ ?_ (.declaration isC ?_ (.assignment isC List.mem_cons_self ?_ .finished))
  · rw [variablesOf_surfacePoint]
    decide
  · decide +kernel
  · intro read member
    rw [variablesOf_normalize onlyReads] at member
    rw [List.mem_singleton.mp (onlyReads.among read member)]
    exact List.mem_cons_self

/-- The critical point of accepted settings does not mention the iterated point, and both its
code and that of the parameter are generated. -/
theorem exists_of_fragments {settings : Settings} {fragments : Fragments}
    (accepted : settings.fragments = .ok fragments) :
    (∃ critical : Formula, critical.mentions "z" = false ∧
      formulaCode .projective critical = .ok fragments.criticalPoint) ∧
    ∃ parameter : Formula, formulaCode .affine parameter = .ok fragments.parameter := by
  obtain ⟨iteration, -, accepted⟩ := exists_of_bind_ok accepted
  obtain ⟨critical, -, accepted⟩ := exists_of_bind_ok accepted
  split at accepted
  · cases accepted
  · rename_i absent
    obtain ⟨criticalPoint, criticalAccepted, accepted⟩ := exists_of_bind_ok accepted
    obtain ⟨parameter, parameterAccepted, ⟨⟩⟩ := exists_of_bind_ok accepted
    obtain ⟨formula, -, formulaAccepted⟩ := exists_of_bind_ok (eq_ok_of_mapError parameterAccepted)
    exact ⟨⟨critical, Bool.eq_false_of_not_eq_true absent, eq_ok_of_mapError criticalAccepted⟩,
      formula, formulaAccepted⟩

/-- The critical point and the parameter do not depend on the iterated point: not in their
values, not in their code and not in the shaders that are built from them. -/
theorem critical_point_and_parameter_ignore_iterate :
    (∀ formula : Formula, formula.mentions "z" = false →
      (∀ (α : Type) [Scalar α] (first second parameter : Coordinate α),
        formula.pointValue first parameter = formula.pointValue second parameter) ∧
      ∀ code, formulaCode .projective formula = .ok code → OnlyReads ["c"] code) ∧
    (∀ (formula : Formula) (code : String), formulaCode .affine formula = .ok code →
      formula.mentions "z" = false ∧ OnlyReads ["c"] code) ∧
    ∀ (settings : Settings) (fragments : Fragments), settings.fragments = .ok fragments →
      OnlyReads ["c"] fragments.criticalPoint ∧ OnlyReads ["c"] fragments.parameter ∧
        WellScoped orbitInputs (parameterStart fragments) ∧
        WellScoped orbitInputs (dynamicalStart fragments) := by
  have affine : ∀ (formula : Formula) (code : String), formulaCode .affine formula = .ok code →
      formula.mentions "z" = false ∧ OnlyReads ["c"] code := fun formula code accepted =>
    have absent := not_mentions_of_affine accepted
    ⟨absent, onlyReads_of_formulaCode absent accepted⟩
  refine ⟨fun formula absent => ⟨?_, fun code => onlyReads_of_formulaCode absent⟩, affine, ?_⟩
  · intro α _ first second parameter
    exact pointValue_eq_of_not_mentions absent first second parameter
  · intro settings fragments accepted
    obtain ⟨⟨critical, absent, criticalAccepted⟩, parameter, parameterAccepted⟩ :=
      exists_of_fragments accepted
    have criticalReads := onlyReads_of_formulaCode absent criticalAccepted
    have parameterReads := (affine parameter _ parameterAccepted).2
    exact ⟨criticalReads, parameterReads, wellScoped_parameterStart criticalReads,
      wellScoped_dynamicalStart parameterReads⟩

/-- The opposite of the parameter as critical point, in affine code with components that have
the names of variables, and in settings. -/
theorem critical_point_and_parameter_ignore_iterate_opposite :
    let formula : Formula := .operation .negate [.symbol "c"]
    let settings : Settings := { Settings.standard with criticalPoint := "-c" }
    (formula.mentions "z" = false ∧
      formula.pointValue Coordinate.infinity (.imaginaryUnit : Coordinate Float) =
        formula.pointValue .imaginaryUnit .imaginaryUnit) ∧
    (formulaCode .projective formula = .ok "_pOpp(c)" ∧ OnlyReads ["c"] "_pOpp(c)") ∧
    (formulaCode .affine formula = .ok "_cOpp((c.xy / (c.w + c.z)))" ∧
      OnlyReads ["c"] "_cOpp((c.xy / (c.w + c.z)))") ∧
    ∃ fragments, settings.fragments = .ok fragments ∧ fragments.criticalPoint = "_pOpp(c)" ∧
      WellScoped orbitInputs (parameterStart fragments) := by
  intro formula settings
  obtain ⟨independent, affine, compiled⟩ := critical_point_and_parameter_ignore_iterate
  have absent : formula.mentions "z" = false := by decide +kernel
  have shallow : ¬maximumNesting < formula.depth := by decide +kernel
  have projectiveCode : formulaCode .projective formula = .ok "_pOpp(c)" := by
    rw [formulaCode, if_neg shallow]
    rfl
  have affineCode : formulaCode .affine formula = .ok "_cOpp((c.xy / (c.w + c.z)))" := by
    rw [formulaCode, if_neg shallow]
    rfl
  have found : settings.fragments.toOption.map Fragments.criticalPoint = some "_pOpp(c)" := by
    decide +kernel
  obtain ⟨sameValue, sameCode⟩ := independent formula absent
  refine ⟨⟨absent, sameValue Float _ _ _⟩, ⟨projectiveCode, sameCode _ projectiveCode⟩,
    ⟨affineCode, (affine formula _ affineCode).2⟩, ?_⟩
  cases result : settings.fragments with
  | error error =>
      rw [result] at found
      cases found
  | ok fragments =>
      rw [result] at found
      exact ⟨fragments, rfl, Option.some.inj found, (compiled settings fragments result).2.2.1⟩

end Stereograph.Shader
