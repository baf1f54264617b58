import Stereograph.Json.Quoted

/-!
# Quoted strings read back

Every character is written as one piece: itself, a short escape or an escaped code unit.
An escaped unit belongs to a control character, which is no half of a surrogate pair, so
the pieces of a text are assembled to the characters that they were written for.
-/

namespace Stereograph.Json.Quoted

theorem hexValue?_hexDigit {value : Nat} (small : value < 16) :
    hexValue? (hexDigit value) = some value := by
  have every : ∀ digit : Fin 16, hexValue? (hexDigit digit) = some digit.val := by decide
  exact every ⟨value, small⟩

/-- The three forms in which a character is written, and the piece that each reads as. -/
inductive Escaped (character : Char) : List Char → Piece → Prop
  | short {letter : Char} (named : shortEscape? letter = some character)
      (notUnit : letter ≠ 'u') : Escaped character ['\\', letter] (.character character)
  | unit (control : character.toNat < 0x20) :
      Escaped character
        ['\\', 'u', '0', '0', hexDigit (character.toNat / 16), hexDigit (character.toNat % 16)]
        (.unit character.toNat)
  | plain (notMark : character ≠ '"') (notEscape : character ≠ '\\')
      (printable : ¬character.toNat < 0x20) : Escaped character [character] (.character character)

theorem exists_escaped (character : Char) :
    ∃ piece, Escaped character (escape character) piece := by
  unfold escape
  split
  case h_8 notMark notEscape _ _ _ _ _ =>
    by_cases control : character.toNat < 0x20
    · simp only [control, if_true]
      exact ⟨_, .unit control⟩
    · simp only [control, if_false]
      exact ⟨_, .plain notMark notEscape control⟩
  all_goals exact ⟨_, .short rfl (by decide)⟩

/-- A written character is read as one piece. -/
theorem Escaped.pieces?_append {character : Char} {written : List Char} {piece : Piece}
    (escaped : Escaped character written piece) (rest : List Char) :
    pieces? (written ++ rest) =
      (pieces? rest).map fun found => (piece :: found.1, found.2 + written.length) := by
  cases escaped with
  | @short letter named notUnit =>
      have step := pieces?.eq_4 letter rest fun a b c d tail isUnit => absurd isUnit notUnit
      rw [List.cons_append, List.singleton_append, step, named]
      cases pieces? rest <;> rfl
  | unit control =>
      have high : hexValue? (hexDigit (character.toNat / 16)) = some (character.toNat / 16) :=
        hexValue?_hexDigit (by omega)
      have low : hexValue? (hexDigit (character.toNat % 16)) = some (character.toNat % 16) :=
        hexValue?_hexDigit (by omega)
      have zero : hexValue? '0' = some 0 := rfl
      have code : ((0 * 16 + 0) * 16 + character.toNat / 16) * 16 + character.toNat % 16 =
          character.toNat := by
        omega
      simp only [List.cons_append, List.nil_append, pieces?, high, low, zero,
        Option.bind_eq_bind, Option.bind_some, code]
      cases pieces? rest <;> rfl
  | plain notMark notEscape printable =>
      have step := pieces?.eq_5 character rest notMark
        (fun _ _ _ _ _ isEscape _ => notEscape isEscape)
        (fun _ _ isEscape _ => notEscape isEscape)
      rw [List.singleton_append, step, if_neg printable]
      cases pieces? rest <;> rfl

/-- A control character is no half of a pair. -/
theorem assemble?_unit_cons {unit : Nat} (control : unit < 0x20) (pieces : List Piece) :
    assemble? (.unit unit :: pieces) = (assemble? pieces).map (Char.ofNat unit :: ·) := by
  have opens : opensPair unit = false := by
    rw [opensPair, decide_eq_false (by omega), Bool.false_and]
  have closes : closesPair unit = false := by
    rw [closesPair, decide_eq_false (by omega), Bool.false_and]
  cases pieces with
  | nil => simp [assemble?, opens, closes]
  | cons next rest =>
      cases next with
      | character value =>
          simp only [assemble?, opens, closes]
          cases assemble? rest <;> rfl
      | unit other =>
          rw [assemble?.eq_3, opens, closes]
          cases assemble? (.unit other :: rest) <;> rfl

theorem Escaped.assemble?_cons {character : Char} {written : List Char} {piece : Piece}
    (escaped : Escaped character written piece) (pieces : List Piece) :
    assemble? (piece :: pieces) = (assemble? pieces).map (character :: ·) := by
  cases escaped with
  | short named notUnit =>
      rw [assemble?]
      cases assemble? pieces <;> rfl
  | unit control => rw [assemble?_unit_cons control, Char.ofNat_toNat]
  | plain notMark notEscape printable =>
      rw [assemble?]
      cases assemble? pieces <;> rfl

/-- The pieces of a written text are assembled to the text. -/
theorem exists_pieces?_flatMap (text rest : List Char) :
    ∃ pieces,
      pieces? (text.flatMap escape ++ '"' :: rest) =
        some (pieces, (text.flatMap escape).length + 1) ∧
      assemble? pieces = some text := by
  induction text with
  | nil => exact ⟨[], rfl, rfl⟩
  | cons character text hypothesis =>
      obtain ⟨pieces, found, assembled⟩ := hypothesis
      obtain ⟨piece, escaped⟩ := exists_escaped character
      refine ⟨piece :: pieces, ?_, ?_⟩
      · rw [List.flatMap_cons, List.append_assoc, escaped.pieces?_append, found,
          List.length_append]
        simp only [Option.map_some, Option.some.injEq, Prod.mk.injEq, true_and]
        omega
      · rw [escaped.assemble?_cons, assembled, Option.map_some]

/-- A written string is read back after its opening mark, whatever follows it. -/
theorem decode?_flatMap (text rest : List Char) :
    decode? (text.flatMap escape ++ '"' :: rest) =
      some (some (String.ofList text), (text.flatMap escape).length + 1) := by
  obtain ⟨pieces, found, assembled⟩ := exists_pieces?_flatMap text rest
  rw [decode?, found]
  simp [assembled]

end Stereograph.Json.Quoted
