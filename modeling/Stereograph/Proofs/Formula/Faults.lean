import Stereograph.Proofs.Formula.Nesting
import Stereograph.Proofs.Formula.Positions

/-!
# Faults of texts

What a fault says about a text that is no formula.  Its offset is between two characters or
at the end, however many bytes the characters take.  The wording tells faults apart: only a
character that is quoted is said to be unexpected, and it is the one at the offset.  A fault
of nesting is found only in a text that is nested too deeply there.
-/

namespace Stereograph.Formula

/-! ## Wordings -/

theorem message_unexpected (found : Char) :
    (ParseFault.unexpected found).message = "unexpected `" ++ found.toString ++ "`" :=
  rfl

/-- The wording of what is unexpected starts with a letter of its own. -/
theorem head_unexpected (shown : String) :
    ("unexpected `" ++ shown ++ "`").toList.head? = some 'u' := by
  have word : "unexpected `".toList = 'u' :: "nexpected `".toList := by decide +kernel
  rw [String.toList_append, String.toList_append, word]
  rfl

theorem message_ne_unexpected {fault : ParseFault} (other : ∀ found, fault ≠ .unexpected found)
    (shown : String) : fault.message ≠ "unexpected `" ++ shown ++ "`" := by
  intro same
  have head : fault.message.toList.head? = some 'e' := by
    cases fault with
    | unexpected found => exact (other found rfl).elim
    | expression | operand | nesting => decide +kernel
  rw [same, head_unexpected] at head
  exact absurd head (by decide)

theorem message_eq_unexpected_iff {fault : ParseFault} {shown : String} :
    fault.message = "unexpected `" ++ shown ++ "`" ↔
      ∃ found, fault = .unexpected found ∧ shown = Char.toString found := by
  constructor
  · intro same
    cases fault with
    | unexpected found =>
        rw [message_unexpected] at same
        have quoted := (String.append_left_inj _).mp same
        exact ⟨found, rfl, ((String.append_right_inj _).mp quoted).symm⟩
    | expression | operand | nesting => exact (message_ne_unexpected (by simp) shown same).elim
  · rintro ⟨found, rfl, rfl⟩
    rfl

theorem message_eq_nesting_iff {fault : ParseFault} :
    fault.message = ParseFault.nesting.message ↔ fault = .nesting := by
  constructor
  · intro same
    cases fault with
    | nesting => rfl
    | expression | operand => exact absurd same (by decide +kernel)
    | unexpected found => exact (message_ne_unexpected (by simp) _ same.symm).elim
  · rintro rfl
    rfl

/-! ## Places -/

/-- A rest of the lexemes starts between two characters of the text, or at its end. -/
theorem exists_place {text : String} {front rest : List Lexeme}
    (split : lexemes text = front ++ rest) :
    ∃ before after, text = before ++ after ∧ before.utf8ByteSize = offsetOf text rest ∧
      ∀ lexeme following, rest = lexeme :: following →
        ∃ more, after = lexeme.first.toString ++ more := by
  cases rest with
  | nil => exact ⟨text, "", by simp, rfl, nofun⟩
  | cons lexeme rest =>
      rcases exists_stands split with ⟨before, after, stands⟩
      refine ⟨String.ofList before, lexeme.first.toString ++ String.ofList after, ?_, ?_, ?_⟩
      · rw [← String.ofList_toList (s := text), stands.text_eq, String.ofList_append,
          String.ofList_cons]
        rfl
      · rw [offsetOf, stands.offset_eq, Nat.zero_add]
      · intro lexeme' following same
        cases same
        exact ⟨_, rfl⟩

/-- Every text is a formula or has a fault at one of its positions.  An unexpected character
is the one at the position, and nesting is a fault only where the text is nested too
deeply. -/
theorem faults_are_well_placed (text : String) :
    (∃ formula, parse text = .ok formula) ∨
      ∃ offset fault, parse text = .error (.malformed offset fault) ∧
        (∃ before after, text = before ++ after ∧ before.utf8ByteSize = offset) ∧
        (∀ shown, fault.message = "unexpected `" ++ shown ++ "`" →
          offset < text.utf8ByteSize ∧
            ∃ found before after, shown = Char.toString found ∧
              text = before ++ shown ++ after ∧ before.utf8ByteSize = offset) ∧
        (fault.message = ParseFault.nesting.message →
          ∃ rest, TooDeep (maximumNesting + 1) .sum (lexemes text) rest ∧
            offset = offsetOf text rest) := by
  cases reads : parse text with
  | ok formula => exact .inl ⟨formula, rfl⟩
  | error error =>
      rcases exists_malformed_of_parse reads with ⟨offset, fault, rfl⟩
      refine .inr ⟨offset, fault, rfl, ?_⟩
      simp only [message_eq_unexpected_iff, message_eq_nesting_iff]
      rcases outcome_of_malformed reads with
        ⟨found, lexeme, rest, complete, rfl, rfl⟩ | ⟨rest, missed, rfl⟩ | ⟨rest, nested, rfl, rfl⟩
      · rcases (Reader.sound_sum (Reader.sound_unary _) complete).derives with ⟨front, split, -⟩
        rcases exists_place split with ⟨before, after, same, size, next⟩
        rcases next lexeme rest rfl with ⟨more, rfl⟩
        refine ⟨⟨before, _, same, size⟩, ?_, nofun⟩
        rintro shown ⟨found, fault, rfl⟩
        cases fault
        rw [← String.append_assoc] at same
        refine ⟨?_, lexeme.first, before, more, rfl, same, size⟩
        have total := congrArg String.utf8ByteSize same
        rw [String.utf8ByteSize_append, String.utf8ByteSize_append, size, offsetOf,
          Char.toString_eq_singleton, String.utf8ByteSize_singleton] at total
        rw [total, Nat.add_assoc]
        exact Nat.lt_add_of_pos_right (Nat.add_pos_left (Char.utf8Size_pos _) _)
      · rcases Reader.missesOperand_sum _ missed with ⟨wording, awaits⟩
        rcases awaits.consumed with ⟨front, split, -⟩
        rcases exists_place split with ⟨before, after, same, size, -⟩
        refine ⟨⟨before, after, same, size⟩, ?_, ?_⟩
        · rintro shown ⟨found, rfl, -⟩
          rcases wording with wording | wording <;> cases wording
        · rintro rfl
          rcases wording with wording | wording <;> cases wording
      · have deep := Reader.overflows_sum (Reader.sound_unary _) (Reader.overflows_unary _) nested
        rcases deep.exists_front with ⟨front, split⟩
        rcases exists_place split with ⟨before, after, same, size, -⟩
        refine ⟨⟨before, after, same, size⟩, ?_, fun _ => ⟨rest, deep, rfl⟩⟩
        rintro shown ⟨found, fault, -⟩
        cases fault

end Stereograph.Formula
