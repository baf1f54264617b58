import Stereograph.Json.Text
import Stereograph.Proofs.Json.Numeral
import Stereograph.Proofs.Json.Quoted

/-!
# Stored texts read back

A written value is read back as itself, whatever its nesting.  Its text is cut into the
tokens that it was written with, since a number is followed by a mark that does not continue
it, and the tokens are grouped as they were nested.
-/

namespace Stereograph.Json

/-! ## Tokens of a value -/

mutual
/-- The tokens that a value is written with. -/
def tokens : Json → List Token
  | .null => [.null]
  | .bool value => [.bool value]
  | .number literal => [.number literal]
  | .text content => [.text content]
  | .array items => .openArray :: ([Token.comma].intercalate (itemTokens items) ++ [.closeArray])
  | .object members =>
      .openObject :: ([Token.comma].intercalate (memberTokens members) ++ [.closeObject])
termination_by structural value => value

/-- The tokens of the items of an array. -/
def itemTokens : List Json → List (List Token)
  | [] => []
  | item :: rest => item.tokens :: itemTokens rest
termination_by structural items => items

/-- The tokens of the members of an object. -/
def memberTokens : List (Option String × Json) → List (List Token)
  | [] => []
  | member :: rest => tokensOfMember member :: memberTokens rest
termination_by structural members => members

/-- The tokens of a member of an object. -/
def tokensOfMember : Option String × Json → List Token
  | (key, value) => .text key :: .colon :: value.tokens
termination_by structural member => member
end

mutual
/-- Whether every number of a value is a literal. -/
def HasLiterals : Json → Prop
  | .null | .bool _ | .text _ => True
  | .number literal => Numeral.IsLiteral literal
  | .array items => HaveLiterals items
  | .object members => MembersHaveLiterals members
termination_by structural value => value

/-- Whether every number of some items is a literal. -/
def HaveLiterals : List Json → Prop
  | [] => True
  | item :: rest => item.HasLiterals ∧ HaveLiterals rest
termination_by structural items => items

/-- Whether every number of some members is a literal. -/
def MembersHaveLiterals : List (Option String × Json) → Prop
  | [] => True
  | member :: rest => MemberHasLiterals member ∧ MembersHaveLiterals rest
termination_by structural members => members

/-- Whether every number of a member is a literal. -/
def MemberHasLiterals : Option String × Json → Prop
  | (_, value) => value.HasLiterals
termination_by structural member => member
end

/-! ## Cutting a text into tokens -/

theorem tokensFrom_eq_drop (inside : Nat) (text : List Char) :
    tokensFrom inside text = tokensFrom 0 (text.drop inside) := by
  induction text generalizing inside with
  | nil => rw [List.drop_nil, tokensFrom, tokensFrom]
  | cons first rest hypothesis =>
      cases inside with
      | zero => rfl
      | succ inside => exact hypothesis inside

/-- A token is cut off at its length. -/
theorem tokensFrom_of_start? {character : Char} {rest : List Char} {token : Token}
    {others : Nat} (visible : isBlank character = false)
    (starts : Token.start? character rest = some (token, others)) :
    tokensFrom 0 (character :: rest) =
      (tokensFrom 0 (rest.drop others)).map (token :: ·) := by
  rw [tokensFrom, if_neg (by simp [visible]), starts]
  simp only [Option.bind_eq_bind, Option.bind_some, tokensFrom_eq_drop others]
  cases tokensFrom 0 (rest.drop others) <;> rfl

/-- A text is cut into tokens in front of everything that does not continue a literal. -/
def Reads (written : List Char) (tokens : List Token) : Prop :=
  ∀ rest, Numeral.Ends rest →
    tokensFrom 0 (written ++ rest) = (tokensFrom 0 rest).map (tokens ++ ·)

theorem reads_word (word : String) {first : Char} {others : List Char} {token : Token}
    (letters : word.toList = first :: others) (visible : isBlank first = false)
    (starts : ∀ rest, Token.start? first rest = Token.word? word token (first :: rest)) :
    Reads word.toList [token] := by
  intro rest _
  have length : word.length - 1 = others.length := by
    rw [← String.length_toList, letters]
    rfl
  have isPrefix : word.toList.isPrefixOf (first :: (others ++ rest)) = true := by
    rw [letters, List.isPrefixOf_iff_prefix]
    exact ⟨rest, rfl⟩
  rw [letters, List.cons_append,
    tokensFrom_of_start? visible ((starts _).trans (if_pos isPrefix)), length,
    List.drop_left]
  rfl

theorem reads_writeText (content : Option String) :
    Reads (writeText content).toList [.text content] := by
  intro rest _
  have starts : ∀ (written : List Char) (length : Nat),
      Quoted.decode? (written ++ rest) = some (content, length) → written.length = length →
      tokensFrom 0 ('"' :: (written ++ rest)) = (tokensFrom 0 rest).map (.text content :: ·) := by
    intro written length decoded same
    have start : Token.start? '"' (written ++ rest) = some (.text content, length) := by
      rw [Token.start?, decoded]
      rfl
    rw [tokensFrom_of_start? rfl start, ← same, List.drop_left]
  cases content with
  | none => exact starts ['\\', 'u', 'd', '8', '0', '0', '"'] 7 rfl rfl
  | some text =>
      have written : (writeText (some text)).toList =
          '"' :: (text.toList.flatMap Quoted.escape ++ ['"']) := by
        simp [writeText, Quoted.encode]
      have decoded := Quoted.decode?_flatMap text.toList rest
      rw [String.ofList_toList] at decoded
      rw [written, List.cons_append]
      apply starts _ _ ((congrArg Quoted.decode? (by simp)).trans decoded)
      simp

theorem reads_number {literal : String} (literally : Numeral.IsLiteral literal) :
    Reads literal.toList [.number literal] := by
  intro rest ends
  obtain ⟨first, others, letters, signed⟩ := Numeral.exists_cons_of_length? literally
  have visible : isBlank first = false := by
    obtain rfl | digit := signed
    · rfl
    · simp only [isBlank, Bool.or_eq_false_iff, beq_eq_false_iff_ne]
      refine ⟨⟨⟨?_, ?_⟩, ?_⟩, ?_⟩ <;> (rintro rfl; cases digit)
  have length : Numeral.length? (first :: (others ++ rest)) = some (others.length + 1) := by
    rw [← List.cons_append, Numeral.length?_append ends, ← letters, literally, letters]
    rfl
  -- The other branches are for marks and letters, which start no literal.
  have start : Token.start? first (others ++ rest) = some (.number literal, others.length) := by
    unfold Token.start?
    split
    case h_11 =>
      dsimp only
      rw [length, Option.map_some, List.take_succ_cons, List.take_left, ← letters,
        String.ofList_toList, Nat.add_sub_cancel]
    all_goals
      exfalso
      revert signed
      decide
  rw [letters, List.cons_append, tokensFrom_of_start? visible start, List.drop_left]
  rfl

/-- A character that is a token of its own, in front of everything. -/
structure IsMark (mark : Char) (token : Token) : Prop where
  visible : isBlank mark = false
  starts : ∀ rest, Token.start? mark rest = some (token, 0)
  ends : Numeral.continues mark = false

theorem isMark_openArray : IsMark '[' .openArray := ⟨rfl, fun _ => rfl, rfl⟩

theorem isMark_closeArray : IsMark ']' .closeArray := ⟨rfl, fun _ => rfl, rfl⟩

theorem isMark_openObject : IsMark '\x7b' .openObject := ⟨rfl, fun _ => rfl, rfl⟩

theorem isMark_closeObject : IsMark '\x7d' .closeObject := ⟨rfl, fun _ => rfl, rfl⟩

theorem isMark_comma : IsMark ',' .comma := ⟨rfl, fun _ => rfl, rfl⟩

theorem isMark_colon : IsMark ':' .colon := ⟨rfl, fun _ => rfl, rfl⟩

theorem reads_nil : Reads [] [] := by
  intro rest _
  simp

/-- A mark separates what stands before it from what stands after it. -/
theorem Reads.append_mark {written more : List Char} {tokens others : List Token} {mark : Char}
    {token : Token} (reads : Reads written tokens) (isMark : IsMark mark token)
    (readsMore : Reads more others) :
    Reads (written ++ mark :: more) (tokens ++ token :: others) := by
  intro rest restEnds
  have ends : Numeral.Ends (mark :: (more ++ rest)) := by
    intro character first
    cases first
    exact isMark.ends
  rw [List.append_assoc, List.cons_append, reads _ ends,
    tokensFrom_of_start? isMark.visible (isMark.starts _), List.drop_zero,
    readsMore rest restEnds]
  cases tokensFrom 0 rest <;> simp

/-- Pieces between commas are cut into their tokens between comma tokens. -/
theorem reads_intercalate {written : List (List Char)} {tokens : List (List Token)}
    (reads : List.Forall₂ Reads written tokens) :
    Reads ([','].intercalate written) ([Token.comma].intercalate tokens) := by
  induction reads with
  | nil => exact reads_nil
  | cons readsFirst readsOthers hypothesis =>
      cases readsOthers with
      | nil => simpa using readsFirst
      | cons readsSecond readsThird =>
          have joined := readsFirst.append_mark isMark_comma hypothesis
          simpa only [List.intercalate_cons_cons, List.append_assoc, List.singleton_append]
            using joined

mutual
/-- A written value is cut into its tokens. -/
theorem reads_write : (json : Json) → json.HasLiterals → Reads json.write.toList json.tokens
  | .null, _ => reads_word "null" rfl rfl fun _ => rfl
  | .bool true, _ => reads_word "true" rfl rfl fun _ => rfl
  | .bool false, _ => reads_word "false" rfl rfl fun _ => rfl
  | .number literal, literally => reads_number literally
  | .text content, _ => reads_writeText content
  | .array items, literals => by
      have inner := reads_intercalate (reads_writeItems items literals)
      have closed := inner.append_mark isMark_closeArray reads_nil
      simpa [write, tokens] using reads_nil.append_mark isMark_openArray closed
  | .object members, literals => by
      have inner := reads_intercalate (reads_writeMembers members literals)
      have closed := inner.append_mark isMark_closeObject reads_nil
      simpa [write, tokens] using reads_nil.append_mark isMark_openObject closed
termination_by structural json => json

theorem reads_writeItems : (items : List Json) → HaveLiterals items →
    List.Forall₂ Reads ((writeItems items).map String.toList) (itemTokens items)
  | [], _ => .nil
  | item :: rest, literals =>
      .cons (reads_write item literals.1) (reads_writeItems rest literals.2)
termination_by structural items => items

theorem reads_writeMembers : (members : List (Option String × Json)) →
    MembersHaveLiterals members →
    List.Forall₂ Reads ((writeMembers members).map String.toList) (memberTokens members)
  | [], _ => .nil
  | member :: rest, literals =>
      .cons (reads_writeMember member literals.1) (reads_writeMembers rest literals.2)
termination_by structural members => members

theorem reads_writeMember : (member : Option String × Json) → MemberHasLiterals member →
    Reads (writeMember member).toList (tokensOfMember member)
  | (key, value), literals => by
      have joined := (reads_writeText key).append_mark isMark_colon (reads_write value literals)
      simpa [writeMember, tokensOfMember] using joined
termination_by structural member => member
end

/-! ## Grouping tokens -/

/-- No value starts with a closing bracket. -/
theorem exists_tokens_eq_cons (json : Json) :
    ∃ first rest, json.tokens = first :: rest ∧ first ≠ .closeArray := by
  cases json <;> exact ⟨_, _, rfl, nofun⟩

theorem exists_intercalate_eq_cons (first : Token) (front : List Token)
    (others : List (List Token)) :
    ∃ rest, [Token.comma].intercalate ((first :: front) :: others) = first :: rest := by
  cases others with
  | nil => exact ⟨front, by simp⟩
  | cons second others => exact ⟨_, List.intercalate_cons_cons ..⟩

theorem valueAt_openArray {first : Token} (other : first ≠ .closeArray) (steps : Nat)
    (rest : List Token) :
    valueAt (steps + 1) (.openArray :: first :: rest) =
      (itemsAt steps (first :: rest)).map fun found => (.array found.1, found.2) := by
  rw [valueAt]
  · cases itemsAt steps (first :: rest) <;> rfl
  · rintro others same
    cases same
    exact other rfl

theorem valueAt_openObject (steps : Nat) (key : Option String) (rest : List Token) :
    valueAt (steps + 1) (.openObject :: .text key :: rest) =
      (membersAt steps (.text key :: rest)).map fun found => (.object found.1, found.2) := by
  rw [valueAt]
  · cases membersAt steps (.text key :: rest) <;> rfl
  · rintro others same
    cases same

mutual
/-- The tokens of a value are grouped to the value, whatever follows them. -/
theorem valueAt_tokens : (json : Json) → (steps : Nat) → (rest : List Token) →
    2 * json.tokens.length ≤ steps → valueAt steps (json.tokens ++ rest) = some (json, rest)
  | .null, steps + 1, _, _ => rfl
  | .bool _, steps + 1, _, _ => rfl
  | .number _, steps + 1, _, _ => rfl
  | .text _, steps + 1, _, _ => rfl
  | .array [], steps + 1, _, _ => rfl
  | .array (item :: items), steps + 1, rest, enough => by
      obtain ⟨first, others, front, other⟩ := exists_tokens_eq_cons item
      obtain ⟨more, joined⟩ := exists_intercalate_eq_cons first others (itemTokens items)
      have grouped := itemsAt_tokens (item :: items) steps rest nofun
        (by simp only [tokens, List.length_cons, List.length_append] at enough; omega)
      rw [itemTokens, front, joined, List.cons_append] at grouped
      rw [tokens, itemTokens, front, joined, List.cons_append, List.append_assoc,
        List.singleton_append, List.cons_append, valueAt_openArray other, grouped,
        Option.map_some]
  | .object [], steps + 1, _, _ => rfl
  | .object ((key, value) :: members), steps + 1, rest, enough => by
      have grouped := membersAt_tokens ((key, value) :: members) steps rest nofun
        (by simp only [tokens, List.length_cons, List.length_append] at enough; omega)
      obtain ⟨more, joined⟩ :=
        exists_intercalate_eq_cons (.text key) (.colon :: value.tokens) (memberTokens members)
      rw [memberTokens, tokensOfMember, joined, List.cons_append] at grouped
      rw [tokens, memberTokens, tokensOfMember, joined, List.cons_append, List.append_assoc,
        List.singleton_append, List.cons_append, valueAt_openObject, grouped, Option.map_some]
termination_by structural json => json

theorem itemsAt_tokens : (items : List Json) → (steps : Nat) → (rest : List Token) →
    items ≠ [] → 2 * ([Token.comma].intercalate (itemTokens items)).length < steps →
    itemsAt steps ([Token.comma].intercalate (itemTokens items) ++ .closeArray :: rest) =
      some (items, rest)
  | [], _, _, someItem, _ => absurd rfl someItem
  | [item], steps + 1, rest, _, enough => by
      rw [itemTokens, itemTokens, List.intercalate_singleton] at enough ⊢
      rw [itemsAt, valueAt_tokens item steps _ (by omega)]
      rfl
  | item :: next :: items, steps + 1, rest, _, enough => by
      rw [itemTokens, itemTokens, List.intercalate_cons_cons, ← itemTokens] at enough ⊢
      simp only [List.length_append, List.length_singleton] at enough
      rw [List.append_assoc, List.append_assoc, itemsAt, valueAt_tokens item steps _ (by omega)]
      have others := itemsAt_tokens (next :: items) steps rest nofun (by omega)
      simp [others]
termination_by structural items => items

theorem membersAt_tokens : (members : List (Option String × Json)) → (steps : Nat) →
    (rest : List Token) → members ≠ [] →
    2 * ([Token.comma].intercalate (memberTokens members)).length < steps →
    membersAt steps ([Token.comma].intercalate (memberTokens members) ++ .closeObject :: rest) =
      some (members, rest)
  | [], _, _, someMember, _ => absurd rfl someMember
  | [(key, value)], steps + 1, rest, _, enough => by
      rw [memberTokens, memberTokens, List.intercalate_singleton, tokensOfMember] at enough ⊢
      simp only [List.length_cons] at enough
      rw [List.cons_append, List.cons_append, membersAt, valueAt_tokens value steps _ (by omega)]
      rfl
  | (key, value) :: next :: members, steps + 1, rest, _, enough => by
      rw [memberTokens, memberTokens, List.intercalate_cons_cons, ← memberTokens,
        tokensOfMember] at enough ⊢
      simp only [List.length_append, List.length_cons] at enough
      rw [List.append_assoc, List.append_assoc, List.cons_append, List.cons_append, membersAt,
        valueAt_tokens value steps _ (by omega)]
      have others := membersAt_tokens (next :: members) steps rest nofun (by omega)
      simp [others]
termination_by structural members => members
end

/-- A written value whose numbers are literals is read back as itself. -/
theorem read?_write {json : Json} (literals : json.HasLiterals) :
    read? json.write = some json := by
  have nothing : Numeral.Ends [] := nofun
  have cut : tokensFrom 0 json.write.toList = some json.tokens := by
    have reads := reads_write json literals [] nothing
    rwa [List.append_nil, tokensFrom, Option.map_some, List.append_nil] at reads
  have grouped := valueAt_tokens json (2 * json.tokens.length + 1) [] (by omega)
  rw [List.append_nil] at grouped
  simp [read?, cut, grouped]

end Stereograph.Json
