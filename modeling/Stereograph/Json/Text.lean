import Stereograph.Json.Numeral
import Stereograph.Json.Quoted

/-!
# Stored texts

The written form has no blanks.  Reading splits a text into tokens, whose extent
each first character decides, and then groups them.  Blanks are allowed between
tokens, and nothing but blanks after the value.
-/

namespace Stereograph.Json

/-! ## Writing -/

/-- Written form of a string.  One that denotes no text is written as half of a
pair. -/
def writeText : Option String → String
  | some content => Quoted.encode content
  | none => "\"\\ud800\""

mutual
/-- Written form of a value. -/
def write : Json → String
  | .null => "null"
  | .bool value => if value then "true" else "false"
  | .number literal => literal
  | .text content => writeText content
  | .array items => "[" ++ ",".intercalate (writeItems items) ++ "]"
  | .object members => "\x7b" ++ ",".intercalate (writeMembers members) ++ "\x7d"
termination_by structural value => value

/-- Written forms of the items of an array. -/
def writeItems : List Json → List String
  | [] => []
  | item :: rest => item.write :: writeItems rest
termination_by structural items => items

/-- Written forms of the members of an object. -/
def writeMembers : List (Option String × Json) → List String
  | [] => []
  | member :: rest => writeMember member :: writeMembers rest
termination_by structural members => members

/-- Written form of a member of an object. -/
def writeMember : Option String × Json → String
  | (key, value) => writeText key ++ ":" ++ value.write
termination_by structural member => member
end

/-! ## Tokens -/

/-- A unit of a stored text. -/
inductive Token where
  | null
  | bool (value : Bool)
  | number (literal : String)
  | text (content : Option String)
  | openArray
  | closeArray
  | openObject
  | closeObject
  | comma
  | colon
  deriving DecidableEq, Repr

/-- A token that is a word of its own. -/
def Token.word? (word : String) (token : Token) (input : List Char) :
    Option (Token × Nat) :=
  if word.toList.isPrefixOf input then some (token, word.length - 1) else none

/-- The token that starts with a character, and how many of the characters after
it belong to the token. -/
def Token.start? (character : Char) (rest : List Char) : Option (Token × Nat) :=
  match character with
  | '[' => some (.openArray, 0)
  | ']' => some (.closeArray, 0)
  | '\x7b' => some (.openObject, 0)
  | '\x7d' => some (.closeObject, 0)
  | ',' => some (.comma, 0)
  | ':' => some (.colon, 0)
  | '"' => (Quoted.decode? rest).map fun (content, length) => (.text content, length)
  | 'n' => word? "null" .null ('n' :: rest)
  | 't' => word? "true" (.bool true) ('t' :: rest)
  | 'f' => word? "false" (.bool false) ('f' :: rest)
  | character =>
      let input := character :: rest
      (Numeral.length? input).map fun length =>
        (.number (String.ofList (input.take length)), length - 1)

/-- The tokens of a text.  The first `inside` characters belong to a token that was
already read. -/
def tokensFrom (inside : Nat) : List Char → Option (List Token)
  | [] => some []
  | character :: rest =>
      match inside with
      | inside + 1 => tokensFrom inside rest
      | 0 =>
          if isBlank character then
            tokensFrom 0 rest
          else do
            let (token, others) ← Token.start? character rest
            let tokens ← tokensFrom others rest
            some (token :: tokens)

/-! ## Reading -/

mutual
/-- The value at the front of some tokens, and the tokens after it. -/
def valueAt : (steps : Nat) → List Token → Option (Json × List Token)
  | 0, _ => none
  | steps + 1, tokens =>
      match tokens with
      | .null :: rest => some (.null, rest)
      | .bool value :: rest => some (.bool value, rest)
      | .number literal :: rest => some (.number literal, rest)
      | .text content :: rest => some (.text content, rest)
      | .openArray :: .closeArray :: rest => some (.array [], rest)
      | .openArray :: rest => do
          let (items, rest) ← itemsAt steps rest
          some (.array items, rest)
      | .openObject :: .closeObject :: rest => some (.object [], rest)
      | .openObject :: rest => do
          let (members, rest) ← membersAt steps rest
          some (.object members, rest)
      | _ => none

/-- The remaining items of an array, at least one, up to its closing bracket. -/
def itemsAt : (steps : Nat) → List Token → Option (List Json × List Token)
  | 0, _ => none
  | steps + 1, tokens => do
      let (item, rest) ← valueAt steps tokens
      match rest with
      | .closeArray :: rest => some ([item], rest)
      | .comma :: rest => do
          let (items, rest) ← itemsAt steps rest
          some (item :: items, rest)
      | _ => none

/-- The remaining members of an object, at least one, up to its closing brace. -/
def membersAt : (steps : Nat) → List Token →
    Option (List (Option String × Json) × List Token)
  | 0, _ => none
  | steps + 1, tokens =>
      match tokens with
      | .text key :: .colon :: rest => do
          let (value, rest) ← valueAt steps rest
          match rest with
          | .closeObject :: rest => some ([(key, value)], rest)
          | .comma :: rest => do
              let (members, rest) ← membersAt steps rest
              some ((key, value) :: members, rest)
          | _ => none
      | _ => none
end

/-- The value that a text stores.  Every second step of the reading takes up a
token, which bounds the steps. -/
def read? (text : String) : Option Json := do
  let tokens ← tokensFrom 0 text.toList
  match ← valueAt (2 * tokens.length + 1) tokens with
  | (value, []) => some value
  | _ => none

end Stereograph.Json
