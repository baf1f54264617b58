import Stereograph.Decimal.Literal

/-!
# Tokens of a formula

A text splits into numbers, names, operators and parentheses.  Blanks may stand
between tokens and never inside one.  Number literals and names are the longest
that start at their position, and a character that starts no token is kept as a
stray one, so that the position of every character decides its token alone.
-/

namespace Stereograph.Formula

/-- A unit of the text. -/
inductive Token where
  | number (value : Float)
  | name (text : String)
  | plus
  | minus
  | times
  | over
  | caret
  | opening
  | closing
  | stray
  deriving DecidableEq, Repr

/-- A token, the byte offset at which it starts and its first character. -/
structure Lexeme where
  token : Token
  offset : Nat
  first : Char
  deriving DecidableEq, Repr

/-- The characters that may separate tokens. -/
def isBlank (character : Char) : Bool :=
  character == ' ' || character == '\t' || character == '\r' || character == '\n'

/-- Characters that start a name. -/
def isNameStart (character : Char) : Bool :=
  character == '_' || character.isAlpha

/-- Characters that continue a name. -/
def isNamePart (character : Char) : Bool :=
  character == '_' || character.isAlphanum

/-- A name is a nonempty text of name characters that does not start with a
digit. -/
def IsName (name : String) : Prop :=
  ∃ first rest, name.toList = first :: rest ∧
    isNameStart first = true ∧ rest.all isNamePart = true

/-- The token that starts with a character, and how many of the characters after
it belong to the token. -/
def Token.start (character : Char) (rest : List Char) : Token × Nat :=
  match character with
  | '+' => (.plus, 0)
  | '-' => (.minus, 0)
  | '*' => (.times, 0)
  | '/' => (.over, 0)
  | '^' => (.caret, 0)
  | '(' => (.opening, 0)
  | ')' => (.closing, 0)
  | character =>
      match Decimal.Literal.read? (character :: rest) with
      | some literal => (.number literal.numeral.toFloat, literal.length - 1)
      | none =>
          if isNameStart character then
            let others := rest.takeWhile isNamePart
            (.name (String.ofList (character :: others)), others.length)
          else
            (.stray, 0)

/-- The lexemes of a text that starts at a byte offset.  The first `inside`
characters belong to a token that was already read. -/
def lexemesFrom (inside offset : Nat) : List Char → List Lexeme
  | [] => []
  | character :: rest =>
      let next := offset + character.utf8Size
      match inside with
      | inside + 1 => lexemesFrom inside next rest
      | 0 =>
          if isBlank character then
            lexemesFrom 0 next rest
          else
            let (token, others) := Token.start character rest
            ⟨token, offset, character⟩ :: lexemesFrom others next rest

/-- The lexemes of a text, from left to right. -/
def lexemes (text : String) : List Lexeme :=
  lexemesFrom 0 0 text.toList

end Stereograph.Formula
