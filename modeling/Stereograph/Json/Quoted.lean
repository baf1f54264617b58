import Stereograph.Json.Basic

/-!
# Quoted strings

Quotation marks, backslashes and control characters are written as escapes, all
other characters as themselves.  Reading also accepts every character as an escaped
code unit of sixteen bits.  Such units come in pairs for characters beyond the
first plane, and half of a pair denotes nothing.
-/

namespace Stereograph.Json.Quoted

/-- Hexadecimal digit of a number below sixteen. -/
def hexDigit (value : Nat) : Char :=
  Nat.digitChar value

/-- Value of a hexadecimal digit. -/
def hexValue? (digit : Char) : Option Nat :=
  let code := digit.toNat
  if '0'.toNat ≤ code ∧ code ≤ '9'.toNat then some (code - '0'.toNat)
  else if 'a'.toNat ≤ code ∧ code ≤ 'f'.toNat then some (code - 'a'.toNat + 10)
  else if 'A'.toNat ≤ code ∧ code ≤ 'F'.toNat then some (code - 'A'.toNat + 10)
  else none

/-- Written form of a character. -/
def escape (character : Char) : List Char :=
  match character with
  | '"' => ['\\', '"']
  | '\\' => ['\\', '\\']
  | '\x08' => ['\\', 'b']
  | '\t' => ['\\', 't']
  | '\n' => ['\\', 'n']
  | '\x0c' => ['\\', 'f']
  | '\r' => ['\\', 'r']
  | character =>
      let code := character.toNat
      if code < 0x20 then
        ['\\', 'u', '0', '0', hexDigit (code / 16), hexDigit (code % 16)]
      else
        [character]

/-- Written form of a text, between quotation marks. -/
def encode (text : String) : String :=
  String.ofList ('"' :: text.toList.flatMap escape ++ ['"'])

/-- A character as it stands, or an escaped code unit. -/
inductive Piece where
  | character (value : Char)
  | unit (value : Nat)
  deriving DecidableEq, Repr

/-- The character that a short escape stands for. -/
def shortEscape? : Char → Option Char
  | '"' => some '"'
  | '\\' => some '\\'
  | '/' => some '/'
  | 'b' => some '\x08'
  | 'f' => some '\x0c'
  | 'n' => some '\n'
  | 'r' => some '\r'
  | 't' => some '\t'
  | _ => none

/-- The pieces up to the closing quotation mark, and the number of characters up to
and including it. -/
def pieces? : List Char → Option (List Piece × Nat)
  | [] => none
  | '"' :: _ => some ([], 1)
  | '\\' :: 'u' :: a :: b :: c :: d :: rest => do
      let a ← hexValue? a
      let b ← hexValue? b
      let c ← hexValue? c
      let d ← hexValue? d
      let (pieces, count) ← pieces? rest
      some (.unit (((a * 16 + b) * 16 + c) * 16 + d) :: pieces, count + 6)
  | '\\' :: short :: rest => do
      let character ← shortEscape? short
      let (pieces, count) ← pieces? rest
      some (.character character :: pieces, count + 2)
  | character :: rest =>
      if character.toNat < 0x20 then none
      else do
        let (pieces, count) ← pieces? rest
        some (.character character :: pieces, count + 1)

/-- Whether a code unit opens a pair. -/
def opensPair (unit : Nat) : Bool :=
  decide (0xD800 ≤ unit) && decide (unit ≤ 0xDBFF)

/-- Whether a code unit closes a pair. -/
def closesPair (unit : Nat) : Bool :=
  decide (0xDC00 ≤ unit) && decide (unit ≤ 0xDFFF)

/-- The text of some pieces, unless half of a pair is among them. -/
def assemble? : List Piece → Option (List Char)
  | [] => some []
  | .character character :: rest => do
      some (character :: (← assemble? rest))
  | .unit upper :: .unit lower :: rest =>
      if opensPair upper then
        if closesPair lower then do
          let code := 0x10000 + (upper - 0xD800) * 0x400 + (lower - 0xDC00)
          some (Char.ofNat code :: (← assemble? rest))
        else none
      else if closesPair upper then none
      else do
        some (Char.ofNat upper :: (← assemble? (.unit lower :: rest)))
  | .unit unit :: rest =>
      if opensPair unit || closesPair unit then none
      else do
        some (Char.ofNat unit :: (← assemble? rest))

/-- The text of the string whose opening quotation mark was just read, and the
number of characters up to and including the closing mark. -/
def decode? (input : List Char) : Option (Option String × Nat) := do
  let (pieces, count) ← pieces? input
  some ((assemble? pieces).map String.ofList, count)

end Stereograph.Json.Quoted
