/-!
# Stored values

The tree of a stored text, as close to the text as its readers need.  A number
keeps its literal, because different readers accept different literals.  A string
with half of a surrogate pair is well formed but denotes no text, which matters
only to a reader who asks for that text.  An object keeps its members in order,
repetitions included.
-/

namespace Stereograph

/-- A stored value. -/
inductive Json where
  | null
  | bool (value : Bool)
  | number (literal : String)
  | text (content : Option String)
  | array (items : List Json)
  | object (members : List (Option String × Json))
  deriving Repr

namespace Json

/-- A string that denotes the given text. -/
def ofString (content : String) : Json := .text (some content)

/-- An object whose keys are given texts. -/
def ofMembers (members : List (String × Json)) : Json :=
  .object (members.map fun member => (some member.1, member.2))

/-- Whether a character may stand between tokens. -/
def isBlank (character : Char) : Bool :=
  character == ' ' || character == '\t' || character == '\r' || character == '\n'

end Json

end Stereograph
