/-!
# Primitive library of the shaders

The generated code calls primitives, and this module declares them in the shading
language.  A declaration is kept as data, with its name and the types of its
parameters apart from its body, so that a call can be checked against the library.
Every elementary function has one declaration for complex numbers and one for
homogeneous coordinates.
-/

namespace Stereograph.Shader

/-- Types of the shading language. -/
inductive ShaderType where
  | boolean
  | scalar
  | vec2
  | vec4
  deriving DecidableEq, Repr

/-- Keyword of a type. -/
def ShaderType.keyword : ShaderType → String
  | .boolean => "bool"
  | .scalar => "float"
  | .vec2 => "vec2"
  | .vec4 => "vec4"

/-- A named parameter of a function. -/
structure Parameter where
  type : ShaderType
  name : String
  deriving DecidableEq, Repr

/-- A function of the library.  A body of one statement may share the line of the
head. -/
structure Declaration where
  comment : List String
  result : ShaderType
  name : String
  parameters : List Parameter
  inline : Bool
  body : List String
  deriving DecidableEq, Repr

namespace Declaration

/-- Head of a declaration, up to the opening brace. -/
def head (declaration : Declaration) : String :=
  let parameters := declaration.parameters.map fun parameter =>
    parameter.type.keyword ++ " " ++ parameter.name
  declaration.result.keyword ++ " " ++ declaration.name ++
    "(" ++ ", ".intercalate parameters ++ ") \x7b"

/-- Lines of a declaration. -/
def lines (declaration : Declaration) : List String :=
  declaration.comment.map ("// " ++ ·) ++
    if declaration.inline then
      [declaration.head ++ " " ++ " ".intercalate declaration.body ++ " \x7d"]
    else
      declaration.head :: declaration.body.map ("  " ++ ·) ++ ["\x7d"]

end Declaration

/-- A function of one parameter `a`. -/
def unaryDeclaration (type : ShaderType) (name : String) (body : List String) :
    Declaration :=
  ⟨[], type, name, [⟨type, "a"⟩], false, body⟩

/-- A function of two parameters `a` and `b`. -/
def binaryDeclaration (type : ShaderType) (name : String) (body : List String) :
    Declaration :=
  ⟨[], type, name, [⟨type, "a"⟩, ⟨type, "b"⟩], false, body⟩

/-- Hyperbolic cosine and sine of the imaginary part. -/
def hyperbolicPair : List String :=
  ["float e = exp(a.y);", "float ch = (e + 1.0 / e) / 2.0;",
    "float sh = (e - 1.0 / e) / 2.0;"]

/-- Arithmetic and functions of complex numbers.  Each group of declarations is set
apart by a blank line. -/
def affineGroups : List (List Declaration) :=
  [[{ binaryDeclaration .vec2 "_cAdd" ["return a + b;"] with inline := true },
      { binaryDeclaration .vec2 "_cSub" ["return a - b;"] with inline := true },
      { unaryDeclaration .vec2 "_cOpp" ["return -a;"] with inline := true }],
    [binaryDeclaration .vec2 "_cMul"
      ["return vec2(a.x * b.x - a.y * b.y, a.x * b.y + a.y * b.x);"]],
    [binaryDeclaration .vec2 "_cDiv"
      ["return vec2(dot(a, b), a.y * b.x - a.x * b.y) / dot(b, b);"]],
    [{ binaryDeclaration .vec2 "_cPow"
        ["float r = pow(length(a), b.x);", "float theta = atan(a.y, a.x) * b.x;",
          "return r * vec2(cos(theta), sin(theta));"] with
      comment := ["Principal branch; only the real part of b is used"] }],
    [unaryDeclaration .vec2 "_sqrt"
      ["float r = sqrt(length(a));", "float theta = atan(a.y, a.x) / 2.0;",
        "return r * vec2(cos(theta), sin(theta));"]],
    [unaryDeclaration .vec2 "_exp"
      ["return exp(a.x) * vec2(cos(a.y), sin(a.y));"]],
    [unaryDeclaration .vec2 "_log"
      ["return vec2(log(length(a)), atan(a.y, a.x));"]],
    [unaryDeclaration .vec2 "_sin"
      (hyperbolicPair ++ ["return vec2(sin(a.x) * ch, cos(a.x) * sh);"])],
    [unaryDeclaration .vec2 "_cos"
      (hyperbolicPair ++ ["return vec2(cos(a.x) * ch, -sin(a.x) * sh);"])]]

/-- A rescaled vector of four components, one on each line. -/
def normalizedComponents (components : List String) : List String :=
  match components with
  | [x, y, z, w] =>
      ["return normalize(vec4(", "  " ++ x ++ ",", "  " ++ y ++ ",", "  " ++ z ++ ",",
        "  " ++ w, "));"]
  | _ => []

/-- A function that is infinite at infinity and elsewhere taken of the complex
number. -/
def throughComplexDeclaration (name guard : String) : Declaration :=
  unaryDeclaration .vec4 name
    ["if (" ++ guard ++ ") return _pInfinity;",
      "return _pLift(" ++ name ++ "(_cDiv(a.xy, a.zw)));"]

/-- Arithmetic and functions of homogeneous coordinates, which call those of
complex numbers. -/
def projectiveGroups : List (List Declaration) :=
  [[binaryDeclaration .vec4 "_pAdd" <| normalizedComponents
      ["a.x * b.z - a.y * b.w + a.z * b.x - a.w * b.y",
        "a.x * b.w + a.y * b.z + a.z * b.y + a.w * b.x",
        "a.z * b.z - a.w * b.w", "a.z * b.w + a.w * b.z"]],
    [binaryDeclaration .vec4 "_pSub" <| normalizedComponents
      ["a.x * b.z - a.y * b.w - a.z * b.x + a.w * b.y",
        "a.x * b.w + a.y * b.z - a.z * b.y - a.w * b.x",
        "a.z * b.z - a.w * b.w", "a.z * b.w + a.w * b.z"]],
    [{ unaryDeclaration .vec4 "_pOpp" ["return vec4(-a.xy, a.zw);"] with
      inline := true }],
    [binaryDeclaration .vec4 "_pMul"
      ["return normalize(vec4(_cMul(a.xy, b.xy), _cMul(a.zw, b.zw)));"]],
    [binaryDeclaration .vec4 "_pDiv"
      ["return normalize(vec4(_cMul(a.xy, b.zw), _cMul(a.zw, b.xy)));"]],
    [{ unaryDeclaration .vec4 "_pInv" ["return vec4(a.zw, a.xy);"] with
      inline := true }],
    [{ binaryDeclaration .vec4 "_pPow"
        ["vec2 e = _cDiv(b.xy, b.zw);", "if (e.x < 0.0) \x7b",
          "  return normalize(vec4(_cPow(a.zw, -e), _cPow(a.xy, -e)));", "\x7d",
          "return normalize(vec4(_cPow(a.xy, e), _cPow(a.zw, e)));"] with
      comment := ["Negative exponents swap numerator and denominator first so that zero and",
        "infinity stay exact"] }],
    [{ comment := ["Chordal distance; both arguments normalized"]
       result := .scalar
       name := "_pDist"
       parameters := [⟨.vec4, "a"⟩, ⟨.vec4, "b"⟩]
       inline := false
       body := ["return length(vec2(",
        "  a.x * b.z - a.y * b.w - a.z * b.x + a.w * b.y,",
        "  a.x * b.w + a.y * b.z - a.z * b.y - a.w * b.x", "));"] }],
    [⟨[], .boolean, "_pIsInfinite", [⟨.vec4, "a"⟩], true,
        ["return length(a.zw) < 1e-6 * length(a);"]⟩,
      ⟨[], .boolean, "_pIsZero", [⟨.vec4, "a"⟩], true,
        ["return length(a.xy) < 1e-6 * length(a);"]⟩,
      ⟨[], .vec4, "_pLift", [⟨.vec2, "a"⟩], true,
        ["return normalize(vec4(a, 1.0, 0.0));"]⟩],
    [unaryDeclaration .vec4 "_sqrt"
      ["return normalize(vec4(_sqrt(a.xy), _sqrt(a.zw)));"]],
    [throughComplexDeclaration "_exp" "_pIsInfinite(a)"],
    [throughComplexDeclaration "_log" "_pIsInfinite(a) || _pIsZero(a)"],
    [throughComplexDeclaration "_sin" "_pIsInfinite(a)"],
    [throughComplexDeclaration "_cos" "_pIsInfinite(a)"]]

/-- Everything the library declares. -/
def declarations : List Declaration :=
  affineGroups.flatten ++ projectiveGroups.flatten

/-- Text of groups of declarations, between blank lines. -/
def groupsSource (groups : List (List Declaration)) : String :=
  let group (declarations : List Declaration) : String :=
    "\n".intercalate (declarations.flatMap Declaration.lines)
  "\n" ++ "\n\n".intercalate (groups.map group) ++ "\n"

/-- Source of the library for complex numbers. -/
def affineSource : String := groupsSource affineGroups

/-- Source of the library for homogeneous coordinates. -/
def projectiveSource : String :=
  "\nconst vec4 _pInfinity = vec4(1.0, 0.0, 0.0, 0.0);\n" ++
    groupsSource projectiveGroups

end Stereograph.Shader
