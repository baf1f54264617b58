import Stereograph.Formula.Reader
import Stereograph.Shader.Code
import Stereograph.Shader.Primitives
import Stereograph.Sphere.Orbit

/-!
# Shader programs

A program has a vertex shader and one fragment shader for each sphere.  Both
fragment shaders run the same escape loop.  On the parameter sphere the parameter
varies over the surface and the orbit starts from the critical point.  On the
dynamical sphere the starting point varies and the parameter is given.
-/

namespace Stereograph.Shader

/-- What a reader can choose about a program. -/
structure Settings where
  /-- Text of the iterated map, projective in `z` and `c`. -/
  iteration : String
  /-- Text of the critical point, projective in `c`. -/
  criticalPoint : String
  /-- Text of the dynamical sphere's parameter, affine in `c`. -/
  parameter : String
  maximumIterations : UInt32
  deriving DecidableEq, Repr

/-- Squaring and adding the parameter, for one hundred iterations. -/
def Settings.standard : Settings where
  iteration := "z^2 + c"
  criticalPoint := "0.0"
  parameter := "c"
  maximumIterations := 100

/-- Code of the three formulas of a program. -/
structure Fragments where
  iteration : String
  criticalPoint : String
  parameter : String
  deriving DecidableEq, Repr

/-- Sources of a program. -/
structure Program where
  vertex : String
  parameterFragment : String
  dynamicalFragment : String
  deriving DecidableEq, Repr

/-- Read a formula and generate its code. -/
def compile (arithmetic : Arithmetic) (text : String) : Except FormulaError String := do
  formulaCode arithmetic (← Formula.parse text)

/-- Compile the three formulas.  The critical point is needed before the iterated
point exists, so it must not read it. -/
def Settings.fragments (settings : Settings) : Except FormulaError Fragments := do
  let iteration ← (compile .projective settings.iteration).mapError (.within .iteration)
  let critical ← (Formula.parse settings.criticalPoint).mapError (.within .criticalPoint)
  if critical.mentions "z" then
    .error (.within .criticalPoint (.unknownSymbol "z" .projective))
  else
    let criticalPoint ←
      (formulaCode .projective critical).mapError (.within .criticalPoint)
    let parameter ← (compile .affine settings.parameter).mapError (.within .parameter)
    .ok ⟨iteration, criticalPoint, parameter⟩

/-- Source of the vertex shader. -/
def vertexSource : String :=
  "\n".intercalate
    ["", "attribute vec4 aPosition;", "", "uniform mat4 uLocalMatrix;",
      "uniform mat4 uModelMatrix;", "uniform mat4 uProjMatrix;", "",
      "varying vec4 modelPos;", "varying vec4 localPos;", "", "void main(void) \x7b",
      "  localPos = aPosition;",
      "  modelPos = uProjMatrix * uModelMatrix * uLocalMatrix * aPosition;",
      "  gl_Position = modelPos;", "\x7d", ""]

/-- The homogeneous coordinate of a point of the sphere, after the zoom. -/
def surfacePoint : String :=
  "uMobiusMatrix * vec4(localPos.xy, 1.0 + localPos.z, 0.0)"

/-- Start of the orbits of the parameter sphere. -/
def parameterStart (fragments : Fragments) : List String :=
  ["  vec4 c = " ++ surfacePoint ++ ";", "  vec4 z = " ++ fragments.criticalPoint ++ ";"]

/-- Start of the orbits of the dynamical sphere. -/
def dynamicalStart (fragments : Fragments) : List String :=
  ["  vec4 z = " ++ surfacePoint ++ ";", "  vec4 c = uParameter;",
    "  c = normalize(vec4(" ++ fragments.parameter ++ ", 1.0, 0.0));"]

/-- Source of a fragment shader whose orbits have the given start. -/
def orbitShaderSource (start : List String) (iteration : String) (bound : UInt32) :
    String :=
  let escape := literalText Orbit.escapeDistance
  let period := literalText Orbit.cycleLength
  let size := toString Orbit.paletteEntries
  let last := toString (Orbit.paletteEntries - 1)
  "\n".intercalate <|
    ["precision highp float;", "", "uniform sampler2D uColorPalette;",
      "uniform vec3 uMousePosition;", "uniform mat4 uProjMatrix;",
      "uniform mat4 uMobiusMatrix;", "uniform vec4 uParameter;", "",
      "varying vec4 modelPos;", "varying vec4 localPos;", "",
      "const int MAX_ITERATIONS = " ++ toString bound ++ ";", affineSource,
      projectiveSource, "vec4 _iterate(vec4 z, vec4 c) \x7b",
      "  return " ++ iteration ++ ";", "\x7d", "", "void main(void) \x7b"] ++
    start ++
    ["", "  gl_FragColor = vec4(0.0, 0.0, 0.0, 1.0);", "",
      "  for (int iter = 0; iter < MAX_ITERATIONS; iter++) \x7b",
      "    float d = _pDist(normalize(z), _pInfinity);",
      "    if (d < " ++ escape ++ ") \x7b", "      d = max(d, 1e-30);",
      "      float depth = fract((float(iter) - log2(-log(d))) / " ++ period ++ ");",
      "      gl_FragColor = texture2D(", "        uColorPalette,",
      "        vec2((" ++ last ++ ".0 * depth + 0.5) / " ++ size ++ ".0, 0.5)",
      "      );", "      break;", "    \x7d", "    z = _iterate(z, c);", "  \x7d", "",
      "  vec2 marker = modelPos.xy / modelPos.w - uMousePosition.xy;",
      "  marker.x *= uProjMatrix[1][1] / uProjMatrix[0][0];",
      "  if (length(marker) < 0.01) \x7b",
      "    gl_FragColor = vec4(1.0, 0.0, 0.0, 1.0);", "  \x7d", "\x7d", ""]

/-- Compile a complete program.  The iteration bound becomes a signed integer of
the shading language. -/
def Settings.program (settings : Settings) : Except FormulaError Program := do
  let bound := settings.maximumIterations
  if bound.toNat = 0 ∨ FormulaError.maximumIterations < bound.toNat then
    .error .iterationBound
  else
    let fragments ← settings.fragments
    .ok
      { vertex := vertexSource
        parameterFragment :=
          orbitShaderSource (parameterStart fragments) fragments.iteration bound
        dynamicalFragment :=
          orbitShaderSource (dynamicalStart fragments) fragments.iteration bound }

end Stereograph.Shader
