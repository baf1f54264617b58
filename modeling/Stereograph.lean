import Stereograph.Formula.Value
import Stereograph.Proofs.Formula.Completeness
import Stereograph.Proofs.Scene.Zooming
import Stereograph.Proofs.Shader.Parameter
import Stereograph.Proofs.Shader.Refusal
import Stereograph.Proofs.Sphere.Escape
import Stereograph.Session
import Stereograph.Proofs.Scene.Frame
import Stereograph.Proofs.Scene.Dragging
import Stereograph.Proofs.Json.Numeral
import Stereograph.Proofs.Json.Quoted
import Stereograph.Proofs.Json.Text
import Stereograph.Proofs.Json.Stored
import Stereograph.Proofs.Session
import Stereograph.Proofs.Decimal.Single
import Stereograph.Proofs.Sphere.Growth
import Stereograph.Proofs.Sphere.Nearness
import Stereograph.Proofs.Scene.Stretch
import Stereograph.Proofs.Scene.Upload
import Stereograph.Proofs.Formula.Rational
import Stereograph.Proofs.Scene.Surface
import Stereograph.Proofs.Scene.Storage
import Stereograph.Proofs.Shader.Length
import Stereograph.Proofs.Formula.Printing
import Stereograph.Proofs.Shader.Shape
import Stereograph.Proofs.Sphere.Zoom
import Stereograph.Proofs.Sphere.Composition
import Stereograph.Proofs.Sphere.Arithmetic
import Stereograph.Proofs.Scene.ZoomGroup
import Stereograph.Proofs.Scene.ScreenTurning
import Stereograph.Proofs.Decimal.Order
import Stereograph.Proofs.Scene.Picking
import Stereograph.Proofs.Sphere.Directions
import Stereograph.Proofs.Formula.Mentions
import Stereograph.Proofs.Shader.Variables
import Stereograph.Proofs.Sphere.FirstEscape
import Stereograph.Proofs.Formula.Storage
import Stereograph.Proofs.Formula.Blame
import Stereograph.Proofs.Formula.Faults
import Stereograph.Proofs.Shader.Recursion
