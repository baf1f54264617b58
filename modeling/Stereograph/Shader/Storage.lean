import Stereograph.Json.Stored
import Stereograph.Shader.Program

/-!
# Stored programs and settings
-/

namespace Stereograph.Shader

instance : Stored Settings where
  toJson settings :=
    .ofMembers
      [Json.member "f_expr" settings.iteration,
        Json.member "crit_expr" settings.criticalPoint,
        Json.member "c_expr" settings.parameter,
        Json.member "max_iterations" settings.maximumIterations]
  ofJson? := Json.record₄? "f_expr" "crit_expr" "c_expr" "max_iterations" Settings.mk

/-- Written form of a program.  Programs are not read back. -/
def Program.toJson (program : Program) : Json :=
  .ofMembers
    [Json.member "vertex" program.vertex,
      Json.member "parameter_fragment" program.parameterFragment,
      Json.member "dynamical_fragment" program.dynamicalFragment]

/-- Result of compiling settings. -/
inductive Report where
  | compiled (program : Program)
  | failed (error : FormulaError)

/-- Text of a report. -/
def Report.write : Report → String
  | .compiled program =>
      (Json.ofMembers [Json.member "status" "ok", ("program", program.toJson)]).write
  | .failed error =>
      (Json.ofMembers
        [Json.member "status" "error", Json.member "message" error.message]).write

end Stereograph.Shader
