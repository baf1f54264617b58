import Stereograph.Formula.Storage
import Stereograph.Scene.Storage
import Stereograph.Shader.Storage

/-!
# Exploring sessions

A session joins a scene with the program that draws it.  Settings and program
change together or not at all: settings whose program cannot be compiled are
reported and forgotten.
-/

namespace Stereograph

/-- State of a session. -/
structure Session where
  scene : Scene Float
  settings : Shader.Settings
  /-- Program of the settings, once some settings have been compiled. -/
  program : Option Shader.Program
  /-- Parameter of the dynamical sphere. -/
  parameter : Coordinate Float

namespace Session

/-- A session at its start. -/
def start : Session where
  scene := .start .standard
  settings := .standard
  program := none
  parameter := .zero

/-- Take over the size of the canvas.  A canvas without height is ignored. -/
def resize (session : Session) (width height : Float) : Session :=
  if 0 < height then { session with scene := session.scene.reshape (width / height) }
  else session

/-- Start a drag, and name the sphere that is grabbed. -/
def press (session : Session) (position : Vec2 Float) : Option Globe × Session :=
  let (globe, scene) := session.scene.press position
  (globe, { session with scene := scene })

/-- Move the pointer.  Says what became of the scene. -/
def movePointer (session : Session) (position : Vec2 Float) : Outcome × Session :=
  let (outcome, scene) := session.scene.movePointer position
  (outcome, { session with scene := scene })

/-- End a drag. -/
def release (session : Session) : Session :=
  { session with scene := session.scene.release }

/-- Turn the wheel.  Says what became of the scene. -/
def turnWheel (session : Session) (position : Vec2 Float) (delta : Float) :
    Outcome × Session :=
  let (outcome, scene) := session.scene.turnWheel position delta
  (outcome, { session with scene := scene })

/-- Forget the navigation of one sphere. -/
def reset (session : Session) (globe : Globe) : Session :=
  { session with scene := session.scene.reset globe }

/-- Forget the navigation of both spheres. -/
def resetBoth (session : Session) : Session :=
  { session with scene := session.scene.resetBoth }

/-- Make the number shown under a position of the parameter sphere the parameter of
the dynamical sphere.  Says whether the position meets the sphere. -/
def chooseParameter (session : Session) (position : Vec2 Float) : Bool × Session :=
  match session.scene.numberUnder? position .parameter with
  | some point => (true, { session with parameter := point })
  | none => (false, session)

/-- Compile settings and take them over with their program. -/
def compile (session : Session) (settings : Shader.Settings) :
    Shader.Report × Session :=
  match settings.program with
  | .ok program =>
      (.compiled program,
        { session with settings := settings, program := some program })
  | .error error => (.failed error, session)

/-- Compile stored settings.  A text that stores none is not reported on. -/
def compileStored? (session : Session) (text : String) :
    Option (Shader.Report × Session) :=
  (Stored.read? text).map session.compile

/-- Text of the program. -/
def programText? (session : Session) : Option String :=
  session.program.map fun program => program.toJson.write

/-- Text of the settings. -/
def settingsText (session : Session) : String :=
  Stored.write session.settings

/-- Text of the navigation of both spheres. -/
def stateText (session : Session) : String :=
  Stored.write session.scene.snapshot

/-- Take over stored navigation.  Says whether the text stores any. -/
def restoreText (session : Session) (text : String) : Bool × Session :=
  match Snapshot.read? text with
  | some snapshot =>
      (true, { session with scene := session.scene.restore snapshot })
  | none => (false, session)

/-- Everything that can happen to a session. -/
inductive Action where
  | resize (width height : Float)
  | press (position : Vec2 Float)
  | release
  | move (position : Vec2 Float)
  | wheel (position : Vec2 Float) (delta : Float)
  | reset (globe : Globe)
  | resetBoth
  | choose (position : Vec2 Float)
  | compile (text : String)
  | restore (text : String)
  deriving DecidableEq, Repr

/-- The session after an action.  Settings that cannot be read change nothing. -/
def perform (session : Session) : Action → Session
  | .resize width height => session.resize width height
  | .press position => (session.press position).2
  | .release => session.release
  | .move position => (session.movePointer position).2
  | .wheel position delta => (session.turnWheel position delta).2
  | .reset globe => session.reset globe
  | .resetBoth => session.resetBoth
  | .choose position => (session.chooseParameter position).2
  | .compile text =>
      match session.compileStored? text with
      | some (_, next) => next
      | none => session
  | .restore text => (session.restoreText text).2

/-- The session after some actions, from the first to the last. -/
def replay (session : Session) (actions : List Action) : Session :=
  actions.foldl perform session

end Session

end Stereograph
