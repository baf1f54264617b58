import Stereograph.Scene.Scene

/-!
# Histories

What happens to one sphere is a list of motions.  A motion that turns nothing or defines
no zoom leaves the sphere as it is.  What happens to a scene is a list of gestures, and a
scene is reachable if they lead to it from a start and nothing was taken over but what
such a scene stored.
-/

namespace Stereograph

/-- What can happen to one sphere. -/
inductive Motion (α : Type) where
  | rotate (drag : Vec2 α)
  | zoom (scale : α)
  | reset
  deriving DecidableEq, Repr

variable {α : Type} [Scalar α]

namespace Navigation

/-- The sphere after a motion. -/
def perform (navigation : Navigation α) : Motion α → Navigation α
  | .rotate drag => (navigation.rotate? drag).getD navigation
  | .zoom scale => (navigation.zoom scale).toOption.getD navigation
  | .reset => navigation.reset

/-- The sphere after some motions, from the first to the last. -/
def replay (navigation : Navigation α) (motions : List (Motion α)) : Navigation α :=
  motions.foldl perform navigation

end Navigation

namespace Scene

/-- The scenes that gestures lead to, where stored navigation comes from such a scene
itself. -/
inductive Reachable : Scene α → Prop where
  | start (setup : SceneSetup α) : Reachable (start setup)
  | perform {scene : Scene α} {gesture : Gesture α} (reachable : Reachable scene)
      (live : ∀ snapshot, gesture ≠ .restore snapshot) : Reachable (scene.perform gesture)
  | restore {scene stored : Scene α} (reachable : Reachable scene)
      (storedReachable : Reachable stored) :
      Reachable (scene.perform (.restore stored.snapshot))

end Scene

end Stereograph
