import Stereograph.Proofs.Decimal.Bits
import Stereograph.Proofs.Scene.History

/-!
# What gestures touch

A gesture reports what became of the spheres, and it touches no more than it reports.  A
drag turns one sphere, a step of the wheel zooms one, and neither moves a sphere from its
place.  The shape of the canvas is changed by `Gesture.reshape` alone, so the camera always
sees the scene by a positive ratio, and a reset of both spheres brings the navigation of a
fresh scene back.
-/

namespace Stereograph

variable {α : Type}

/-! ## Parts of a navigation -/

namespace Navigation

/-- Nothing but the turning of a sphere differs. -/
def OnlyTurned (before after : Navigation α) : Prop :=
  after = { before with rotation := after.rotation, inverseRotation := after.inverseRotation }

/-- Nothing but what the surface of a sphere shows differs. -/
def OnlyZoomed (before after : Navigation α) : Prop :=
  after = { before with mobius := after.mobius }

end Navigation

/-! ## Changes of one sphere -/

/-- One sphere is changed as `part` says, and the other is as it was. -/
structure Scene.ChangesOnly (part : Navigation α → Navigation α → Prop) (globe : Globe)
    (before after : Scene α) : Prop where
  changed : part (before.navigation globe) (after.navigation globe)
  kept : ∀ other, other ≠ globe → after.navigation other = before.navigation other

theorem Scene.ChangesOnly.withNavigation {part : Navigation α → Navigation α → Prop}
    {before middle : Scene α} {globe : Globe} {next : Navigation α}
    (same : middle.navigation = before.navigation)
    (changed : part (before.navigation globe) next) :
    ChangesOnly part globe before (middle.withNavigation globe next) where
  changed := by
    rw [navigation_withNavigation]
    exact changed
  kept other different := by
    rw [navigation_withNavigation_of_ne middle different, same]

/-- What a gesture with an outcome has done to both spheres, if all it can do to a sphere
is `part`. -/
def Outcome.Touches (outcome : Outcome) (part : Navigation α → Navigation α → Prop)
    (before after : Scene α) : Prop :=
  match outcome with
  | .missed => after.navigation = before.navigation
  | .unchanged _ => after.navigation = before.navigation
  | .updated globe => before.ChangesOnly part globe after

namespace Scene

theorem navigation_pointTo (scene : Scene α) (position : Vec2 α) :
    (scene.pointTo position).navigation = scene.navigation := by
  funext globe
  cases globe <;> rfl

/-- A snapshot shows the spheres and nothing else. -/
theorem snapshot_eq_of_navigation {before after : Scene α}
    (same : after.navigation = before.navigation) : after.snapshot = before.snapshot := by
  have parameter : after.parameter = before.parameter := congrFun same .parameter
  have dynamical : after.dynamical = before.dynamical := congrFun same .dynamical
  rw [snapshot, snapshot, parameter, dynamical]

/-- The camera sees both scenes alike. -/
structure SameCamera (before after : Scene α) : Prop where
  setup_eq : after.setup = before.setup
  aspect_eq : after.aspect = before.aspect
  projection_eq : after.projection = before.projection

theorem SameCamera.refl (scene : Scene α) : SameCamera scene scene :=
  ⟨rfl, rfl, rfl⟩

theorem SameCamera.trans {before middle after : Scene α} (first : SameCamera before middle)
    (second : SameCamera middle after) : SameCamera before after :=
  ⟨second.setup_eq.trans first.setup_eq, second.aspect_eq.trans first.aspect_eq,
    second.projection_eq.trans first.projection_eq⟩

theorem SameCamera.withNavigation {before middle : Scene α} (same : SameCamera before middle)
    (globe : Globe) (navigation : Navigation α) :
    SameCamera before (middle.withNavigation globe navigation) := by
  cases globe <;> exact ⟨same.setup_eq, same.aspect_eq, same.projection_eq⟩

end Scene

variable [Scalar α]

/-- What a gesture has done to both spheres.  A movement of the pointer and a step of the
wheel say so themselves, and say that they changed nothing where the drag cannot turn the
sphere that is held, or where the step defines no zoom. -/
def Gesture.Touches (before after : Scene α) : Gesture α → Prop
  | .reshape _ => after.navigation = before.navigation
  | .press _ => after.navigation = before.navigation
  | .release => after.navigation = before.navigation
  | .move position =>
      let moved := before.pointTo position
      (before.movePointer position).1.Touches Navigation.OnlyTurned before after ∧
        ∀ globe, moved.pointer.held = some globe →
          (before.navigation globe).rotate? moved.pointer.drag = none →
          before.movePointer position = (.unchanged globe, moved)
  | .wheel position delta =>
      let moved := before.pointTo position
      (before.turnWheel position delta).1.Touches Navigation.OnlyZoomed before after ∧
        ∀ globe degeneracy, before.pick position = some globe →
          (before.navigation globe).zoom (before.setup.wheelScale delta) = .error degeneracy →
          before.turnWheel position delta = (.unchanged globe, moved)
  | .reset globe => before.ChangesOnly (fun old new => new = .start old.model) globe after
  | .resetBoth => ∀ globe, after.navigation globe = .start (before.navigation globe).model
  | .restore snapshot =>
      after.parameter = snapshot.parameter ∧ after.dynamical = snapshot.dynamical

namespace Scene

variable (scene : Scene α)

/-! ## The spheres -/

theorem touches_movePointer (position : Vec2 α) :
    Gesture.Touches scene (scene.movePointer position).2 (.move position) := by
  obtain ⟨outcome, after, moved, drags⟩ := scene.exists_drags position
  have same := scene.navigation_pointTo position
  simp only [Gesture.Touches, moved]
  constructor
  · cases drags with
    | missed free => exact same
    | unchanged held still => exact same
    | updated held rotated =>
        rw [same] at rotated
        exact ChangesOnly.withNavigation same (Navigation.rotate?_frame rotated)
  · intro globe holds fails
    cases drags with
    | missed free =>
        rw [holds] at free
        cases free
    | unchanged held still =>
        cases holds.symm.trans held
        rfl
    | updated held rotated =>
        cases holds.symm.trans held
        rw [same, fails] at rotated
        cases rotated

theorem touches_turnWheel (position : Vec2 α) (delta : α) :
    Gesture.Touches scene (scene.turnWheel position delta).2 (.wheel position delta) := by
  obtain ⟨outcome, after, turned, wheels⟩ := scene.exists_wheels position delta
  have same := scene.navigation_pointTo position
  simp only [Gesture.Touches, turned]
  constructor
  · cases wheels with
    | missed outside => exact same
    | neutral inside one => exact same
    | refused inside notOne refusal => exact same
    | updated inside notOne zoomed =>
        rw [same] at zoomed
        exact ChangesOnly.withNavigation same (Navigation.zoom_frame zoomed)
  · intro globe degeneracy picks fails
    have found : (scene.pointTo position).pick position = some globe := picks
    cases wheels with
    | missed outside =>
        rw [found] at outside
        cases outside
    | neutral inside one =>
        cases found.symm.trans inside
        rfl
    | refused inside notOne refusal =>
        cases found.symm.trans inside
        rfl
    | updated inside notOne zoomed =>
        cases found.symm.trans inside
        rw [same] at zoomed
        cases fails.symm.trans zoomed

/-- Every gesture does to the spheres what it says and no more. -/
theorem touches_perform (gesture : Gesture α) :
    gesture.Touches scene (scene.perform gesture) := by
  cases gesture with
  | reshape aspect =>
      funext globe
      simp only [perform, reshape]
      split <;> cases globe <;> rfl
  | press position =>
      funext globe
      cases globe <;> rfl
  | release =>
      funext globe
      cases globe <;> rfl
  | move position => exact scene.touches_movePointer position
  | wheel position delta => exact scene.touches_turnWheel position delta
  | reset globe => exact ChangesOnly.withNavigation rfl rfl
  | resetBoth =>
      intro globe
      cases globe <;> rfl
  | restore snapshot => exact ⟨rfl, rfl⟩

/-- A step of the wheel over a sphere zooms it. -/
theorem navigation_perform_wheel {scene : Scene α} {position : Vec2 α} {delta : α} {globe : Globe}
    {next : Navigation α} (inside : scene.pick position = some globe)
    (notOne : (scene.setup.wheelScale delta == 1) = false)
    (zoomed : (scene.navigation globe).zoom (scene.setup.wheelScale delta) = .ok next) :
    (scene.perform (.wheel position delta)).navigation globe = next := by
  rw [← scene.navigation_pointTo position] at zoomed
  have found : (scene.pointTo position).pick position = some globe := inside
  have stretches : ((scene.pointTo position).setup.wheelScale delta == 1) = false := notOne
  have step : ((scene.pointTo position).navigation globe).zoom
      ((scene.pointTo position).setup.wheelScale delta) = .ok next := zoomed
  simp only [perform, turnWheel, found, stretches, step]
  exact navigation_withNavigation _ _ _

/-- A gesture that takes nothing over moves no sphere from its place. -/
theorem model_perform {gesture : Gesture α} (live : ∀ snapshot, gesture ≠ .restore snapshot)
    (globe : Globe) :
    ((scene.perform gesture).navigation globe).model = (scene.navigation globe).model := by
  obtain ⟨motions, moved⟩ := scene.follows_perform live globe
  rw [moved, Navigation.model_replay]

/-! ## The camera -/

/-- No gesture but a new shape of the canvas moves the camera. -/
theorem sameCamera_perform {gesture : Gesture α}
    (shaped : ∀ aspect, gesture ≠ .reshape aspect) :
    SameCamera scene (scene.perform gesture) := by
  cases gesture with
  | reshape aspect => exact absurd rfl (shaped aspect)
  | press position => exact ⟨rfl, rfl, rfl⟩
  | release => exact ⟨rfl, rfl, rfl⟩
  | move position =>
      obtain ⟨outcome, after, moved, drags⟩ := scene.exists_drags position
      have pointed : SameCamera scene (scene.pointTo position) := ⟨rfl, rfl, rfl⟩
      rw [perform, moved]
      cases drags with
      | missed free => exact pointed
      | unchanged held still => exact pointed
      | updated held rotated => exact pointed.withNavigation _ _
  | wheel position delta =>
      obtain ⟨outcome, after, turned, wheels⟩ := scene.exists_wheels position delta
      have pointed : SameCamera scene (scene.pointTo position) := ⟨rfl, rfl, rfl⟩
      rw [perform, turned]
      cases wheels with
      | missed outside => exact pointed
      | neutral inside one => exact pointed
      | refused inside notOne refusal => exact pointed
      | updated inside notOne zoomed => exact pointed.withNavigation _ _
  | reset globe => exact SameCamera.withNavigation ⟨rfl, rfl, rfl⟩ globe _
  | resetBoth => exact ⟨rfl, rfl, rfl⟩
  | restore snapshot => exact ⟨rfl, rfl, rfl⟩

/-- The pointer finds the same spheres where the camera has not changed. -/
theorem SameCamera.pick_eq {before after : Scene α} (same : SameCamera before after)
    (position : Vec2 α) : after.pick position = before.pick position := by
  rw [pick, pick, same.setup_eq, same.aspect_eq]

/-- The camera sees a scene of a setup by a positive ratio. -/
structure InFrame (setup : SceneSetup Float) (scene : Scene Float) : Prop where
  setup_eq : scene.setup = setup
  isFinite_aspect : Scalar.isFinite scene.aspect = true
  aspect_pos : 0 < scene.aspect
  projection_eq : scene.projection = setup.projection scene.aspect

namespace InFrame

variable {setup : SceneSetup Float} {scene : Scene Float}

theorem start (setup : SceneSetup Float) : InFrame setup (start setup) where
  setup_eq := rfl
  isFinite_aspect := by
    change Float.isFinite 1 = true
    decide +kernel
  aspect_pos := by
    change (0 : Float) < 1
    decide +kernel
  projection_eq := rfl

theorem reshape (inFrame : InFrame setup scene) (aspect : Float) :
    InFrame setup (scene.reshape aspect) := by
  rw [Scene.reshape]
  split
  next => exact inFrame
  next accepted =>
    simp only [Bool.or_eq_true, Bool.not_eq_true', decide_eq_true_eq, not_or,
      Bool.not_eq_false] at accepted
    exact
      { setup_eq := inFrame.setup_eq
        isFinite_aspect := accepted.1
        aspect_pos := Decimal.Binary.pos_of_not_le_zero accepted.1 accepted.2
        projection_eq := by rw [inFrame.setup_eq] }

theorem of_sameCamera {after : Scene Float} (inFrame : InFrame setup scene)
    (same : SameCamera scene after) : InFrame setup after := by
  obtain ⟨setupEq, aspectEq, projectionEq⟩ := same
  exact
    { setup_eq := setupEq.trans inFrame.setup_eq
      isFinite_aspect := aspectEq ▸ inFrame.isFinite_aspect
      aspect_pos := aspectEq ▸ inFrame.aspect_pos
      projection_eq := by rw [projectionEq, aspectEq, inFrame.projection_eq] }

theorem perform (inFrame : InFrame setup scene) (gesture : Gesture Float) :
    InFrame setup (scene.perform gesture) := by
  by_cases shape : ∃ aspect, gesture = .reshape aspect
  · obtain ⟨aspect, rfl⟩ := shape
    exact inFrame.reshape aspect
  · exact inFrame.of_sameCamera
      (scene.sameCamera_perform fun aspect same => shape ⟨aspect, same⟩)

theorem replay (setup : SceneSetup Float) (gestures : List (Gesture Float)) :
    InFrame setup ((Scene.start setup).replay gestures) :=
  List.foldlRecOn gestures _ (InFrame.start setup) fun _ inFrame gesture _ =>
    inFrame.perform gesture

end InFrame

/-! ## Runs -/

/-- Gestures that take nothing over leave every sphere in its place. -/
theorem model_replay {gestures : List (Gesture α)}
    (live : ∀ snapshot, .restore snapshot ∉ gestures) (globe : Globe) :
    ((scene.replay gestures).navigation globe).model = (scene.navigation globe).model := by
  refine List.foldlRecOn (motive := fun after : Scene α =>
    (after.navigation globe).model = (scene.navigation globe).model) gestures _ rfl ?_
  intro after kept gesture member
  have present : ∀ snapshot, gesture ≠ .restore snapshot := by
    rintro snapshot rfl
    exact live snapshot member
  rw [after.model_perform present, kept]

/-- Gestures that leave the canvas in shape leave the camera alone. -/
theorem sameCamera_replay {gestures : List (Gesture α)}
    (shaped : ∀ aspect, .reshape aspect ∉ gestures) :
    SameCamera scene (scene.replay gestures) := by
  refine List.foldlRecOn (motive := SameCamera scene) gestures _ (.refl scene) ?_
  intro after same gesture member
  apply same.trans
  apply sameCamera_perform
  rintro aspect rfl
  exact shaped aspect member

/-- Turning and zooming move no point of a sphere under the pointer. -/
theorem pointUnder?_replay {gestures : List (Gesture α)}
    (live : ∀ snapshot, .restore snapshot ∉ gestures)
    (shaped : ∀ aspect, .reshape aspect ∉ gestures) (position : Vec2 α) (globe : Globe) :
    (scene.replay gestures).pointUnder? position globe = scene.pointUnder? position globe := by
  rw [pointUnder?, pointUnder?, (scene.sameCamera_replay shaped).projection_eq,
    Navigation.center, Navigation.center, model_replay _ live]

/-- After gestures that take nothing over, a reset of both spheres undoes them all. -/
theorem snapshot_resetBoth_replay (setup : SceneSetup α) {gestures : List (Gesture α)}
    (live : ∀ snapshot, .restore snapshot ∉ gestures) :
    ((start setup).replay gestures).resetBoth.snapshot = (start setup).snapshot := by
  apply snapshot_eq_of_navigation
  funext globe
  have reset : (((start setup).replay gestures).resetBoth).navigation globe =
      .start (((start setup).replay gestures).navigation globe).model :=
    ((start setup).replay gestures).touches_perform .resetBoth globe
  rw [reset, model_replay _ live]
  cases globe <;> rfl

/-- In every scene every gesture does to the spheres what it says and no more, and no
gesture but a new shape of the canvas changes how the camera sees it.  After all gestures
from a fresh scene on, stored navigation of any origin included, the canvas has a positive
finite ratio and the camera the projection of that ratio.  If no stored navigation was taken
over, a reset of both spheres brings the snapshot of the fresh scene back. -/
theorem gestures_touch_as_told (setup : SceneSetup Float) :
    (∀ (scene : Scene Float) (gesture : Gesture Float),
      gesture.Touches scene (scene.perform gesture) ∧
        ((∀ aspect, gesture ≠ .reshape aspect) →
          (scene.perform gesture).aspect = scene.aspect ∧
            (scene.perform gesture).projection = scene.projection)) ∧
    ∀ gestures : List (Gesture Float),
      let scene := (start setup).replay gestures
      Scalar.isFinite scene.aspect = true ∧ 0 < scene.aspect ∧
        scene.projection = setup.projection scene.aspect ∧
        ((∀ snapshot, .restore snapshot ∉ gestures) →
          scene.resetBoth.snapshot = (start setup).snapshot) := by
  constructor
  · intro scene gesture
    refine ⟨scene.touches_perform gesture, ?_⟩
    intro shaped
    have same := scene.sameCamera_perform shaped
    exact ⟨same.aspect_eq, same.projection_eq⟩
  · intro gestures scene
    have inFrame := InFrame.replay setup gestures
    exact ⟨inFrame.isFinite_aspect, inFrame.aspect_pos, inFrame.projection_eq,
      snapshot_resetBoth_replay setup⟩

/-- A drag on the standard scene takes nothing over, and no part of it reshapes the canvas. -/
theorem gestures_touch_as_told_drag :
    (∀ snapshot, .restore snapshot ∉ [Gesture.press ⟨0, 0⟩, .move ⟨0.3, 0.2⟩, .release]) ∧
      (((start (SceneSetup.standard : SceneSetup Float)).replay
        [.press ⟨0, 0⟩, .move ⟨0.3, 0.2⟩, .release]).resetBoth.snapshot =
          (start SceneSetup.standard).snapshot) ∧
      (∀ aspect, Gesture.move ⟨0.3, 0.2⟩ ≠ .reshape aspect) ∧
        ((start (SceneSetup.standard : SceneSetup Float)).perform (.move ⟨0.3, 0.2⟩)).aspect =
          (start (SceneSetup.standard : SceneSetup Float)).aspect := by
  have live : ∀ snapshot : Snapshot Float,
      .restore snapshot ∉ [Gesture.press ⟨0, 0⟩, .move ⟨0.3, 0.2⟩, .release] := by
    simp
  obtain ⟨steps, runs⟩ := gestures_touch_as_told .standard
  have shaped : ∀ aspect, Gesture.move ⟨0.3, 0.2⟩ ≠ .reshape (aspect : Float) := nofun
  exact ⟨live, (runs _).2.2.2 live, shaped, ((steps _ _).2 shaped).1⟩

end Scene

end Stereograph
