import Mathlib.Data.List.Induction
import Stereograph.Proofs.Scene.Frame

/-!
# Drags as histories tell them

What the pointer holds and where it was last are read off the gestures that came before:
the last press or release says what is held, and the last gesture with a position says from
where the next drag starts.  A movement of the pointer turns the sphere that is held by that
drag, and no other gesture turns a sphere except to a turning that it brings along.
-/

namespace Stereograph

variable {α : Type} [Scalar α]

/-! ## What a history tells -/

namespace Gesture

/-- The position that a gesture brings the pointer to. -/
def position? : Gesture α → Option (Vec2 α)
  | .press position => some position
  | .move position => some position
  | .wheel position _ => some position
  | .reshape _ | .release | .reset _ | .resetBoth | .restore _ => none

/-- Whether a gesture presses or releases the button. -/
def isButton : Gesture α → Bool
  | .press _ | .release => true
  | .reshape _ | .move _ | .wheel _ _ | .reset _ | .resetBoth | .restore _ => false

/-- The turning and its inverse that a gesture brings along for a sphere. -/
def turning? (globe : Globe) : Gesture α → Option (Matrix4 α × Matrix4 α)
  | .reset other => if other = globe then some (.identity, .identity) else none
  | .resetBoth => some (.identity, .identity)
  | .restore snapshot =>
      match globe with
      | .parameter => some (snapshot.parameter.rotation, snapshot.parameter.inverseRotation)
      | .dynamical => some (snapshot.dynamical.rotation, snapshot.dynamical.inverseRotation)
  | .reshape _ | .press _ | .release | .move _ | .wheel _ _ => none

/-- The last press or release of a history. -/
def lastButton? (gestures : List (Gesture α)) : Option (Gesture α) :=
  (gestures.filter isButton).getLast?

/-- The last position of a history, the origin if it has none. -/
def lastPosition (gestures : List (Gesture α)) : Vec2 α :=
  (gestures.filterMap position?).getLast?.getD ⟨0, 0⟩

end Gesture

/-- The turning of a sphere with its inverse. -/
def Navigation.turning (navigation : Navigation α) : Matrix4 α × Matrix4 α :=
  (navigation.rotation, navigation.inverseRotation)

namespace Scene

variable (scene : Scene α)

/-! ## Steps -/

/-- What a gesture makes of the pointer. -/
def pointerAfter : Gesture α → Pointer α
  | .press position =>
      { scene.pointer.moved position with isPressed := true, grabbed := scene.pick position }
  | .release => { scene.pointer with isPressed := false, grabbed := none }
  | .move position => scene.pointer.moved position
  | .wheel position _ => scene.pointer.moved position
  | .reshape _ | .reset _ | .resetBoth | .restore _ => scene.pointer

omit [Scalar α] in
theorem pointer_withNavigation (globe : Globe) (navigation : Navigation α) :
    (scene.withNavigation globe navigation).pointer = scene.pointer := by
  cases globe <;> rfl

theorem pointer_perform (gesture : Gesture α) :
    (scene.perform gesture).pointer = scene.pointerAfter gesture := by
  cases gesture with
  | reshape aspect =>
      rw [perform, reshape]
      split <;> rfl
  | press position => rfl
  | release => rfl
  | move position =>
      obtain ⟨outcome, after, moved, drags⟩ := scene.exists_drags position
      rw [perform, moved]
      cases drags with
      | missed free => rfl
      | unchanged held still => rfl
      | updated held rotated => exact pointer_withNavigation (scene.pointTo position) _ _
  | wheel position delta =>
      obtain ⟨outcome, after, turned, wheels⟩ := scene.exists_wheels position delta
      rw [perform, turned]
      cases wheels with
      | missed outside => rfl
      | neutral inside one => rfl
      | refused inside notOne refusal => rfl
      | updated inside notOne zoomed =>
          exact pointer_withNavigation (scene.pointTo position) _ _
  | reset globe => exact scene.pointer_withNavigation globe _
  | resetBoth => rfl
  | restore snapshot => rfl

theorem setup_perform (gesture : Gesture α) : (scene.perform gesture).setup = scene.setup := by
  by_cases shape : ∃ aspect, gesture = .reshape aspect
  · obtain ⟨aspect, rfl⟩ := shape
    rw [perform, reshape]
    split <;> rfl
  · exact (scene.sameCamera_perform fun aspect same => shape ⟨aspect, same⟩).setup_eq

/-- The position is that of the gesture, if it has one. -/
theorem position_perform (gesture : Gesture α) :
    (scene.perform gesture).pointer.position =
      gesture.position?.getD scene.pointer.position := by
  rw [pointer_perform]
  cases gesture <;> rfl

/-- Only the button grabs and lets go. -/
theorem held_perform {gesture : Gesture α} (other : gesture.isButton = false) :
    (scene.perform gesture).pointer.isPressed = scene.pointer.isPressed ∧
      (scene.perform gesture).pointer.grabbed = scene.pointer.grabbed := by
  rw [pointer_perform]
  cases gesture with
  | press position => cases other
  | release => cases other
  | reshape aspect => exact ⟨rfl, rfl⟩
  | move position => exact ⟨rfl, rfl⟩
  | wheel position delta => exact ⟨rfl, rfl⟩
  | reset globe => exact ⟨rfl, rfl⟩
  | resetBoth => exact ⟨rfl, rfl⟩
  | restore snapshot => exact ⟨rfl, rfl⟩

omit [Scalar α] in
theorem turning_eq_of_touches {outcome : Outcome} {before after : Scene α}
    (touches : outcome.Touches Navigation.OnlyZoomed before after) (globe : Globe) :
    (after.navigation globe).turning = (before.navigation globe).turning := by
  cases outcome with
  | missed => rw [show after.navigation = before.navigation from touches]
  | unchanged picked => rw [show after.navigation = before.navigation from touches]
  | updated picked =>
      by_cases same : globe = picked
      · subst same
        rw [touches.changed]
        rfl
      · rw [touches.kept globe same]

/-- A gesture other than a movement of the pointer turns a sphere only to a turning that it
brings along. -/
theorem turning_perform {gesture : Gesture α} (other : ∀ position, gesture ≠ .move position)
    (globe : Globe) :
    ((scene.perform gesture).navigation globe).turning =
      (gesture.turning? globe).getD (scene.navigation globe).turning := by
  have touches := scene.touches_perform gesture
  cases gesture with
  | reshape aspect => rw [touches, Gesture.turning?, Option.getD_none]
  | press position => rw [touches, Gesture.turning?, Option.getD_none]
  | release => rw [touches, Gesture.turning?, Option.getD_none]
  | move position => exact absurd rfl (other position)
  | wheel position delta => exact turning_eq_of_touches touches.1 globe
  | reset target =>
      by_cases same : target = globe
      · subst same
        rw [touches.changed, Gesture.turning?, if_pos rfl]
        rfl
      · rw [touches.kept globe (Ne.symm same), Gesture.turning?, if_neg same, Option.getD_none]
  | resetBoth =>
      rw [touches globe]
      rfl
  | restore snapshot => cases globe <;> rfl

/-- A movement of the pointer turns the sphere that is held, by the way from where the pointer
was, and no other. -/
theorem navigation_perform_move (position : Vec2 α) :
    let last := scene.pointer.position
    let drag : Vec2 α := ⟨position.x - last.x, position.y - last.y⟩
    match scene.pointer.held with
    | none => (scene.perform (.move position)).navigation = scene.navigation
    | some globe =>
        (scene.perform (.move position)).navigation globe =
            (scene.navigation globe).perform (.rotate drag) ∧
          ∀ other, other ≠ globe →
            (scene.perform (.move position)).navigation other = scene.navigation other := by
  intro last drag
  obtain ⟨outcome, after, moved, drags⟩ := scene.exists_drags position
  have same := scene.navigation_pointTo position
  rw [perform, moved]
  cases drags with
  | missed free =>
      rw [show scene.pointer.held = none from free]
      exact same
  | @unchanged globe held still =>
      rw [same] at still
      rw [show scene.pointer.held = some globe from held]
      refine ⟨?_, fun other _ => congrFun same other⟩
      rw [Navigation.perform, show (scene.navigation globe).rotate? drag = none from still]
      exact congrFun same globe
  | @updated globe next held rotated =>
      rw [same] at rotated
      rw [show scene.pointer.held = some globe from held]
      constructor
      · rw [Navigation.perform,
          show (scene.navigation globe).rotate? drag = some next from rotated]
        exact navigation_withNavigation _ _ _
      · intro other different
        rw [navigation_withNavigation_of_ne _ different, same]

/-- A drag that starts over a sphere turns it by the way of the pointer. -/
theorem navigation_replay_drag {first last : Vec2 α} {globe : Globe}
    (inside : scene.pick first = some globe) :
    (scene.replay [.press first, .move last, .release]).navigation globe =
      (scene.navigation globe).perform (.rotate ⟨last.x - first.x, last.y - first.y⟩) := by
  let pressed := scene.perform (.press first)
  have held : pressed.pointer.held = some globe := inside
  have moved := pressed.navigation_perform_move last
  rw [held] at moved
  calc (scene.replay [.press first, .move last, .release]).navigation globe
      = (pressed.perform (.move last)).navigation globe :=
        congrFun ((pressed.perform (.move last)).touches_perform .release) globe
    _ = (scene.navigation globe).perform (.rotate ⟨last.x - first.x, last.y - first.y⟩) := by
        rw [moved.1, congrFun (scene.touches_perform (.press first)) globe]
        rfl

/-! ## Runs -/

theorem replay_concat (gestures : List (Gesture α)) (gesture : Gesture α) :
    scene.replay (gestures ++ [gesture]) = (scene.replay gestures).perform gesture := by
  rw [replay, List.foldl_append]
  rfl

theorem setup_replay (gestures : List (Gesture α)) :
    (scene.replay gestures).setup = scene.setup := by
  refine List.foldlRecOn (motive := fun after : Scene α => after.setup = scene.setup)
    gestures _ rfl ?_
  intro after kept gesture _
  rw [setup_perform, kept]

/-- Gestures without the button keep what is held. -/
theorem held_replay {gestures : List (Gesture α)}
    (others : ∀ gesture ∈ gestures, gesture.isButton = false) :
    (scene.replay gestures).pointer.isPressed = scene.pointer.isPressed ∧
      (scene.replay gestures).pointer.grabbed = scene.pointer.grabbed := by
  refine List.foldlRecOn (motive := fun after : Scene α =>
    after.pointer.isPressed = scene.pointer.isPressed ∧
      after.pointer.grabbed = scene.pointer.grabbed) gestures _ ⟨rfl, rfl⟩ ?_
  intro after kept gesture member
  obtain ⟨pressed, grabbed⟩ := after.held_perform (others gesture member)
  exact ⟨pressed.trans kept.1, grabbed.trans kept.2⟩

/-- The pointer is as a history tells. -/
structure PointerTold (gestures : List (Gesture α)) (pointer : Pointer α) : Prop where
  position_eq : pointer.position = Gesture.lastPosition gestures
  isPressed_iff : pointer.isPressed = true ↔
    ∃ position, Gesture.lastButton? gestures = some (.press position)
  grabbed_eq : pointer.isPressed = false → pointer.grabbed = none

theorem PointerTold.perform {gestures : List (Gesture α)}
    (told : PointerTold gestures scene.pointer) (gesture : Gesture α) :
    PointerTold (gestures ++ [gesture]) (scene.perform gesture).pointer where
  position_eq := by
    rw [position_perform, told.position_eq]
    simp only [Gesture.lastPosition, List.filterMap_append]
    cases found : gesture.position? with
    | none => simp [found]
    | some position => simp [found]
  isPressed_iff := by
    by_cases button : gesture.isButton = true
    · have last : Gesture.lastButton? (gestures ++ [gesture]) = some gesture := by
        simp [Gesture.lastButton?, button]
      rw [last, pointer_perform]
      cases gesture with
      | press position => simp [pointerAfter]
      | release => simp [pointerAfter]
      | _ => cases button
    · rw [Bool.not_eq_true] at button
      have last : Gesture.lastButton? (gestures ++ [gesture]) = Gesture.lastButton? gestures := by
        simp [Gesture.lastButton?, button]
      rw [last, (scene.held_perform button).1]
      exact told.isPressed_iff
  grabbed_eq := by
    intro free
    by_cases button : gesture.isButton = true
    · rw [pointer_perform] at free ⊢
      cases gesture with
      | press position => cases free
      | release => rfl
      | _ => cases button
    · rw [Bool.not_eq_true] at button
      obtain ⟨pressed, grabbed⟩ := scene.held_perform button
      rw [pressed] at free
      rw [grabbed, told.grabbed_eq free]

theorem PointerTold.replay (setup : SceneSetup α) (gestures : List (Gesture α)) :
    PointerTold gestures ((start setup).replay gestures).pointer := by
  induction gestures using List.reverseRecOn with
  | nil =>
      exact
        { position_eq := rfl
          isPressed_iff := by simp [Scene.replay, start, Pointer.start, Gesture.lastButton?]
          grabbed_eq := fun _ => rfl }
  | append_singleton gestures gesture told =>
      rw [replay_concat]
      exact told.perform _ gesture

/-- A pressed pointer holds what the last press picked, on the canvas of that moment. -/
theorem grabbed_replay_press (setup : SceneSetup α) (before : List (Gesture α))
    (position : Vec2 α) {after : List (Gesture α)}
    (others : ∀ gesture ∈ after, gesture.isButton = false) :
    ((start setup).replay (before ++ .press position :: after)).pointer.grabbed =
      setup.pick ((start setup).replay before).aspect position := by
  have pressed : (start setup).replay (before ++ .press position :: after) =
      (((start setup).replay before).perform (.press position)).replay after := by
    rw [replay, List.foldl_append]
    rfl
  rw [pressed, (held_replay _ others).2, pointer_perform]
  change ((start setup).replay before).pick position = _
  rw [pick, setup_replay]
  rfl

end Scene

open Scene in
/-- After every history of a fresh scene the button is pressed if and only if the last press
or release was a press.  The pointer then holds what that press picked, on the canvas of that
moment, and otherwise nothing.  A movement of the pointer turns exactly the sphere that is
held, by the way from the last position of the history, and no other gesture turns a sphere
except to a turning that it brings along. -/
theorem Gesture.drags_as_told (setup : SceneSetup α) (gestures : List (Gesture α)) :
    let scene := (start setup).replay gestures
    (scene.pointer.isPressed = true ↔ ∃ position, lastButton? gestures = some (.press position)) ∧
    (scene.pointer.isPressed = false → scene.pointer.grabbed = none) ∧
    (∀ before position after, gestures = before ++ .press position :: after →
      (∀ gesture ∈ after, gesture.isButton = false) →
      scene.pointer.grabbed = setup.pick ((start setup).replay before).aspect position) ∧
    (∀ position : Vec2 α,
      let last := lastPosition gestures
      let drag : Vec2 α := ⟨position.x - last.x, position.y - last.y⟩
      let next := scene.perform (.move position)
      match scene.pointer.grabbed with
      | none => next.navigation = scene.navigation
      | some globe =>
          next.navigation globe = (scene.navigation globe).perform (.rotate drag) ∧
            ∀ other, other ≠ globe → next.navigation other = scene.navigation other) ∧
    ∀ gesture : Gesture α, (∀ position, gesture ≠ .move position) → ∀ globe,
      ((scene.perform gesture).navigation globe).turning =
        (gesture.turning? globe).getD (scene.navigation globe).turning := by
  intro scene
  have told : PointerTold gestures scene.pointer := .replay setup gestures
  refine ⟨told.isPressed_iff, told.grabbed_eq, ?_, ?_, ?_⟩
  · intro before position after history others
    subst history
    exact grabbed_replay_press setup before position others
  · intro position last drag next
    have moved := scene.navigation_perform_move position
    have held : scene.pointer.held = scene.pointer.grabbed := by
      rw [Pointer.held]
      split
      next => rfl
      next free => rw [told.grabbed_eq (Bool.not_eq_true _ ▸ free)]
    rw [held, told.position_eq] at moved
    exact moved
  · intro gesture other globe
    exact scene.turning_perform other globe

open Scene in
/-- A pressed pointer holds what it picked while it moves and the wheel turns. -/
theorem Gesture.drags_as_told_press :
    (∀ gesture ∈ [Gesture.move ⟨0.3, 0.2⟩, .wheel ⟨0, 0⟩ (120 : Float)],
        gesture.isButton = false) ∧
      ((start SceneSetup.standard).replay
          ([.wheel ⟨0, 0⟩ (120 : Float)] ++
            .press ⟨0, 0⟩ :: [.move ⟨0.3, 0.2⟩, .wheel ⟨0, 0⟩ 120])).pointer.grabbed =
        SceneSetup.standard.pick
          ((start SceneSetup.standard).replay [.wheel ⟨0, 0⟩ (120 : Float)]).aspect ⟨0, 0⟩ := by
  have others : ∀ gesture ∈ [Gesture.move ⟨0.3, 0.2⟩, .wheel ⟨0, 0⟩ (120 : Float)],
      gesture.isButton = false := by
    simp [Gesture.isButton]
  obtain ⟨-, -, held, -⟩ := Gesture.drags_as_told SceneSetup.standard
    ([.wheel ⟨0, 0⟩ (120 : Float)] ++ .press ⟨0, 0⟩ :: [.move ⟨0.3, 0.2⟩, .wheel ⟨0, 0⟩ 120])
  exact ⟨others, held _ _ _ rfl others⟩

end Stereograph
