import Stereograph.Scene.History

/-!
# What histories keep

What every motion keeps is kept through every history of a sphere.  A gesture moves each
sphere of a scene by motions of its own, so every sphere of a reachable scene has a history
that starts in its place.
-/

namespace Stereograph

variable {α : Type}

namespace Scene

/-! ## Navigation of a changed scene -/

@[simp] theorem navigation_withNavigation (scene : Scene α) (globe : Globe)
    (navigation : Navigation α) :
    (scene.withNavigation globe navigation).navigation globe = navigation := by
  cases globe <;> rfl

theorem navigation_withNavigation_of_ne (scene : Scene α) {globe other : Globe}
    (different : other ≠ globe) (navigation : Navigation α) :
    (scene.withNavigation globe navigation).navigation other = scene.navigation other := by
  cases globe with
  | parameter =>
      cases other with
      | parameter => exact absurd rfl different
      | dynamical => rfl
  | dynamical =>
      cases other with
      | parameter => rfl
      | dynamical => exact absurd rfl different

theorem navigation_restore_snapshot (scene stored : Scene α) :
    (scene.restore stored.snapshot).navigation = stored.navigation := by
  funext globe
  cases globe <;> rfl

end Scene

variable [Scalar α]

namespace Navigation

variable {navigation next : Navigation α}

/-! ## Frames -/

/-- A drag changes nothing but the turning. -/
theorem rotate?_frame {drag : Vec2 α} (rotated : navigation.rotate? drag = some next) :
    next = { navigation with
      rotation := next.rotation, inverseRotation := next.inverseRotation } := by
  simp only [rotate?, Option.bind_eq_bind, Option.bind_eq_some_iff] at rotated
  obtain ⟨step, -, inverse, -, rotated⟩ := rotated
  cases rotated
  rfl

/-- A zoom changes what the surface shows by the transform about the two poles. -/
theorem zoom_eq_ok_iff {scale : α} :
    navigation.zoom scale = .ok next ↔
      ∃ increment, Mobius.zoom navigation.nearPole navigation.farPole scale = .ok increment ∧
        { navigation with mobius := (navigation.mobius.compose increment).normalized } =
          next := by
  rw [zoom]
  cases Mobius.zoom navigation.nearPole navigation.farPole scale with
  | error degeneracy =>
      constructor
      · intro impossible
        cases impossible
      · rintro ⟨increment, impossible, -⟩
        cases impossible
  | ok increment =>
      constructor
      · intro zoomed
        cases zoomed
        exact ⟨increment, rfl, rfl⟩
      · rintro ⟨increment, defined, rfl⟩
        cases defined
        rfl

/-- A zoom changes nothing but what the surface shows. -/
theorem zoom_frame {scale : α} (zoomed : navigation.zoom scale = .ok next) :
    next = { navigation with mobius := next.mobius } := by
  obtain ⟨increment, -, rfl⟩ := zoom_eq_ok_iff.mp zoomed
  rfl

/-! ## Histories of one sphere -/

/-- What a sphere has and keeps through every motion that changes it, it has after every
history. -/
theorem replay_induction (holds : Navigation α → Prop)
    (rotated : ∀ {navigation next drag}, holds navigation →
      navigation.rotate? drag = some next → holds next)
    (zoomed : ∀ {navigation next scale}, holds navigation →
      navigation.zoom scale = .ok next → holds next)
    (reset : ∀ {navigation}, holds navigation → holds navigation.reset)
    (first : holds navigation) (motions : List (Motion α)) :
    holds (navigation.replay motions) := by
  induction motions generalizing navigation with
  | nil => exact first
  | cons motion motions hypothesis =>
      apply hypothesis
      cases motion with
      | rotate drag =>
          cases step : navigation.rotate? drag with
          | none =>
              rw [perform, step]
              exact first
          | some next =>
              rw [perform, step]
              exact rotated first step
      | zoom scale =>
          cases step : navigation.zoom scale with
          | error degeneracy =>
              rw [perform, step]
              exact first
          | ok next =>
              rw [perform, step]
              exact zoomed first step
      | reset => exact reset first

theorem replay_append (navigation : Navigation α) (first second : List (Motion α)) :
    navigation.replay (first ++ second) = (navigation.replay first).replay second :=
  List.foldl_append

/-- No history moves a sphere from its place. -/
theorem model_replay (motions : List (Motion α)) :
    (navigation.replay motions).model = navigation.model := by
  refine replay_induction (fun next => next.model = navigation.model) ?_ ?_ ?_ rfl motions
  · intro before after drag kept rotated
    rw [rotate?_frame rotated]
    exact kept
  · intro before after scale kept zoomed
    rw [zoom_frame zoomed]
    exact kept
  · intro before kept
    exact kept

end Navigation

namespace Scene

variable {scene middle last : Scene α}

/-! ## Gestures case by case -/

/-- What a movement of the pointer makes of a scene that has recorded it. -/
inductive Drags (scene : Scene α) : Outcome → Scene α → Prop
  | missed (free : scene.pointer.held = none) : Drags scene .missed scene
  | unchanged {globe : Globe} (held : scene.pointer.held = some globe)
      (still : (scene.navigation globe).rotate? scene.pointer.drag = none) :
      Drags scene (.unchanged globe) scene
  | updated {globe : Globe} {next : Navigation α} (held : scene.pointer.held = some globe)
      (rotated : (scene.navigation globe).rotate? scene.pointer.drag = some next) :
      Drags scene (.updated globe) (scene.withNavigation globe next)

theorem exists_drags (scene : Scene α) (position : Vec2 α) :
    ∃ outcome after, scene.movePointer position = (outcome, after) ∧
      Drags (scene.pointTo position) outcome after := by
  simp only [movePointer]
  split
  next free => exact ⟨_, _, rfl, .missed free⟩
  next globe held =>
    split
    next next rotated => exact ⟨_, _, rfl, .updated held rotated⟩
    next still => exact ⟨_, _, rfl, .unchanged held still⟩

/-- What a step of the wheel makes of a scene that has recorded the pointer. -/
inductive Wheels (scene : Scene α) (position : Vec2 α) (delta : α) : Outcome → Scene α → Prop
  | missed (outside : scene.pick position = none) : Wheels scene position delta .missed scene
  | neutral {globe : Globe} (inside : scene.pick position = some globe)
      (one : (scene.setup.wheelScale delta == 1) = true) :
      Wheels scene position delta (.unchanged globe) scene
  | refused {globe : Globe} {degeneracy : Degeneracy α}
      (inside : scene.pick position = some globe)
      (notOne : ¬(scene.setup.wheelScale delta == 1) = true)
      (refusal : (scene.navigation globe).zoom (scene.setup.wheelScale delta) =
        .error degeneracy) :
      Wheels scene position delta (.unchanged globe) scene
  | updated {globe : Globe} {next : Navigation α} (inside : scene.pick position = some globe)
      (notOne : ¬(scene.setup.wheelScale delta == 1) = true)
      (zoomed : (scene.navigation globe).zoom (scene.setup.wheelScale delta) = .ok next) :
      Wheels scene position delta (.updated globe) (scene.withNavigation globe next)

theorem exists_wheels (scene : Scene α) (position : Vec2 α) (delta : α) :
    ∃ outcome after, scene.turnWheel position delta = (outcome, after) ∧
      Wheels (scene.pointTo position) position delta outcome after := by
  simp only [turnWheel]
  split
  next outside => exact ⟨_, _, rfl, .missed outside⟩
  next globe inside =>
    split
    next one => exact ⟨_, _, rfl, .neutral inside one⟩
    next notOne =>
      split
      next next zoomed => exact ⟨_, _, rfl, .updated inside notOne zoomed⟩
      next degeneracy refusal => exact ⟨_, _, rfl, .refused inside notOne refusal⟩

/-! ## Gestures as motions -/

/-- Every sphere of the second scene is moved by motions from where it was in the first. -/
def Follows (scene next : Scene α) : Prop :=
  ∀ globe, ∃ motions, next.navigation globe = (scene.navigation globe).replay motions

theorem Follows.of_navigation (same : middle.navigation = scene.navigation) :
    Follows scene middle := by
  intro globe
  exact ⟨[], congrFun same globe⟩

theorem Follows.trans (first : Follows scene middle) (second : Follows middle last) :
    Follows scene last := by
  intro globe
  obtain ⟨motions, middleEq⟩ := first globe
  obtain ⟨others, lastEq⟩ := second globe
  refine ⟨motions ++ others, ?_⟩
  rw [lastEq, middleEq, Navigation.replay_append]

/-- One motion of one sphere. -/
theorem Follows.withNavigation (scene : Scene α) (globe : Globe) (motion : Motion α) :
    Follows scene (scene.withNavigation globe ((scene.navigation globe).perform motion)) := by
  intro other
  by_cases same : other = globe
  · cases same
    exact ⟨[motion], navigation_withNavigation scene globe _⟩
  · exact ⟨[], navigation_withNavigation_of_ne scene same _⟩

theorem follows_pointTo (scene : Scene α) (position : Vec2 α) :
    Follows scene (scene.pointTo position) :=
  .of_navigation (funext fun globe => by cases globe <;> rfl)

theorem follows_movePointer (scene : Scene α) (position : Vec2 α) :
    Follows scene (scene.movePointer position).2 := by
  obtain ⟨outcome, after, moved, drags⟩ := scene.exists_drags position
  rw [moved]
  apply (follows_pointTo scene position).trans
  cases drags with
  | missed free => exact .of_navigation rfl
  | unchanged held still => exact .of_navigation rfl
  | @updated globe next held rotated =>
      have performed : next = ((scene.pointTo position).navigation globe).perform
          (.rotate (scene.pointTo position).pointer.drag) := by
        rw [Navigation.perform, rotated, Option.getD_some]
      rw [performed]
      exact .withNavigation _ _ _

theorem follows_turnWheel (scene : Scene α) (position : Vec2 α) (delta : α) :
    Follows scene (scene.turnWheel position delta).2 := by
  obtain ⟨outcome, after, turned, wheels⟩ := scene.exists_wheels position delta
  rw [turned]
  apply (follows_pointTo scene position).trans
  cases wheels with
  | missed outside => exact .of_navigation rfl
  | neutral inside one => exact .of_navigation rfl
  | refused inside notOne refusal => exact .of_navigation rfl
  | @updated globe next inside notOne zoomed =>
      have performed : next = ((scene.pointTo position).navigation globe).perform
          (.zoom ((scene.pointTo position).setup.wheelScale delta)) := by
        rw [Navigation.perform, zoomed]
        rfl
      rw [performed]
      exact .withNavigation _ _ _

theorem follows_reset (scene : Scene α) (globe : Globe) : Follows scene (scene.reset globe) :=
  .withNavigation scene globe .reset

/-- A gesture that takes nothing over moves each sphere by motions of its own. -/
theorem follows_perform (scene : Scene α) {gesture : Gesture α}
    (live : ∀ snapshot, gesture ≠ .restore snapshot) :
    Follows scene (scene.perform gesture) := by
  cases gesture with
  | reshape aspect =>
      apply Follows.of_navigation
      funext globe
      simp only [perform, reshape]
      split <;> cases globe <;> rfl
  | press position =>
      apply Follows.of_navigation
      funext globe
      cases globe <;> rfl
  | release =>
      apply Follows.of_navigation
      funext globe
      cases globe <;> rfl
  | move position => exact follows_movePointer scene position
  | wheel position delta => exact follows_turnWheel scene position delta
  | reset globe => exact follows_reset scene globe
  | resetBoth => exact (follows_reset scene .parameter).trans (follows_reset _ .dynamical)
  | restore snapshot => exact absurd rfl (live snapshot)

/-- Gestures that take nothing over lead from a reachable scene to reachable ones. -/
theorem Reachable.replay (reachable : scene.Reachable) {gestures : List (Gesture α)}
    (live : ∀ snapshot, .restore snapshot ∉ gestures) : (scene.replay gestures).Reachable := by
  refine List.foldlRecOn (motive := Reachable) gestures _ reachable ?_
  intro after reached gesture member
  apply reached.perform
  rintro snapshot rfl
  exact live snapshot member

/-- Every sphere of a reachable scene has a history that starts in its place. -/
theorem Reachable.exists_replay (reachable : scene.Reachable) (globe : Globe) :
    ∃ model motions, scene.navigation globe = (Navigation.start model).replay motions := by
  induction reachable with
  | start setup =>
      cases globe with
      | parameter => exact ⟨setup.parameter.model, [], rfl⟩
      | dynamical => exact ⟨setup.dynamical.model, [], rfl⟩
  | @perform scene gesture reachable live hypothesis =>
      obtain ⟨model, motions, before⟩ := hypothesis
      obtain ⟨others, after⟩ := follows_perform scene live globe
      refine ⟨model, motions ++ others, ?_⟩
      rw [after, before, Navigation.replay_append]
  | restore reachable storedReachable hypothesis storedHypothesis =>
      rw [Scene.perform, navigation_restore_snapshot]
      exact storedHypothesis

end Scene

end Stereograph
