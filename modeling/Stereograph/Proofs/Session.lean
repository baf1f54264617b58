import Mathlib.Data.List.Induction
import Stereograph.Proofs.Json.Stored
import Stereograph.Session

/-!
# The program of a session belongs to its settings

Only a compilation that succeeds touches the settings and the program of a session, and it
touches both.  So they are those of the last successful compilation of the history, and a
session that has not had one still has the standard settings and no program.  The settings
are read back from their text, hence compiling that text again changes nothing.
-/

namespace Stereograph

namespace Shader

/-- Settings are read back from their text. -/
theorem lasts_settings (settings : Settings) : Stored.Lasts settings where
  literals := by
    refine Json.hasLiterals_ofMembers fun member listed => ?_
    simp only [List.mem_cons, List.not_mem_nil, or_false] at listed
    obtain rfl | rfl | rfl | rfl := listed
    · exact (Stored.lasts_string settings.iteration).literals
    · exact (Stored.lasts_string settings.criticalPoint).literals
    · exact (Stored.lasts_string settings.parameter).literals
    · exact (Stored.lasts_word settings.maximumIterations).literals
  accepted :=
    Json.record₄?_ofMembers (by decide) Settings.mk (Stored.lasts_string settings.iteration)
      (Stored.lasts_string settings.criticalPoint) (Stored.lasts_string settings.parameter)
      (Stored.lasts_word settings.maximumIterations)

theorem hasLiterals_program (program : Program) : program.toJson.HasLiterals := by
  refine Json.hasLiterals_ofMembers fun member listed => ?_
  simp only [List.mem_cons, List.not_mem_nil, or_false] at listed
  obtain rfl | rfl | rfl := listed <;> exact (Stored.lasts_string _).literals

/-- The stored form of a report: its status, and the program or the message. -/
def Report.toJson : Report → Json
  | .compiled program => .ofMembers [Json.member "status" "ok", ("program", program.toJson)]
  | .failed error =>
      .ofMembers [Json.member "status" "error", Json.member "message" error.message]

/-- A report can be read back from its text. -/
theorem Report.read?_write (report : Report) :
    Json.read? report.write = some report.toJson := by
  cases report with
  | compiled program =>
      refine Json.read?_write (Json.hasLiterals_ofMembers fun member listed => ?_)
      simp only [List.mem_cons, List.not_mem_nil, or_false] at listed
      obtain rfl | rfl := listed
      · exact (Stored.lasts_string "ok").literals
      · exact hasLiterals_program program
  | failed error =>
      refine Json.read?_write (Json.hasLiterals_ofMembers fun member listed => ?_)
      simp only [List.mem_cons, List.not_mem_nil, or_false] at listed
      obtain rfl | rfl := listed <;> exact (Stored.lasts_string _).literals

end Shader

namespace Session

open Shader

/-! ## Compilations of a history -/

/-- The settings that a text stores with their program, if they have one. -/
def compilation? (text : String) : Option (Settings × Program) := do
  let settings : Settings ← Stored.read? text
  match settings.program with
  | .ok program => some (settings, program)
  | .error _ => none

/-- The settings and the program of a compilation that succeeds. -/
def Action.compilation? : Action → Option (Settings × Program)
  | .compile text => Session.compilation? text
  | .resize _ _ | .press _ | .release | .move _ | .wheel _ _ | .reset _ | .resetBoth
  | .choose _ | .restore _ => none

/-- The last successful compilation of a history. -/
def lastCompilation? (actions : List Action) : Option (Settings × Program) :=
  (actions.filterMap Action.compilation?).getLast?

/-- A successful compilation is one of settings with their program. -/
theorem program_of_compilation? {text : String} {settings : Settings} {program : Program}
    (compiled : compilation? text = some (settings, program)) :
    settings.program = .ok program := by
  obtain ⟨stored, read, rest⟩ := Option.bind_eq_some_iff.mp compiled
  split at rest
  next succeeds =>
    cases rest
    exact succeeds
  next => cases rest

theorem program_of_lastCompilation? {actions : List Action} {settings : Settings}
    {program : Program} (last : lastCompilation? actions = some (settings, program)) :
    settings.program = .ok program := by
  obtain ⟨action, _, compiled⟩ := List.mem_filterMap.mp (List.mem_of_getLast? last)
  cases action with
  | compile text => exact program_of_compilation? compiled
  | _ => cases compiled

/-! ## Steps -/

/-- What a session reports and what becomes of it when a text is compiled. -/
inductive Compiles (session : Session) (text : String) : Option Report → Session → Prop
  | unreadable (unread : (Stored.read? text : Option Settings) = none) :
      Compiles session text none session
  | failed {settings : Settings} {error : FormulaError}
      (read : Stored.read? text = some settings) (fails : settings.program = .error error) :
      Compiles session text (some (.failed error)) session
  | compiled {settings : Settings} {program : Program}
      (read : Stored.read? text = some settings) (succeeds : settings.program = .ok program) :
      Compiles session text (some (.compiled program))
        { session with settings := settings, program := some program }

/-- Settings and program change together or not at all. -/
theorem compiles_perform (session : Session) (text : String) :
    Compiles session text ((session.compileStored? text).map Prod.fst)
      (session.perform (.compile text)) := by
  rw [perform]
  cases read : (Stored.read? text : Option Settings) with
  | none =>
      rw [compileStored?, read]
      exact .unreadable read
  | some settings =>
      cases result : settings.program with
      | error error =>
          simpa [compileStored?, read, compile, result] using
            (Compiles.failed read result : Compiles session _ _ _)
      | ok program =>
          simpa [compileStored?, read, compile, result] using
            (Compiles.compiled read result : Compiles session _ _ _)

/-- What a session compiles: its settings and, once there is one, its program. -/
def compiled (session : Session) : Settings × Option Program :=
  (session.settings, session.program)

/-- No action but a compilation touches the settings or the program. -/
theorem compiled_perform_of_ne (session : Session) {action : Action}
    (other : ∀ text, action ≠ .compile text) :
    (session.perform action).compiled = session.compiled := by
  cases action with
  | compile text => exact absurd rfl (other text)
  | resize width height =>
      rw [perform, resize]
      split <;> rfl
  | choose position =>
      rw [perform, chooseParameter]
      split <;> rfl
  | restore text =>
      rw [perform, restoreText]
      split <;> rfl
  | _ => rfl

/-- What a session compiles after an action or a history, by the last successful compilation
and by what it compiled before. -/
def compiledAfter (before : Settings × Option Program) :
    Option (Settings × Program) → Settings × Option Program
  | some (settings, program) => (settings, some program)
  | none => before

/-- A compilation that succeeds is taken over, and one that fails is forgotten. -/
theorem compiled_perform (session : Session) (action : Action) :
    (session.perform action).compiled = compiledAfter session.compiled action.compilation? := by
  cases action with
  | compile text =>
      have compiles := session.compiles_perform text
      generalize (session.compileStored? text).map Prod.fst = report at compiles
      generalize session.perform (.compile text) = after at compiles ⊢
      rw [Action.compilation?, compilation?]
      cases compiles with
      | unreadable unread => rw [unread]; rfl
      | failed read fails => simp [read, fails, compiledAfter]
      | compiled read succeeds => simp [read, succeeds, compiledAfter, compiled]
  | _ => exact session.compiled_perform_of_ne nofun

/-! ## Histories -/

/-- The settings and the program are those of the last successful compilation. -/
theorem compiled_replay (session : Session) (actions : List Action) :
    (session.replay actions).compiled =
      compiledAfter session.compiled (lastCompilation? actions) := by
  induction actions using List.reverseRecOn with
  | nil => rfl
  | append_singleton actions action hypothesis =>
      rw [replay, List.foldl_concat, ← replay, compiled_perform, hypothesis, lastCompilation?,
        lastCompilation?, List.filterMap_append]
      cases found : action.compilation? with
      | none => simp [found, compiledAfter]
      | some result => simp [found, compiledAfter]

/-- A session whose program is that of its settings compiles their text to the same. -/
theorem compileStored?_settingsText {session : Session} {program : Program}
    (succeeds : session.settings.program = .ok program)
    (has : session.program = some program) :
    session.compileStored? session.settingsText = some (.compiled program, session) := by
  rw [compileStored?, settingsText, (lasts_settings session.settings).read?_write,
    Option.map_some, compile, succeeds]
  simp only [← has]

/-- The settings and the program of a session belong together, as the last successful
compilation says. -/
inductive Belongs (session : Session) : Option (Settings × Program) → Prop
  | standard (settings_eq : session.settings = .standard) (program_eq : session.program = none) :
      Belongs session none
  | compiled {settings : Settings} {program : Program}
      (succeeds : settings.program = .ok program) (settings_eq : session.settings = settings)
      (program_eq : session.program = some program) : Belongs session (some (settings, program))

theorem belongs_replay (actions : List Action) :
    Belongs (start.replay actions) (lastCompilation? actions) := by
  have compiles := start.compiled_replay actions
  cases last : lastCompilation? actions with
  | none =>
      rw [last] at compiles
      exact .standard (congrArg Prod.fst compiles) (congrArg Prod.snd compiles)
  | some result =>
      rw [last] at compiles
      exact .compiled (program_of_lastCompilation? last) (congrArg Prod.fst compiles)
        (congrArg Prod.snd compiles)

/-- After every history the program is that of the settings, and the settings are those of
the last successful compilation, the standard ones without a program before the first.  A
compilation that fails changes nothing and reports an error, one that succeeds reports the
program that it stores, and no other action touches settings or program.  Once there is a
program, compiling the text of the settings reports it again and changes nothing. -/
theorem program_belongs_to_settings :
    (∀ actions, Belongs (start.replay actions) (lastCompilation? actions)) ∧
    (∀ session text,
      Compiles session text ((session.compileStored? text).map Prod.fst)
        (session.perform (.compile text))) ∧
    (∀ report : Report, Json.read? report.write = some report.toJson) ∧
    (∀ (session : Session) (action : Action), (∀ text, action ≠ .compile text) →
      (session.perform action).settings = session.settings ∧
        (session.perform action).program = session.program) ∧
    (∀ actions program, (start.replay actions).program = some program →
      (start.replay actions).compileStored? (start.replay actions).settingsText =
        some (.compiled program, start.replay actions)) := by
  refine ⟨belongs_replay, compiles_perform, Report.read?_write, ?_, ?_⟩
  · intro session action other
    have same := session.compiled_perform_of_ne other
    exact ⟨congrArg Prod.fst same, congrArg Prod.snd same⟩
  · intro actions program has
    have belongs := belongs_replay actions
    cases last : lastCompilation? actions with
    | none =>
        rw [last] at belongs
        cases belongs with
        | standard _ without => rw [without] at has; cases has
    | some result =>
        rw [last] at belongs
        cases belongs with
        | compiled succeeds settings_eq program_eq =>
            rw [program_eq, Option.some.injEq] at has
            subst has
            exact compileStored?_settingsText (settings_eq ▸ succeeds) program_eq

/-- The standard settings have a program, and a release compiles nothing. -/
theorem program_belongs_to_settings_standard :
    ∃ program : Program,
      (start.replay [.compile (Stored.write Settings.standard)]).program = some program ∧
        (start.replay [.compile (Stored.write Settings.standard)]).compileStored?
            (start.replay [.compile (Stored.write Settings.standard)]).settingsText =
          some (.compiled program, start.replay [.compile (Stored.write Settings.standard)]) ∧
        (∀ text, Action.release ≠ .compile text) ∧
          (start.perform .release).program = start.program := by
  have succeeds : Settings.standard.program.isOk = true := by decide +kernel
  cases result : Settings.standard.program with
  | error error =>
      rw [result] at succeeds
      cases succeeds
  | ok program =>
      have has : (start.replay [.compile (Stored.write Settings.standard)]).program =
          some program := by
        simp [replay, perform, compileStored?, (lasts_settings Settings.standard).read?_write,
          compile, result]
      obtain ⟨-, -, -, others, again⟩ := program_belongs_to_settings
      exact ⟨program, has, again _ program has, nofun, (others start .release nofun).2⟩

end Session

end Stereograph
