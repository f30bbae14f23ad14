import EntitySchema.Proofs.Actions
import EntitySchema.Run

/-!
# Why a project is not loaded

To load a project fails for its settings, for its files, or for a pattern. None of these failures
has the exit code of a strict run that finds fault with a schema, or of a generation that fails
(`Invocation.loadProject_fault`).
-/

namespace EntitySchema

/-- Whether the failure ends a run with exit code 1 or 2. -/
def Failure.IsEarly (f : Failure) : Prop := f.exitCode = 1 ∨ f.exitCode = 2

/-- A result that is no failure but an early one. -/
def FailsEarly {α : Type} (r : Except Failure α) : Prop := ∀ f, r = .error f → f.IsEarly

namespace FailsEarly

variable {α : Type}

theorem ok (a : α) : FailsEarly (.ok a : Except Failure α) := nofun

theorem error {f : Failure} (h : f.IsEarly) : FailsEarly (.error f : Except Failure α) := by
  intro f' hf'
  cases hf'
  exact h

end FailsEarly

section Programs

variable {σ : Type}

/-- An action that passes failures on and fails early otherwise, after one that fails early. -/
theorem Yields.andThen {α β : Type} {a : StateM σ (Except Failure α)}
    {next : Except Failure α → StateM σ (Except Failure β)} (ha : Yields FailsEarly a)
    (hpass : ∀ f, next (.error f) = Pure.pure (.error f))
    (hnext : ∀ x, Yields FailsEarly (next (.ok x))) : Yields FailsEarly (a >>= next) := by
  refine ha.bind ?_
  intro r hr
  cases r with
  | ok x => exact hnext x
  | error f =>
    rw [hpass]
    exact .pure (.error (hr f rfl))

variable [FileStore (StateM σ)]

namespace Settings

theorem loadFile_fault (path : Path) : Yields FailsEarly (loadFile path : StateM σ _) := by
  unfold loadFile
  refine .bind_any ?_
  intro text
  cases text with
  | error fault => exact .pure (.error (.inl rfl))
  | ok text =>
    dsimp only
    cases parse? text with
    | none => exact .pure (.error (.inr rfl))
    | some settings => exact .pure (.ok settings)

theorem loadFirst_fault (paths : List Path) : Yields FailsEarly (loadFirst paths : StateM σ _) := by
  induction paths with
  | nil => exact .pure (.ok _)
  | cons path paths ih =>
    unfold loadFirst
    refine .bind_any ?_
    intro found
    cases found with
    | true => exact loadFile_fault path
    | false => exact ih

theorem load_fault (env : Environment) (file : Option Path) :
    Yields FailsEarly (load env file : StateM σ _) := by
  cases file with
  | none => exact loadFirst_fault env.settingsFiles
  | some path => exact loadFile_fault path

end Settings

namespace Discovery

theorem filesAt_fault (path : Path) : Yields FailsEarly (filesAt path : StateM σ _) := by
  unfold filesAt
  refine .bind_any ?_
  intro kind
  cases kind with
  | none => exact .pure (.error (.inr rfl))
  | some kind =>
    cases kind with
    | file => exact .pure (.ok _)
    | directory =>
      refine .bind_any ?_
      intro found
      cases found with
      | ok files => exact .pure (.ok files)
      | error fault => exact .pure (.error (.inl rfl))

theorem filesAtAll_fault (paths : List Path) :
    Yields FailsEarly (filesAtAll paths : StateM σ _) := by
  induction paths with
  | nil => exact .pure (.ok _)
  | cons path paths ih =>
    unfold filesAtAll
    refine (filesAt_fault path).andThen (fun _ => rfl) ?_
    intro files
    exact ih.andThen (fun _ => rfl) fun more => .pure (.ok (files ++ more))

end Discovery

theorem discover_fault (paths : List Path) : Yields FailsEarly (discover paths : StateM σ _) := by
  unfold discover
  refine (Discovery.filesAtAll_fault paths).andThen (fun _ => rfl) ?_
  intro files
  cases files with
  | nil => exact .pure (.error (.inr rfl))
  | cons file files => exact .pure (.ok _)

namespace SchemaFile

theorem load_fault (path : Path) : Yields FailsEarly (load path : StateM σ _) := by
  unfold load
  refine .bind_any ?_
  intro text
  cases text with
  | ok text => exact .pure (.ok _)
  | error fault => exact .pure (.error (.inl rfl))

theorem loadAll_fault (paths : List Path) : Yields FailsEarly (loadAll paths : StateM σ _) := by
  induction paths with
  | nil => exact .pure (.ok _)
  | cons path paths ih =>
    unfold loadAll
    refine (load_fault path).andThen (fun _ => rfl) ?_
    intro file
    exact ih.andThen (fun _ => rfl) fun files => .pure (.ok (file :: files))

theorem loadFrom_fault (paths : List Path) : Yields FailsEarly (loadFrom paths : StateM σ _) := by
  unfold loadFrom
  exact (discover_fault paths).andThen (fun _ => rfl) loadAll_fault

end SchemaFile

/-- **A project that is not loaded ends the run with exit code 1 or 2.** -/
theorem Invocation.loadProject_fault (i : Invocation) (env : Environment) (paths : List Path) :
    Yields FailsEarly (i.loadProject env paths : StateM σ _) := by
  unfold loadProject
  refine (Settings.load_fault env i.settingsFile).andThen (fun _ => rfl) ?_
  intro settings
  exact (SchemaFile.loadFrom_fault _).andThen (fun _ => rfl)
    fun files => .pure (.ok (settings, files))

end Programs

end EntitySchema
