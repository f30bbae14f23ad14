import EntitySchema.Proofs.Deciding
import EntitySchema.Proofs.Strictness
import EntitySchema.Proofs.Words

/-!
# The variable on the command line and in the library

The settings file that the environment names is looked up twice. The library takes it as the first
candidate, and passes it by if it is not there. The command line takes it for the file that the
option names, and such a file is not passed by. The two agree exactly where the variable is unset or
names something that is there (`usesSettings_load_iff`): else the library has the settings of the
next candidate, and the command has none. A variable that is no Unicode text is passed by in the
library, and is a path like any other on the command line.
-/

namespace EntitySchema

/-- If the environment names a settings file, then it does so in Unicode, and the file is there. -/
def Disk.HasSettingsFile (d : Disk) (env : Environment) : Prop :=
  ∀ v, env.settingsFile = some v → ∃ text, v = .text text ∧ (d.kind? ⟨text⟩).isSome

/-- The command line is read, and its command has these settings or fails to get any. -/
def UsesSettings (env : Environment) (words : List String) (d : Disk)
    (result : Except Failure Settings) : Prop :=
  ∃ i, CommandLine.read env words = .ok i
    ∧ ((Settings.load env i.settingsFile : StateM Disk _).run d).1 = result

variable {env : Environment} {d : Disk} {i : Invocation} {words : List String} {v : String}
  {schemas : SchemaArgs} {failure : Failure}

/-! ## The library -/

/-- Nothing is there under the empty path. -/
theorem Disk.kind?_empty (d : Disk) : d.kind? ⟨""⟩ = none := rfl

namespace Settings

/-- The library begins with the file of the variable. -/
theorem settingsFiles_of_variable (hv : env.settingsFile = some (.text v)) :
    env.settingsFiles = ⟨v⟩ :: env.unset.settingsFiles := by
  unfold Environment.settingsFiles
  rw [hv]
  rfl

/-- A file of the variable that is there decides. -/
theorem load_of_there (hv : env.settingsFile = some (.text v)) (hthere : (d.kind? ⟨v⟩).isSome) :
    ((load env none : StateM Disk _).run d).1 = ((load env (some ⟨v⟩) : StateM Disk _).run d).1 :=
  have henv : NamesText env := by
    intro p hp
    rw [hv] at hp
    exact nomatch hp
  have hfirst : candidates env none = [] ++ ⟨v⟩ :: env.unset.settingsFiles :=
    (candidates_none henv).trans (settingsFiles_of_variable hv)
  load_of_decides henv (.found hfirst nofun hthere)

/-- A file of the variable that is not there is passed by. -/
theorem load_of_missing (hv : env.settingsFile = some (.text v)) (hmissing : d.kind? ⟨v⟩ = none) :
    ((load env none : StateM Disk _).run d).1
      = ((load env.unset none : StateM Disk _).run d).1 := by
  have hbefore : ∀ q ∈ [Path.mk v], ((FileStore.kind? q : StateM Disk _).run d).1 = none := by
    intro q hq
    obtain rfl := List.mem_singleton.mp hq
    exact hmissing
  show ((loadFirst env.settingsFiles : StateM Disk _).run d).1 = _
  rw [settingsFiles_of_variable hv, ← List.singleton_append, loadFirst_append hbefore]
  rfl

/-- A variable that is no text is passed by, whatever is there. -/
theorem load_of_raw {p : Path} (hv : env.settingsFile = some (.raw p)) (d : Disk) :
    ((load env none : StateM Disk _).run d).1
      = ((load env.unset none : StateM Disk _).run d).1 := by
  have hfiles : env.settingsFiles = env.unset.settingsFiles := by
    unfold Environment.settingsFiles
    rw [hv]
    rfl
  unfold load
  dsimp only
  rw [hfiles]

/-- A file that is not there can not be read, and whoever names it gets no settings for that. -/
theorem load_named_of_missing {p : Path} (env : Environment) (hmissing : d.kind? p = none) :
    ∃ fault, d.read p = .error fault
      ∧ ((load env (some p) : StateM Disk _).run d).1 = .error (.file p fault) := by
  cases hread : d.read p with
  | ok content =>
    have hthere := Disk.isSome_kind?_of_read hread
    rw [hmissing] at hthere
    exact nomatch hthere
  | error fault =>
    refine ⟨fault, rfl, ?_⟩
    show ((loadFile p : StateM Disk _).run d).1 = _
    have hrun : ((FileStore.read p : StateM Disk _).run d).1 = .error fault := hread
    rw [run_loadFile, hrun]
    rfl

/-- Without a name, the file that can not be read is one that is there. -/
theorem isSome_kind?_of_load_error (henv : NamesText env) {p : Path} {fault : FileFault}
    (h : ((load env none : StateM Disk _).run d).1 = .error (.file p fault)) :
    (d.kind? p).isSome := by
  by_cases hdecided : ∃ q, Decides env d none q
  · obtain ⟨q, hdecides⟩ := hdecided
    have hsettles := loadFile_settles q d
    rw [← load_of_decides henv hdecides, h] at hsettles
    obtain rfl : p = q := by
      cases hread : d.read q <;> rw [hread] at hsettles <;> cases hsettles <;> rfl
    cases hdecides with
    | found _ _ hthere => exact hthere
  · rw [load_of_not_decides henv (not_exists.mp hdecided)] at h
    exact nomatch h

end Settings

/-! ## The command line -/

namespace Invocation

section Commands

variable {σ : Type} [FileStore (StateM σ)] [SteadyStore σ] {s : σ}

/-- A command that gets no settings does nothing. -/
theorem perform_of_load_error (hschemas : i.command.schemas? = some schemas)
    (hload : ((Settings.load env i.settingsFile : StateM σ _).run s).1 = .error failure) :
    (i.perform env : StateM σ _).run s = ((.none, .error failure), s) := by
  refine i.perform_of_unloaded hschemas ?_
  unfold loadProject
  rw [(Settings.keeps_load env i.settingsFile).run_bind, hload]
  rfl

/-- A command does the same with another settings file that comes to the same settings. -/
theorem run_of_load_eq {file : Option Path}
    (h : ((Settings.load env file : StateM σ _).run s).1
      = ((Settings.load env i.settingsFile : StateM σ _).run s).1) :
    (Invocation.run { i with settingsFile := file } env : StateM σ _).run s
      = (i.run env : StateM σ _).run s := by
  have hproject (command : Command) (paths : List Path) :
      (loadProject { i with command := command, settingsFile := file } env paths : StateM σ _).run s
        = (i.loadProject env paths : StateM σ _).run s := by
    unfold loadProject
    rw [(Settings.keeps_load env file).run_bind, (Settings.keeps_load env i.settingsFile).run_bind,
      h]
  have hperform : (perform { i with settingsFile := file } env : StateM σ _).run s
      = (i.perform env : StateM σ _).run s := by
    unfold perform
    dsimp only
    cases i.command with
    | init name force => rfl
    | completions shell => rfl
    | parse own print =>
      dsimp only
      rw [StateT.run_bind, StateT.run_bind, hproject]
      rfl
    | generate own output package keepGoing =>
      dsimp only
      rw [StateT.run_bind, StateT.run_bind, hproject]
      rfl
  rw [run_eq, run_eq, hperform]
  rfl

end Commands

end Invocation

/-! ## Both -/

theorem Environment.ne_empty_of_variable (env : Environment)
    (hv : env.settingsFile = some (.text v)) (hset : v ≠ "") :
    env.settingsFile ≠ some (.text "") := by
  rw [hv]
  intro h
  exact hset (Variable.text.inj (Option.some.inj h))

theorem Disk.HasSettingsFile.ne_empty (h : d.HasSettingsFile env) :
    env.settingsFile ≠ some (.text "") := by
  intro hempty
  obtain ⟨text, htext, hthere⟩ := h _ hempty
  cases htext
  rw [d.kind?_empty] at hthere
  exact nomatch hthere

/-- Where the variable names something that is there, it comes to the same as an option and as a
candidate. -/
theorem Settings.load_variable (h : d.HasSettingsFile env) :
    ((load env (env.settingsFile.map Variable.path) : StateM Disk _).run d).1
      = ((load env none : StateM Disk _).run d).1 := by
  cases hv : env.settingsFile with
  | none => rfl
  | some v =>
    obtain ⟨text, rfl, hthere⟩ := h v hv
    exact (load_of_there hv hthere).symm

section Variable

variable (hread : CommandLine.read env.unset words = .ok i) (hunnamed : i.settingsFile = none)
include hread hunnamed

/-- A command uses the library's settings only where the variable names something that is there. -/
theorem UsesSettings.hasSettingsFile (henv : Settings.NamesText env)
    (h : UsesSettings env words d ((Settings.load env none : StateM Disk _).run d).1) :
    d.HasSettingsFile env := by
  intro value hvalue
  obtain ⟨v, rfl⟩ : ∃ v, value = .text v := by
    cases value with
    | text v => exact ⟨v, rfl⟩
    | raw p => exact absurd hvalue (henv p)
  refine ⟨v, rfl, ?_⟩
  obtain ⟨j, hj, hload⟩ := h
  by_cases hempty : v = ""
  · rw [CommandLine.read_of_empty hread hunnamed (hempty ▸ hvalue)] at hj
    exact nomatch hj
  · have hset := env.ne_empty_of_variable hvalue hempty
    rw [CommandLine.read_of_unset hread hunnamed hset, hvalue] at hj
    obtain rfl := Except.ok.inj hj
    rw [Option.isSome_iff_ne_none]
    intro hmissing
    -- the command fails on the file, and the library would only if it were there
    obtain ⟨fault, -, hfails⟩ := Settings.load_named_of_missing env hmissing
    have hthere := Settings.isSome_kind?_of_load_error henv (hload.symm.trans hfails)
    rw [hmissing] at hthere
    exact nomatch hthere

/-- Where the variable names something that is there, a command uses the library's settings. -/
theorem usesSettings_of_hasSettingsFile (h : d.HasSettingsFile env) :
    UsesSettings env words d ((Settings.load env none : StateM Disk _).run d).1 :=
  ⟨_, CommandLine.read_of_unset hread hunnamed h.ne_empty, Settings.load_variable h⟩

/-- And it does what it does with them. -/
theorem run_of_hasSettingsFile (h : d.HasSettingsFile env) :
    (run env words : StateM Disk _).run d = (i.run env : StateM Disk _).run d := by
  rw [run_of_read (CommandLine.read_of_unset hread hunnamed h.ne_empty)]
  refine Invocation.run_of_load_eq ?_
  rw [hunnamed]
  exact Settings.load_variable h

/-- An empty variable ends the run before there is a command. -/
theorem run_of_empty_variable (hempty : env.settingsFile = some (.text "")) (d : Disk) :
    (run env words : StateM Disk _).run d = ((.none, .usage .badValue), d) := by
  unfold run
  rw [CommandLine.read_of_empty hread hunnamed hempty]
  rfl

/-- A command fails on any other variable that names nothing. -/
theorem run_of_missing_variable (hschemas : i.command.schemas? = some schemas)
    (hv : env.settingsFile = some (.text v)) (hset : v ≠ "") (hmissing : d.kind? ⟨v⟩ = none) :
    ∃ fault, d.read ⟨v⟩ = .error fault
      ∧ (run env words : StateM Disk _).run d
        = ((i.console.failure (.file ⟨v⟩ fault), .failure (.file ⟨v⟩ fault)), d) := by
  have hsome := env.ne_empty_of_variable hv hset
  obtain ⟨fault, hfault, hfails⟩ := Settings.load_named_of_missing env hmissing
  refine ⟨fault, hfault, ?_⟩
  let j : Invocation := { i with settingsFile := some ⟨v⟩ }
  have hperform : (j.perform env : StateM Disk _).run d
      = ((.none, .error (.file ⟨v⟩ fault)), d) := j.perform_of_load_error hschemas hfails
  rw [run_of_read (CommandLine.read_of_unset hread hunnamed hsome), hv]
  show (j.run env : StateM Disk _).run d = _
  rw [j.run_eq, hperform]
  rfl

/-- A command takes a variable that is no text for the file that an option names. -/
theorem run_of_raw_variable {p : Path} (hv : env.settingsFile = some (.raw p)) (d : Disk) :
    (run env words : StateM Disk _).run d
      = (Invocation.run { i with settingsFile := some p } env : StateM Disk _).run d := by
  have hsome : env.settingsFile ≠ some (.text "") := by
    rw [hv]
    exact nofun
  rw [run_of_read (CommandLine.read_of_unset hread hunnamed hsome), hv]
  rfl

end Variable

/-- **The command line and the library agree on the variable exactly where it is unset or names
something that is there.** There a command that names no settings file does what it does with the
library's settings. Elsewhere the library passes the variable by, while an empty one ends the run
before there is a command, and for any other the command fails, since that file can not be read. A
variable that is no text is passed by in the library only. -/
theorem usesSettings_load_iff (hread : CommandLine.read env.unset words = .ok i)
    (hunnamed : i.settingsFile = none) (hschemas : i.command.schemas? = some schemas) (d : Disk) :
    let library := ((Settings.load env none : StateM Disk _).run d).1
    (Settings.NamesText env → (UsesSettings env words d library ↔ d.HasSettingsFile env))
    ∧ (d.HasSettingsFile env →
      (run env words : StateM Disk _).run d = (i.run env : StateM Disk _).run d)
    ∧ (∀ v, env.settingsFile = some (.text v) → d.kind? ⟨v⟩ = none →
      library = ((Settings.load env.unset none : StateM Disk _).run d).1
      ∧ (v = "" → (run env words : StateM Disk _).run d = ((.none, .usage .badValue), d))
      ∧ (v ≠ "" → ∃ fault, d.read ⟨v⟩ = .error fault
          ∧ (run env words : StateM Disk _).run d
            = ((i.console.failure (.file ⟨v⟩ fault), .failure (.file ⟨v⟩ fault)), d)))
    ∧ ∀ p, env.settingsFile = some (.raw p) →
      library = ((Settings.load env.unset none : StateM Disk _).run d).1
      ∧ (run env words : StateM Disk _).run d
        = (Invocation.run { i with settingsFile := some p } env : StateM Disk _).run d := by
  intro library
  refine ⟨?_, run_of_hasSettingsFile hread hunnamed, ?_, ?_⟩
  · intro henv
    refine ⟨?_, usesSettings_of_hasSettingsFile hread hunnamed⟩
    intro huses
    exact huses.hasSettingsFile hread hunnamed henv
  · intro v hv hmissing
    refine ⟨Settings.load_of_missing hv hmissing, ?_, ?_⟩
    · rintro rfl
      exact run_of_empty_variable hread hunnamed hv d
    · intro hset
      exact run_of_missing_variable hread hunnamed hschemas hv hset hmissing
  · intro p hp
    exact ⟨Settings.load_of_raw hp d, run_of_raw_variable hread hunnamed hp d⟩

/-- Settings that name a directory for schemas. -/
def modelSettings : String := "[cli]\ndefault_schema_dir = \"model\"\n"

/-- The disk of a project with these settings and with one schema file. -/
def Disk.withModel : Disk where
  nodes := [(["config.toml"], .file modelSettings.toUTF8), (["model"], .directory),
    (["model", "a.dsl"], .file "entity A \x7b\n\x7d\n".toUTF8)]
  here := []

theorem Settings.loadFile_withModel :
    ((loadFile ⟨"config.toml"⟩ : StateM Disk _).run .withModel).1
      = .ok { schemaDir := "model" } := by
  have hread : ((FileStore.read ⟨"config.toml"⟩ : StateM Disk _).run .withModel).1
      = .ok modelSettings.toUTF8 := rfl
  have hparse : parse? modelSettings = some { schemaDir := "model" } := by decide +kernel
  rw [run_loadFile, hread, FileStore.utf8Text_eq_ok_iff.mpr rfl, ofText, hparse]

/-- A variable that names the settings of the project has a command use them, and an empty one has
it end. -/
theorem usesSettings_load_iff_both :
    UsesSettings { settingsFile := some (.text "config.toml") } ["parse"] .withModel
        (.ok { schemaDir := "model" })
      ∧ (run { settingsFile := some (.text "") } ["parse"] : StateM Disk _).run .withModel
        = ((.none, .usage .badValue), .withModel) := by
  refine ⟨?_, ?_⟩
  · let env : Environment := { settingsFile := some (.text "config.toml") }
    have hread : CommandLine.read env.unset ["parse"] = .ok { command := .parse {} false } := rfl
    have hthere : Disk.withModel.HasSettingsFile env := by
      intro v hv
      cases hv
      exact ⟨"config.toml", rfl, rfl⟩
    have huses := ((usesSettings_load_iff hread rfl rfl .withModel).1 nofun).mpr hthere
    rw [Settings.load_of_there rfl rfl] at huses
    rw [← Settings.loadFile_withModel]
    exact huses
  · let env : Environment := { settingsFile := some (.text "") }
    have hread : CommandLine.read env.unset ["parse"] = .ok { command := .parse {} false } := rfl
    exact ((usesSettings_load_iff hread rfl rfl .withModel).2.2.1 "" rfl rfl).2.1 rfl

/-- For a variable that names nothing the library has the settings of the project, while a command
fails and does not use them. -/
theorem not_usesSettings_load :
    ((Settings.load { settingsFile := some (.text "missing.toml") } none : StateM Disk _).run .withModel).1
        = .ok { schemaDir := "model" }
      ∧ ¬ UsesSettings { settingsFile := some (.text "missing.toml") } ["parse"] .withModel
        (.ok { schemaDir := "model" })
      ∧ ((run { settingsFile := some (.text "missing.toml") } ["parse"] : StateM Disk _).run .withModel).1.2
        = .failure (.file ⟨"missing.toml"⟩ .notFound) := by
  refine ⟨?_, ?_, ?_⟩
  · have hdecides : Settings.Decides { settingsFile := some (.text "missing.toml") } Disk.withModel none
        ⟨"config.toml"⟩ := by
      have hfiles : Settings.candidates { settingsFile := some (.text "missing.toml") } none
        = [⟨"missing.toml"⟩] ++ [⟨"config.toml"⟩] := rfl
      refine .found hfiles ?_ rfl
      intro q hq
      obtain rfl := List.mem_singleton.mp hq
      rfl
    have henv : Settings.NamesText { settingsFile := some (.text "missing.toml") } := nofun
    rw [Settings.load_of_decides henv hdecides]
    exact Settings.loadFile_withModel
  · rintro ⟨j, hread, hload⟩
    cases Except.ok.inj (hread.symm.trans rfl)
    exact nomatch hload
  · rfl

end EntitySchema
