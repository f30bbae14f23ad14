import EntitySchema.Proofs.Faults
import EntitySchema.Proofs.Looking

/-!
# Strictness only filters

A strict command does what the same command does otherwise, or it does nothing: it turns schema
files away before it touches a file, and files that it takes have nothing in them that it could
speak of differently. The files it takes have no findings, and their entities have classes.
-/

namespace EntitySchema

/-! ## What a strict command takes -/

/-- Whether a strict command turns schema files away: a file has a finding, or the entities of all
of them do not go side by side. -/
def Flawed (files : List SchemaFile) : Prop :=
  (∃ f ∈ files, f.findings ≠ []) ∨ checkSchema (allEntities files) ≠ .ok ()

theorem not_flawed_iff {files : List SchemaFile} :
    ¬ Flawed files ↔ (∀ f ∈ files, f.findings = []) ∧ checkSchema (allEntities files) = .ok () := by
  simp [Flawed]

/-- Files are turned away for what is wrong with the schema, and for nothing else. -/
theorem enforceStrict_of_flawed {files : List SchemaFile} (h : Flawed files) :
    ∃ f, enforceStrict files = .error f ∧ f.exitCode = 3 := by
  unfold enforceStrict
  split
  · next hnone =>
    -- no file has findings, so it is the entities that do not go side by side
    have hclean : ¬ ∃ f ∈ files, f.findings ≠ [] := by simpa using hnone
    cases hcheck : checkSchema (allEntities files) with
    | ok u => exact absurd hcheck (h.resolve_left hclean)
    | error fault => exact ⟨_, rfl, rfl⟩
  · exact ⟨_, rfl, rfl⟩
  · exact ⟨_, rfl, rfl⟩

theorem enforceStrict_of_not_flawed {files : List SchemaFile} (h : ¬ Flawed files) :
    enforceStrict files = .ok () := by
  obtain ⟨hclean, hcheck⟩ := not_flawed_iff.mp h
  have hnone : (files.filter fun f => !f.findings.isEmpty) = [] := by simpa using hclean
  unfold enforceStrict
  rw [hnone, hcheck]
  rfl

/-! ## What a command says of files without findings -/

theorem Console.findings_nil (c : Console) (strict : Bool) (file : Path) :
    c.findings strict file [] = .none := by
  unfold findings
  split
  · rfl
  · cases c.format <;> rfl

theorem Console.concat_findings {files : List SchemaFile} (h : ∀ f ∈ files, f.findings = [])
    (c : Console) (strict : Bool) :
    Output.concat (files.map fun f => c.findings strict f.path f.findings) = .none := by
  induction files with
  | nil => rfl
  | cons f files ih =>
    rw [List.map_cons, Output.concat_cons, h f List.mem_cons_self, c.findings_nil,
      ih fun f hf => h f (List.mem_cons_of_mem _ hf)]
    rfl

/-! ## Generating from files that are taken -/

namespace Generation

variable {m : Type → Type} [Monad m] [FileStore m]

/-- Files that are turned away are not generated from. -/
theorem run_of_flawed {files : List SchemaFile} (h : Flawed files) (c : Console) (g : Generator)
    (keepGoing : Bool) :
    ∃ said failure, (run c g true keepGoing files : m _) = pure (said, .error failure)
      ∧ failure.exitCode = 3 := by
  obtain ⟨failure, hfails, hcode⟩ := enforceStrict_of_flawed h
  refine ⟨Output.concat (files.map fun f => c.findings true f.path f.findings), failure, ?_, hcode⟩
  unfold run
  rw [if_pos rfl, hfails]

/-- Files that are taken are generated from as without strictness. -/
theorem run_of_not_flawed {files : List SchemaFile} (h : ¬ Flawed files) (c : Console)
    (g : Generator) (keepGoing : Bool) :
    (run c g true keepGoing files : m _) = run c g false keepGoing files := by
  have hclean := (not_flawed_iff.mp h).1
  unfold run
  rw [if_pos rfl, enforceStrict_of_not_flawed h, if_neg Bool.false_ne_true,
    c.concat_findings hclean, c.concat_findings hclean]

end Generation

/-! ## Whole runs -/

/-- The schema files of a command that reads some. -/
def Command.schemas? : Command → Option SchemaArgs
  | .parse schemas _ => some schemas
  | .generate schemas _ _ _ => some schemas
  | _ => none

section Runs

variable {σ : Type} [FileStore (StateM σ)] [SteadyStore σ] {env : Environment} {s : σ}

/-- The words are a strict check of the schema files at the paths, which they may name or leave to
the settings. -/
def IsStrictCheck (env : Environment) (s : σ) (paths : List Path) (words : List String) : Prop :=
  ∃ (i : Invocation) (given : List Path) (print : Bool) (settings : Settings),
    CommandLine.read env words = .ok i ∧ i.command = .parse ⟨given, true⟩ print
      ∧ ((Settings.load env i.settingsFile : StateM σ _).run s).1 = .ok settings
      ∧ settings.schemaPaths given = paths

namespace Invocation

/-- A project loads exactly if its settings do, and the schema files that they lead to. -/
theorem loadProject_eq_ok_iff {i : Invocation} {paths : List Path} {settings : Settings}
    {files : List SchemaFile} :
    ((i.loadProject env paths : StateM σ _).run s).1 = .ok (settings, files)
      ↔ ((Settings.load env i.settingsFile : StateM σ _).run s).1 = .ok settings
        ∧ ((SchemaFile.loadFrom (settings.schemaPaths paths) : StateM σ _).run s).1
          = .ok files := by
  unfold loadProject
  rw [(Settings.keeps_load env i.settingsFile).run_bind]
  cases ((Settings.load env i.settingsFile : StateM σ _).run s).1 with
  | error failure => exact ⟨nofun, nofun⟩
  | ok found =>
    dsimp only
    rw [(SchemaFile.keeps_loadFrom _).run_bind]
    constructor
    · intro h
      cases hfiles : ((SchemaFile.loadFrom (found.schemaPaths paths) : StateM σ _).run s).1 with
      | error failure => rw [hfiles] at h; exact nomatch h
      | ok files' => rw [hfiles] at h; cases h; exact ⟨rfl, hfiles⟩
    · rintro ⟨hfound, hfiles⟩
      cases hfound
      rw [hfiles]
      rfl

variable {i : Invocation} {paths : List Path} {settings : Settings} {files : List SchemaFile}

/-- A command that generates does so from the state in which its project was loaded. -/
theorem perform_generate {strict keepGoing : Bool} {output : Option Path} {package : Option String}
    (hcommand : i.command = .generate ⟨paths, strict⟩ output package keepGoing)
    (hloads : ((i.loadProject env paths : StateM σ _).run s).1 = .ok (settings, files)) :
    (i.perform env : StateM σ _).run s
      = (Generation.run i.console (settings.generator output package) strict keepGoing files
          : StateM σ _).run s := by
  unfold perform
  rw [hcommand]
  dsimp only
  rw [(i.keeps_loadProject env paths).run_bind, hloads]

/-- A command that checks changes nothing. -/
theorem perform_parse {strict print : Bool}
    (hcommand : i.command = .parse ⟨paths, strict⟩ print)
    (hloads : ((i.loadProject env paths : StateM σ _).run s).1 = .ok (settings, files)) :
    (i.perform env : StateM σ _).run s = (Checking.run i.console strict print files, s) := by
  unfold perform
  rw [hcommand]
  dsimp only
  rw [(i.keeps_loadProject env paths).run_bind, hloads]
  rfl

/-- A command whose project does not load does nothing. -/
theorem perform_of_unloaded {schemas : SchemaArgs} {failure : Failure}
    (hschemas : i.command.schemas? = some schemas)
    (hloads : ((i.loadProject env schemas.paths : StateM σ _).run s).1 = .error failure) :
    (i.perform env : StateM σ _).run s = ((.none, .error failure), s) := by
  unfold perform
  cases hcommand : i.command with
  | init name force => rw [hcommand] at hschemas; exact nomatch hschemas
  | completions shell => rw [hcommand] at hschemas; exact nomatch hschemas
  | parse own print =>
    rw [hcommand] at hschemas
    cases hschemas
    dsimp only
    rw [(i.keeps_loadProject env schemas.paths).run_bind, hloads]
    rfl
  | generate own output package keepGoing =>
    rw [hcommand] at hschemas
    cases hschemas
    dsimp only
    rw [(i.keeps_loadProject env schemas.paths).run_bind, hloads]
    rfl

/-- How a run ends after its command, and what it has written by then. -/
def conclude (i : Invocation) : Output × Except Failure Unit → Output × Ending
  | (output, .ok ()) => (output, .success)
  | (output, .error f) => (output ++ i.console.failure f, .failure f)

omit [SteadyStore σ] in
theorem run_eq (i : Invocation) :
    (i.run env : StateM σ _).run s
      = (i.conclude ((i.perform env : StateM σ _).run s).1,
        ((i.perform env : StateM σ _).run s).2) := by
  unfold run
  rw [StateT.run_bind]
  obtain ⟨⟨output, verdict⟩, s'⟩ := (i.perform env : StateM σ _).run s
  cases verdict <;> rfl

end Invocation

omit [SteadyStore σ] in
theorem run_of_read {i : Invocation} {words : List String}
    (hread : CommandLine.read env words = .ok i) :
    (run env words : StateM σ _) = i.run env := by
  unfold run
  rw [hread]

/-- How a strict check ends. -/
theorem exitCode_of_isStrictCheck {paths : List Path} {words : List String}
    (h : IsStrictCheck env s paths words) {files : List SchemaFile}
    (hfiles : ((SchemaFile.loadFrom paths : StateM σ _).run s).1 = .ok files) :
    (Flawed files → ((run env words : StateM σ _).run s).1.2.exitCode = 3)
      ∧ (¬ Flawed files → ((run env words : StateM σ _).run s).1.2.exitCode = 0) := by
  obtain ⟨i, given, print, settings, hread, hcommand, hsettings, rfl⟩ := h
  have hloads := Invocation.loadProject_eq_ok_iff.mpr ⟨hsettings, hfiles⟩
  rw [run_of_read hread, i.run_eq, i.perform_parse hcommand hloads]
  refine ⟨fun hflawed => ?_, fun hsound => ?_⟩
  · obtain ⟨f, hfails, hcode⟩ := enforceStrict_of_flawed hflawed
    unfold Checking.run
    rw [if_pos rfl, hfails]
    exact hcode
  · unfold Checking.run
    rw [if_pos rfl, enforceStrict_of_not_flawed hsound]
    rfl

/-- **Strictness only filters.** What is wrong with the schema files ends a strict run before it
changes anything. From other files it generates as a run does that is not strict, and none of their
entities lacks a class. A strict check of the files tells which of the two it is. -/
theorem strict_generate_filters {words : List String} {i : Invocation} {paths : List Path}
    {output : Option Path} {package : Option String} {keepGoing : Bool} {settings : Settings}
    {files : List SchemaFile}
    (hread : CommandLine.read env words = .ok i)
    (hcommand : i.command = .generate ⟨paths, true⟩ output package keepGoing)
    (hloads : ((i.loadProject env paths : StateM σ _).run s).1 = .ok (settings, files)) :
    (Flawed files →
      (∃ said ending, (run env words : StateM σ _).run s = ((said, ending), s)
        ∧ ending.exitCode = 3)
      ∧ ∀ check, IsStrictCheck env s (settings.schemaPaths paths) check →
        ((run env check : StateM σ _).run s).1.2.exitCode = 3)
    ∧ (¬ Flawed files →
      (∀ lenient, CommandLine.read env lenient
            = .ok { i with command := .generate ⟨paths, false⟩ output package keepGoing } →
        (run env words : StateM σ _).run s = (run env lenient : StateM σ _).run s)
      ∧ (∀ fault ∈ Generation.faults ((Generation.generate (settings.generator output package)
            keepGoing (allEntities files) : StateM σ _).run s).1, ¬ fault.IsSchema)
      ∧ ∀ check, IsStrictCheck env s (settings.schemaPaths paths) check →
        ((run env check : StateM σ _).run s).1.2.exitCode = 0) := by
  have hfiles := (Invocation.loadProject_eq_ok_iff.mp hloads).2
  have hperform := i.perform_generate hcommand hloads
  constructor
  · intro hflawed
    refine ⟨?_, fun check hcheck => (exitCode_of_isStrictCheck hcheck hfiles).1 hflawed⟩
    obtain ⟨said, failure, hrun, hcode⟩ := Generation.run_of_flawed (m := StateM σ) hflawed
      i.console (settings.generator output package) keepGoing
    rw [run_of_read hread, i.run_eq, hperform, hrun]
    exact ⟨_, _, rfl, hcode⟩
  · intro hsound
    refine ⟨fun lenient hlenient => ?_, ?_,
      fun check hcheck => (exitCode_of_isStrictCheck hcheck hfiles).2 hsound⟩
    · -- the two differ in their commands only, so they end alike if their commands do
      let j : Invocation := { i with command := .generate ⟨paths, false⟩ output package keepGoing }
      have hsame : (i.perform env : StateM σ _).run s = (j.perform env : StateM σ _).run s := by
        rw [hperform, j.perform_generate rfl hloads, Generation.run_of_not_flawed hsound]
        rfl
      rw [run_of_read hread, run_of_read hlenient, i.run_eq, Invocation.run_eq, hsame]
      rfl
    · have hcheck := checkSchema_eq_ok_iff.mp (not_flawed_iff.mp hsound).2
      exact Generation.faults_generate hcheck.1 _ _ s

end Runs

/-- The disk whose root is the working directory and holds one file with this text. -/
def Disk.withSchema (text : String) : Disk := ⟨[(["a.dsl"], .file text.toUTF8)], []⟩

theorem loadProject_withSchema (i : Invocation) (hdefault : i.settingsFile = none) (text : String) :
    ((i.loadProject {} [⟨"a.dsl"⟩] : StateM Disk _).run (.withSchema text)).1
      = .ok ({}, [⟨⟨"a.dsl"⟩, read text⟩]) := by
  refine Invocation.loadProject_eq_ok_iff.mpr ⟨?_, SchemaFile.loadFrom_file rfl rfl⟩
  rw [hdefault]
  rfl

/-- Of two schemas, one is generated from as without strictness, and one is turned away. -/
theorem strict_generate_filters_both :
    (run {} ["generate", "--strict", "a.dsl"] : StateM Disk _).run (.withSchema "entity A \x7b")
        = (run {} ["generate", "a.dsl"] : StateM Disk _).run (.withSchema "entity A \x7b")
      ∧ ∃ said ending, (run {} ["generate", "--strict", "a.dsl"] : StateM Disk _).run
          (.withSchema "a: b") = ((said, ending), .withSchema "a: b") ∧ ending.exitCode = 3 := by
  let i : Invocation := { command := .generate ⟨[⟨"a.dsl"⟩], true⟩ none none false }
  have hread : CommandLine.read {} ["generate", "--strict", "a.dsl"] = .ok i := rfl
  constructor
  · have hsound : ¬ Flawed [⟨⟨"a.dsl"⟩, read "entity A \x7b"⟩] :=
      not_flawed_iff.mpr ⟨by decide +kernel, rfl⟩
    exact ((strict_generate_filters hread rfl (loadProject_withSchema i rfl _)).2 hsound).1 _ rfl
  · have hflawed : Flawed [⟨⟨"a.dsl"⟩, read "a: b"⟩] := .inl (by decide +kernel)
    exact ((strict_generate_filters hread rfl (loadProject_withSchema i rfl _)).1 hflawed).1

end EntitySchema
