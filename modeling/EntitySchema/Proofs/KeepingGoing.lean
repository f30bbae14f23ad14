import EntitySchema.Proofs.Ending

/-!
# Keeping going and the verdict

A run that keeps going attempts more than one that stops at the first failure, and the two end with
the same exit code: with 0 if every entity is written, with 4 if one is not, and with that of the
failure if it comes before the first entity. There is one exception (`Invocation.Fruitless`). A run
that keeps going charges a missing output directory to its entities, and without entities there is
nobody to charge it to.
-/

namespace EntitySchema

namespace Generation

variable {g : Generator} {es : List Entity} {d : Disk}

/-- Whether a run has written every entity. -/
def succeeds : Except GenerationFault Report → Bool
  | .ok r => r.isSuccess
  | .error _ => false

/-- Without entities a run that keeps going has nothing to fail at. -/
theorem succeeds_keepGoing_nil (g : Generator) (d : Disk) :
    succeeds ((generate g true [] : StateM Disk _).run d).1 = true := rfl

/-- Without entities a run that stops fails for its output directory only. -/
theorem succeeds_stopping_nil_iff :
    succeeds ((generate g false [] : StateM Disk _).run d).1 = true
      ↔ ((FileStore.makeDirs g.outputDir : StateM Disk _).run d).1 = .ok () := by
  obtain ⟨dir, d₁, hdir⟩ : ∃ dir d₁,
      (FileStore.makeDirs g.outputDir : StateM Disk _).run d = (dir, d₁) := ⟨_, _, rfl⟩
  have hrun : (generate g false [] : StateM Disk _) = g.generateReport [] := rfl
  rw [hrun, hdir]
  cases dir with
  | error fault =>
    rw [(Generator.comes_generateReport_of_noDir [] hdir).run_eq]
    exact ⟨nofun, nofun⟩
  | ok u =>
    rw [(Generator.comes_generateReport_of_dir hdir (.pure _ _)).run_eq]
    exact ⟨fun _ => rfl, fun _ => rfl⟩

/-- **Where there is an entity, keeping going succeeds when stopping does.** -/
theorem succeeds_keepGoing_eq (hes : es ≠ []) (g : Generator) (d : Disk) :
    succeeds ((generate g true es : StateM Disk _).run d).1
      = succeeds ((generate g false es : StateM Disk _).run d).1 := by
  obtain ⟨dir, d₁, stopped, d', -, hstops, hending⟩ :=
    Generator.generateReport_stops hes (comes_run (g.generateEach es) d)
  have hstopping : ((generate g false es : StateM Disk _).run d).1 = stopped.map Report.mk :=
    congrArg Prod.fst hending
  have hgoing : ((generate g true es : StateM Disk _).run d).1
      = .ok ((g.generateEach es : StateM Disk _).run d).1 := rfl
  rw [hstopping, hgoing]
  cases stopped with
  | ok os =>
    obtain ⟨hreport, -⟩ := hstops.eq_of_ok
    rw [hreport]
    rfl
  | error fault =>
    -- the entity at which the one run stops is one that fails in the other
    obtain ⟨before, e, after, done, d₂, -, -, hfailed, -⟩ := hstops.exists_of_error
    exact Generator.isSuccess_of_failure hfailed

/-- A run that stops without its output directory does not succeed. -/
theorem succeeds_stopping_of_noDir {fault : FileFault}
    (hdir : ((FileStore.makeDirs g.outputDir : StateM Disk _).run d).1 = .error fault)
    (es : List Entity) : succeeds ((generate g false es : StateM Disk _).run d).1 = false := by
  have hrun : (generate g false es : StateM Disk _) = g.generateReport es := rfl
  have hmakes : Comes (FileStore.makeDirs g.outputDir : StateM Disk _) d (.error fault) _ :=
    Prod.ext hdir rfl
  rw [hrun, (Generator.comes_generateReport_of_noDir es hmakes).run_eq]
  rfl

end Generation

section Runs

variable {env : Environment} {i : Invocation} {schemas : SchemaArgs} {output : Option Path}
  {package : Option String} {keepGoing : Bool} {words : List String} {d : Disk}
  {settings : Settings} {files : List SchemaFile}

/-! ## The exit code of a command that generates -/

theorem exitCode_of_unloaded {failure : Failure} (hread : CommandLine.read env words = .ok i)
    (hcommand : i.command = .generate schemas output package keepGoing)
    (hloads : ((i.loadProject env schemas.paths : StateM Disk _).run d).1 = .error failure) :
    ((run env words : StateM Disk _).run d).1.2.exitCode = failure.exitCode := by
  rw [run_of_read hread, i.run_eq, i.perform_generate_of_error hcommand hloads]
  rfl

theorem exitCode_of_refused (hread : CommandLine.read env words = .ok i)
    (hcommand : i.command = .generate schemas output package keepGoing)
    (hloads : ((i.loadProject env schemas.paths : StateM Disk _).run d).1 = .ok (settings, files))
    (hstrict : schemas.strict = true) (hflawed : Flawed files) :
    ((run env words : StateM Disk _).run d).1.2.exitCode = 3 := by
  obtain ⟨said, failure, hrun, hcode⟩ := Generation.run_of_flawed (m := StateM Disk) hflawed
    i.console (settings.generator output package) keepGoing
  rw [run_of_read hread, i.run_eq, i.perform_generate hcommand hloads, hstrict, hrun]
  exact hcode

/-- A command whose files are taken ends with 0 if every entity is written, and with 4 if not. -/
theorem exitCode_of_taken (hread : CommandLine.read env words = .ok i)
    (hcommand : i.command = .generate schemas output package keepGoing)
    (hloads : ((i.loadProject env schemas.paths : StateM Disk _).run d).1 = .ok (settings, files))
    (htaken : schemas.strict = true → ¬ Flawed files) :
    ((run env words : StateM Disk _).run d).1.2.exitCode
      = if Generation.succeeds ((Generation.generate (settings.generator output package) keepGoing
          (allEntities files) : StateM Disk _).run d).1 then 0 else 4 := by
  obtain ⟨result, d', hgenerate⟩ : ∃ result d', (Generation.generate
      (settings.generator output package) keepGoing (allEntities files)
        : StateM Disk _).run d = (result, d') := ⟨_, _, rfl⟩
  obtain ⟨said, hrun⟩ := Generation.run_of_taken htaken hgenerate i.console
  rw [run_of_read hread, i.run_eq, i.perform_generate hcommand hloads, hrun, hgenerate]
  cases result with
  | error fault => rfl
  | ok r =>
    show (i.conclude (said, Generation.verdict r)).2.exitCode = if r.isSuccess then 0 else 4
    unfold Generation.verdict
    cases r.isSuccess <;> rfl

/-! ## Stopping and keeping going -/

/-- The schema files of the command are loaded and taken and declare nothing, and its output
directory can not be made. -/
def Invocation.Fruitless (i : Invocation) (env : Environment) (schemas : SchemaArgs)
    (output : Option Path) (package : Option String) (d : Disk) : Prop :=
  ∃ settings files fault,
    ((i.loadProject env schemas.paths : StateM Disk _).run d).1 = .ok (settings, files)
    ∧ (schemas.strict = true → ¬ Flawed files) ∧ allEntities files = []
    ∧ ((FileStore.makeDirs (settings.generator output package).outputDir
        : StateM Disk _).run d).1 = .error fault

section Verdicts

variable {stopping going : List String}
  (hread : CommandLine.read env stopping = .ok i)
  (hcommand : i.command = .generate schemas output package false)
  (hgoing : CommandLine.read env going
    = .ok { i with command := .generate schemas output package true })

include hread hcommand

/-- However the schema files are, a run that stops does not succeed without its output directory.
-/
theorem exitCode_stopping_ne_zero {fault : FileFault}
    (hloads : ((i.loadProject env schemas.paths : StateM Disk _).run d).1 = .ok (settings, files))
    (hdir : ((FileStore.makeDirs (settings.generator output package).outputDir
      : StateM Disk _).run d).1 = .error fault) :
    ((run env stopping : StateM Disk _).run d).1.2.exitCode ≠ 0 := by
  by_cases hrefused : schemas.strict = true ∧ Flawed files
  · rw [exitCode_of_refused hread hcommand hloads hrefused.1 hrefused.2]
    decide
  · rw [exitCode_of_taken hread hcommand hloads (not_and.mp hrefused),
      Generation.succeeds_stopping_of_noDir hdir]
    decide

include hgoing

theorem exitCodes_of_fruitless (h : i.Fruitless env schemas output package d) :
    ((run env stopping : StateM Disk _).run d).1.2.exitCode = 4
      ∧ ((run env going : StateM Disk _).run d).1.2.exitCode = 0 := by
  obtain ⟨settings, files, fault, hloads, htaken, hnil, hdir⟩ := h
  constructor
  · rw [exitCode_of_taken hread hcommand hloads htaken,
      Generation.succeeds_stopping_of_noDir hdir]
    rfl
  · rw [exitCode_of_taken hgoing rfl hloads htaken, hnil, Generation.succeeds_keepGoing_nil]
    rfl

theorem exitCode_going_eq (h : ¬ i.Fruitless env schemas output package d) :
    ((run env going : StateM Disk _).run d).1.2.exitCode
      = ((run env stopping : StateM Disk _).run d).1.2.exitCode := by
  cases hloads : ((i.loadProject env schemas.paths : StateM Disk _).run d).1 with
  | error failure =>
    rw [exitCode_of_unloaded hread hcommand hloads]
    exact exitCode_of_unloaded hgoing rfl hloads
  | ok project =>
    obtain ⟨settings, files⟩ := project
    by_cases hrefused : schemas.strict = true ∧ Flawed files
    · rw [exitCode_of_refused hread hcommand hloads hrefused.1 hrefused.2]
      exact exitCode_of_refused hgoing rfl hloads hrefused.1 hrefused.2
    · have htaken : schemas.strict = true → ¬ Flawed files := not_and.mp hrefused
      rw [exitCode_of_taken hread hcommand hloads htaken,
        exitCode_of_taken hgoing rfl hloads htaken]
      by_cases hes : allEntities files = []
      · -- with nothing to write both succeed, since there is an output directory
        have hdir : ((FileStore.makeDirs (settings.generator output package).outputDir
            : StateM Disk _).run d).1 = .ok () := by
          cases hmade : ((FileStore.makeDirs (settings.generator output package).outputDir
              : StateM Disk _).run d).1 with
          | ok u => rfl
          | error fault => exact absurd ⟨settings, files, fault, hloads, htaken, hes, hmade⟩ h
        rw [hes, Generation.succeeds_keepGoing_nil, Generation.succeeds_stopping_nil_iff.mpr hdir]
      · rw [Generation.succeeds_keepGoing_eq hes]

/-- **Keeping going has the verdict of stopping,** unless there is neither an entity nor an output
directory. Then stopping fails and keeping going does not. However the schema files are, a run that
stops does not succeed without its output directory. -/
theorem keepGoing_exitCode_eq_iff (d : Disk) :
    let codeStopping := ((run env stopping : StateM Disk _).run d).1.2.exitCode
    let codeGoing := ((run env going : StateM Disk _).run d).1.2.exitCode
    (codeGoing = codeStopping ↔ ¬ i.Fruitless env schemas output package d)
    ∧ (i.Fruitless env schemas output package d → codeStopping = 4 ∧ codeGoing = 0)
    ∧ ∀ settings files fault,
      ((i.loadProject env schemas.paths : StateM Disk _).run d).1 = .ok (settings, files) →
      ((FileStore.makeDirs (settings.generator output package).outputDir
        : StateM Disk _).run d).1 = .error fault → codeStopping ≠ 0 := by
  intro codeStopping codeGoing
  have hcodes : i.Fruitless env schemas output package d → codeStopping = 4 ∧ codeGoing = 0 :=
    exitCodes_of_fruitless hread hcommand hgoing
  refine ⟨⟨?_, exitCode_going_eq hread hcommand hgoing⟩, hcodes, ?_⟩
  · intro heq h
    obtain ⟨hfour, hzero⟩ := hcodes h
    rw [hfour, hzero] at heq
    exact nomatch heq
  · intro settings files fault hloads hdir
    exact exitCode_stopping_ne_zero hread hcommand hloads hdir

end Verdicts

/-- A schema file stands where the output directory is to go. With an entity in it both runs fail.
-/
theorem keepGoing_exitCode_eq_of_blocked :
    let codeStopping := ((run {} ["generate", "-o", "a.dsl", "a.dsl"]
      : StateM Disk _).run (.withSchema "entity A \x7b")).1.2.exitCode
    let codeGoing := ((run {} ["generate", "-o", "a.dsl", "--keep-going", "a.dsl"]
      : StateM Disk _).run (.withSchema "entity A \x7b")).1.2.exitCode
    codeGoing = codeStopping ∧ codeStopping ≠ 0 := by
  intro codeStopping codeGoing
  let i : Invocation := { command := .generate ⟨[⟨"a.dsl"⟩], false⟩ (some ⟨"a.dsl"⟩) none false }
  have hread : CommandLine.read {} ["generate", "-o", "a.dsl", "a.dsl"] = .ok i := rfl
  have hgoing : CommandLine.read {} ["generate", "-o", "a.dsl", "--keep-going", "a.dsl"]
      = .ok { i with command := .generate ⟨[⟨"a.dsl"⟩], false⟩ (some ⟨"a.dsl"⟩) none true } := rfl
  obtain ⟨hiff, -, hdir⟩ := keepGoing_exitCode_eq_iff hread rfl hgoing (.withSchema "entity A \x7b")
  have hloads := loadProject_withSchema i rfl "entity A \x7b"
  refine ⟨hiff.mpr ?_, hdir _ _ .alreadyExists hloads (by decide +kernel)⟩
  rintro ⟨settings, files, fault, hfound, -, hnil, -⟩
  rw [hloads] at hfound
  cases hfound
  exact absurd hnil (by decide +kernel)

/-- Without an entity in it keeping going does not fail. -/
theorem keepGoing_exitCode_ne :
    ((run {} ["generate", "-o", "a.dsl", "--keep-going", "a.dsl"]
        : StateM Disk _).run (.withSchema "# empty")).1.2.exitCode
      ≠ ((run {} ["generate", "-o", "a.dsl", "a.dsl"]
        : StateM Disk _).run (.withSchema "# empty")).1.2.exitCode := by
  decide +kernel

end Runs

end EntitySchema
