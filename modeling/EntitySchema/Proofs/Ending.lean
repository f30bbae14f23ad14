import Mathlib.Data.List.Nodup
import EntitySchema.Proofs.Batch
import EntitySchema.Proofs.Directories
import EntitySchema.Proofs.Drivers
import EntitySchema.Proofs.Loading
import EntitySchema.Proofs.Strictness

/-!
# How a generation ends

A command that generates ends in one of four ways (`run_ends`), and its exit code tells what it has
left on the disk: nothing, if its project was not loaded or was turned away, the files of some
entities, if generation failed, and the files of all of them otherwise. After a strict run no two
entities share a file.
-/

namespace EntitySchema

namespace Generator

variable {g : Generator} {d d' : Disk} {e : Entity} {es : List Entity} {r : Report} {q : Place}

/-! ## What a run can change -/

/-- A difference that entities and their output directory account for. -/
inductive Change (g : Generator) (es : List Entity) (d d' : Disk) (q : Place) : Prop
  /-- The output directory, or one above it, that was missing. -/
  | directory (p : Path) (hp : p ∈ g.outputDir.ancestors) (hlocate : d'.locate p = .ok q)
      (hmissing : d.node? q = none) (hnode : d'.node? q = some .directory)
  /-- The file of an entity that has a class. -/
  | file (e : Entity) (he : e ∈ es) (code : String) (hcode : Java.render g.options e = .ok code)
      (hlocate : d'.locate (g.outputPath e) = .ok q)
      (hnode : d'.node? q = some (.file code.toUTF8))

theorem Change.of_subset {es' : List Entity} (h : g.Change es d d' q)
    (hsub : ∀ e ∈ es, e ∈ es') : g.Change es' d d' q := by
  cases h with
  | directory p hp hlocate hmissing hnode => exact .directory p hp hlocate hmissing hnode
  | file e he code hcode hlocate hnode => exact .file e (hsub e he) code hcode hlocate hnode

/-- A run puts files on a disk to which directories have been added, and none of these files if
the output directory is not there. -/
theorem exists_made_of_generateEach (g : Generator) (es : List Entity) (d : Disk) :
    ∃ d₀, Disk.Made g.outputDir.ancestors d d₀
      ∧ (((g.generateEach es : StateM Disk _).run d).2 = d₀
        ∨ ((g.generateEach es : StateM Disk _).run d).2 = d₀.putFiles (g.files d₀ es)) := by
  obtain ⟨dir, d₀, hdir⟩ : ∃ dir d₀,
      (FileStore.makeDirs g.outputDir : StateM Disk _).run d = (dir, d₀) := ⟨_, _, rfl⟩
  have hmade := Disk.makes_makeDirs g.outputDir d
  rw [hdir] at hmade
  refine ⟨d₀, hmade, ?_⟩
  rw [generateEach_eq hdir]
  cases dir with
  | error fault =>
    rw [outcomes_of_noDir]
    exact .inl rfl
  | ok u =>
    obtain ⟨os, hos, -⟩ := outcomes_run (g := g) (.refl d₀) (.refl d₀) es
    rw [hos]
    exact .inr rfl

/-- **A run changes the output directory and the files of entities,** and nothing else. -/
theorem generateEach_change
    (hq : ((g.generateEach es : StateM Disk _).run d).2.node? q ≠ d.node? q) :
    g.Change es d ((g.generateEach es : StateM Disk _).run d).2 q := by
  obtain ⟨d₀, hmade, hd' | hd'⟩ := g.exists_made_of_generateEach es d
  · rw [hd'] at hq ⊢
    obtain ⟨p, hp, hlocate⟩ := hmade.named q hq
    exact .directory p hp hlocate (hmade.fresh q hq).1 (hmade.fresh q hq).2
  · rw [hd'] at hq ⊢
    by_cases hwritten : (d₀.putFiles (g.files d₀ es)).node? q = d₀.node? q
    · -- no file was put there, so it is a directory that was made before, and is there still
      rw [hwritten] at hq
      obtain ⟨hmissing, hnode⟩ := hmade.fresh q hq
      obtain ⟨p, hp, hlocate⟩ := hmade.named q hq
      have hkept := (dirsKept_putFiles (g := g) (.refl d₀) (.refl d₀) es).1
      have hlocate := Disk.locate_of_dirsKept hkept hlocate hnode
      exact .directory p hp hlocate hmissing (hwritten.trans hnode)
    · obtain ⟨e, he, code, hcode, hlocate, hnode⟩ := exists_of_node?_putFiles_ne hwritten
      exact .file e he code hcode hlocate hnode

/-! ## What a run has done that succeeds -/

/-- Entities without failures could all be written. -/
theorem canWrite_of_fits {os : List Outcome} (h : List.Forall₂ (g.Fits d) es os)
    (hsuccess : (Report.mk os).isSuccess = true) : ∀ e ∈ es, g.CanWrite d e := by
  unfold Report.isSuccess at hsuccess
  induction h with
  | nil => exact nofun
  | @cons e o es os ho _ ih =>
    obtain ⟨hfirst, hrest⟩ := Bool.and_eq_true_iff.mp hsuccess
    have hnone : o.fault? = none := Option.isNone_iff_eq_none.mp hfirst
    refine List.forall_mem_cons.mpr ⟨?_, ih hrest⟩
    cases hresult : o.result with
    | ok path => exact ((ho.2 path).mp hresult).2
    | error fault =>
      unfold Outcome.fault? at hnone
      rw [hresult] at hnone
      exact nomatch hnone

/-- A run without failures has put the file of every entity on a disk that allows it. -/
theorem canWrite_of_isSuccess (hrun : (g.generateEach es : StateM Disk _).run d = (r, d'))
    (hsuccess : r.isSuccess = true) :
    ∃ d₀, d' = d₀.putFiles (g.files d₀ es) ∧ ∀ e ∈ es, g.CanWrite d₀ e := by
  obtain ⟨dir, d₀, hdir⟩ : ∃ dir d₀,
      (FileStore.makeDirs g.outputDir : StateM Disk _).run d = (dir, d₀) := ⟨_, _, rfl⟩
  rw [generateEach_eq hdir] at hrun
  refine ⟨d₀, ?_⟩
  cases dir with
  | error fault =>
    cases es with
    | nil =>
      cases hrun
      exact ⟨rfl, nofun⟩
    | cons e es =>
      -- without an output directory the first entity has failed
      cases hrun
      exact nomatch hsuccess
  | ok u =>
    obtain ⟨os, hos, hfits⟩ := outcomes_run (g := g) (.refl d₀) (.refl d₀) es
    rw [hos] at hrun
    cases hrun
    exact ⟨rfl, canWrite_of_fits hfits hsuccess⟩

/-- **After a run without failures the path of an entity leads to the class of the last entity with
its name.** -/
theorem exists_last_of_isSuccess (hext : '/' ∉ g.options.extension.toList)
    (hrun : (g.generateEach es : StateM Disk _).run d = (r, d')) (hsuccess : r.isSuccess = true)
    (he : e ∈ es) :
    ∃ last code, IsLast (fun x => x.name = e.name) es last
      ∧ Java.render g.options last = .ok code ∧ d'.read (g.outputPath e) = .ok code.toUTF8 := by
  obtain ⟨d₀, rfl, hall⟩ := canWrite_of_isSuccess hrun hsuccess
  obtain ⟨q, content, hfile⟩ := exists_file?_of_canWrite (hall e he)
  obtain ⟨last, code, hlast, hcode, -, -, hread⟩ := exists_last_of_file? hext he hfile
  refine ⟨last, code, hlast.congr ?_, hcode, hread⟩
  intro x hx
  constructor
  · rintro ⟨hcan, hpath⟩
    obtain ⟨q', content', hfile'⟩ := exists_file?_of_canWrite hcan
    exact outputPath_inj hext (nameFault?_of_file? hfile') (nameFault?_of_file? hfile) hpath
  · intro hname
    exact ⟨hall x hx, outputPath_eq_of_name hname⟩

/-- **Entities with different names do not share a file** after a run without failures. -/
theorem locate_ne_of_isSuccess (hext : '/' ∉ g.options.extension.toList)
    (hrun : (g.generateEach es : StateM Disk _).run d = (r, d')) (hsuccess : r.isSuccess = true)
    {e' : Entity} (he : e ∈ es) (he' : e' ∈ es) (hne : e.name ≠ e'.name) :
    d'.locate (g.outputPath e) ≠ d'.locate (g.outputPath e') := by
  obtain ⟨d₀, rfl, hall⟩ := canWrite_of_isSuccess hrun hsuccess
  obtain ⟨q, content, hfile⟩ := exists_file?_of_canWrite (hall e he)
  obtain ⟨q', content', hfile'⟩ := exists_file?_of_canWrite (hall e' he')
  obtain ⟨-, -, -, -, -, hlocate, -⟩ := exists_last_of_file? hext he hfile
  obtain ⟨-, -, -, -, -, hlocate', -⟩ := exists_last_of_file? hext he' hfile'
  intro hsame
  rw [hlocate, hlocate'] at hsame
  cases hsame
  exact hne (name_eq_of_file? hext hfile hfile')

end Generator

/-! ## Commands that generate -/

namespace Generation

variable {g : Generator} {d d' : Disk} {es : List Entity} {keepGoing : Bool}

/-- A run that gives a report does what one does that tries every entity. -/
theorem generate_ok {r : Report}
    (h : (generate g keepGoing es : StateM Disk _).run d = (.ok r, d')) :
    (g.generateEach es : StateM Disk _).run d = (r, d') := by
  cases keepGoing with
  | true =>
    cases h
    rfl
  | false =>
    obtain ⟨hreport, hdisk⟩ := Generator.eq_of_generateReport_ok h (comes_run (g.generateEach es) d)
    exact Prod.ext hreport hdisk

/-- Whatever it gives, a run leaves behind what one does that tries every entity of the list, or of
the part before the first failure. -/
theorem exists_before_of_generate (g : Generator) (keepGoing : Bool) (es : List Entity) (d : Disk) :
    ∃ before, before <+: es ∧ ((g.generateEach before : StateM Disk _).run d).2
      = ((generate g keepGoing es : StateM Disk _).run d).2 := by
  obtain ⟨result, d', h⟩ : ∃ result d',
      (generate g keepGoing es : StateM Disk _).run d = (result, d') := ⟨_, _, rfl⟩
  rw [h]
  cases result with
  | ok r =>
    refine ⟨es, List.prefix_rfl, ?_⟩
    rw [generate_ok h]
  | error fault =>
    cases keepGoing with
    | true => exact nomatch congrArg Prod.fst h
    | false =>
      obtain ⟨before, r, hprefix, hbefore⟩ := Generator.exists_before_of_generateReport_error
        (Disk.atomic Id) h (comes_run (g.generateEach es) d)
      exact ⟨before, hprefix, congrArg Prod.snd hbefore.run_eq⟩

/-- Files that are not turned away are generated from, and how that ends decides about the
command. -/
theorem run_of_taken {strict : Bool} {files : List SchemaFile}
    {result : Except GenerationFault Report} (htaken : strict = true → ¬ Flawed files)
    (h : (generate g keepGoing (allEntities files) : StateM Disk _).run d = (result, d'))
    (c : Console) : ∃ said, (run c g strict keepGoing files : StateM Disk _).run d
      = ((said, result.mapError .generation >>= verdict), d') := by
  have hlenient : ∃ said, (run c g false keepGoing files : StateM Disk _).run d
      = ((said, result.mapError .generation >>= verdict), d') := by
    unfold run
    rw [if_neg Bool.false_ne_true]
    dsimp only
    rw [StateT.run_bind, h]
    cases result with
    | error fault => exact ⟨_, rfl⟩
    | ok r => exact ⟨_, rfl⟩
  cases strict with
  | false => exact hlenient
  | true =>
    rw [run_of_not_flawed (htaken rfl)]
    exact hlenient

end Generation

/-- How a command ends that generates. -/
inductive Ends (i : Invocation) (env : Environment) (schemas : SchemaArgs) (output : Option Path)
    (package : Option String) (d : Disk) (ended : (Output × Ending) × Disk) : Prop
  /-- Its project was not loaded. -/
  | unloaded (failure : Failure) (hearly : failure.IsEarly)
      (hending : ended.1.2 = .failure failure) (hdisk : ended.2 = d)
  /-- It is strict and did not take the files. -/
  | refused (failure : Failure) (hcode : failure.exitCode = 3)
      (hending : ended.1.2 = .failure failure) (hdisk : ended.2 = d)
  /-- Generation failed, after it was done with the first of the entities. -/
  | failed (settings : Settings) (files : List SchemaFile) (before : List Entity)
      (failure : Failure)
      (hloads : ((i.loadProject env schemas.paths : StateM Disk _).run d).1
        = .ok (settings, files))
      (hcode : failure.exitCode = 4) (hending : ended.1.2 = .failure failure)
      (hbefore : before <+: allEntities files)
      (hdisk : (((settings.generator output package).generateEach before
        : StateM Disk _).run d).2 = ended.2)
  /-- All entities were generated. -/
  | succeeded (settings : Settings) (files : List SchemaFile) (r : Report)
      (hloads : ((i.loadProject env schemas.paths : StateM Disk _).run d).1
        = .ok (settings, files))
      (hsound : schemas.strict = true → ¬ Flawed files) (hending : ended.1.2 = .success)
      (hsuccess : r.isSuccess = true)
      (hrun : ((settings.generator output package).generateEach (allEntities files)
        : StateM Disk _).run d = (r, ended.2))

section Runs

variable {env : Environment} {i : Invocation} {schemas : SchemaArgs} {output : Option Path}
  {package : Option String} {keepGoing : Bool} {words : List String}

theorem Invocation.perform_generate_of_error {d : Disk} {failure : Failure}
    (hcommand : i.command = .generate schemas output package keepGoing)
    (hloads : ((i.loadProject env schemas.paths : StateM Disk _).run d).1 = .error failure) :
    (i.perform env : StateM Disk _).run d = ((.none, .error failure), d) := by
  refine i.perform_of_unloaded ?_ hloads
  rw [hcommand]
  rfl

/-- **Every command that generates ends in one of these ways.** -/
theorem run_ends (hread : CommandLine.read env words = .ok i)
    (hcommand : i.command = .generate schemas output package keepGoing) (d : Disk) :
    Ends i env schemas output package d ((run env words : StateM Disk _).run d) := by
  rw [run_of_read hread, i.run_eq]
  cases hloads : ((i.loadProject env schemas.paths : StateM Disk _).run d).1 with
  | error failure =>
    rw [i.perform_generate_of_error hcommand hloads]
    exact .unloaded failure (i.loadProject_fault env schemas.paths d failure hloads) rfl rfl
  | ok project =>
    obtain ⟨settings, files⟩ := project
    rw [i.perform_generate hcommand hloads]
    by_cases hrefused : schemas.strict = true ∧ Flawed files
    · obtain ⟨hstrict, hflawed⟩ := hrefused
      obtain ⟨said, failure, hrun, hcode⟩ := Generation.run_of_flawed (m := StateM Disk) hflawed
        i.console (settings.generator output package) keepGoing
      rw [hstrict, hrun]
      exact .refused failure hcode rfl rfl
    · have htaken : schemas.strict = true → ¬ Flawed files := not_and.mp hrefused
      obtain ⟨result, d', hgenerate⟩ : ∃ result d', (Generation.generate
          (settings.generator output package) keepGoing (allEntities files)
            : StateM Disk _).run d = (result, d') := ⟨_, _, rfl⟩
      obtain ⟨said, hrun⟩ := Generation.run_of_taken htaken hgenerate i.console
      rw [hrun]
      cases result with
      | error fault =>
        obtain ⟨before, hbefore, hdisk⟩ := Generation.exists_before_of_generate
          (settings.generator output package) keepGoing (allEntities files) d
        rw [hgenerate] at hdisk
        exact .failed settings files before (.generation fault) hloads rfl rfl hbefore hdisk
      | ok r =>
        have heach := Generation.generate_ok hgenerate
        cases hsuccess : r.isSuccess with
        | true =>
          have hverdict : Generation.verdict r = .ok () := if_pos hsuccess
          refine .succeeded settings files r hloads htaken ?_ hsuccess heach
          show (i.conclude (said, Generation.verdict r)).2 = _
          rw [hverdict]
          rfl
        | false =>
          -- a run that keeps going has been through all entities when it fails
          let failure : Failure := .partialGeneration r.failures.length r.outcomes.length
          have hverdict : Generation.verdict r = .error failure := if_neg (by simp [hsuccess])
          refine .failed settings files (allEntities files) failure hloads rfl ?_ List.prefix_rfl
            (congrArg Prod.snd heach)
          show (i.conclude (said, Generation.verdict r)).2 = _
          rw [hverdict]
          rfl

/-! ## What the exit code tells -/

theorem Ending.exitCode_eq {ending : Ending} {failure : Failure} (h : ending = .failure failure) :
    ending.exitCode = failure.exitCode := by
  rw [h]
  rfl

namespace Ends

variable {d : Disk} {ended : (Output × Ending) × Disk}

/-- Before generation has started nothing has changed. -/
theorem disk_eq (h : Ends i env schemas output package d ended)
    (hcode : ended.1.2.exitCode ∈ [1, 2, 3]) : ended.2 = d := by
  cases h with
  | unloaded failure hearly hending hdisk => exact hdisk
  | refused failure hthree hending hdisk => exact hdisk
  | failed settings files before failure hloads hfour hending hbefore hdisk =>
    rw [Ending.exitCode_eq hending, hfour] at hcode
    exact nomatch hcode
  | succeeded settings files r hloads hsound hending hsuccess hrun =>
    rw [hending] at hcode
    exact nomatch hcode

/-- When generation fails, only what it has done so far has changed. -/
theorem exists_change (h : Ends i env schemas output package d ended)
    (hcode : ended.1.2.exitCode = 4) :
    ∃ settings files,
      ((i.loadProject env schemas.paths : StateM Disk _).run d).1 = .ok (settings, files)
      ∧ ∀ q, ended.2.node? q ≠ d.node? q →
        (settings.generator output package).Change (allEntities files) d ended.2 q := by
  cases h with
  | unloaded failure hearly hending hdisk =>
    rw [Ending.exitCode_eq hending] at hcode
    rcases hearly with hone | htwo
    · exact nomatch hone.symm.trans hcode
    · exact nomatch htwo.symm.trans hcode
  | refused failure hthree hending hdisk =>
    rw [Ending.exitCode_eq hending] at hcode
    exact nomatch hthree.symm.trans hcode
  | failed settings files before failure hloads hfour hending hbefore hdisk =>
    refine ⟨settings, files, hloads, ?_⟩
    intro q hq
    rw [← hdisk] at hq ⊢
    exact (Generator.generateEach_change hq).of_subset fun e he => hbefore.subset he
  | succeeded settings files r hloads hsound hending hsuccess hrun =>
    rw [hending] at hcode
    exact nomatch hcode

/-- A run with exit code 0 has generated every entity. -/
theorem exists_isSuccess (h : Ends i env schemas output package d ended)
    (hcode : ended.1.2.exitCode = 0) :
    ∃ settings files r,
      ((i.loadProject env schemas.paths : StateM Disk _).run d).1 = .ok (settings, files)
      ∧ (schemas.strict = true → ¬ Flawed files) ∧ r.isSuccess = true
      ∧ ((settings.generator output package).generateEach (allEntities files)
        : StateM Disk _).run d = (r, ended.2) := by
  have hfailure {failure : Failure} (hending : ended.1.2 = .failure failure) : False :=
    failure.exitCode_ne_zero ((Ending.exitCode_eq hending).symm.trans hcode)
  cases h with
  | unloaded failure hearly hending hdisk => exact (hfailure hending).elim
  | refused failure hthree hending hdisk => exact (hfailure hending).elim
  | failed settings files before failure hloads hfour hending hbefore hdisk =>
    exact (hfailure hending).elim
  | succeeded settings files r hloads hsound hending hsuccess hrun =>
    exact ⟨settings, files, r, hloads, hsound, hsuccess, hrun⟩

end Ends

/-- **The exit code of a command that generates tells what it leaves on the disk.** -/
theorem generate_exitCode_residue (hread : CommandLine.read env words = .ok i)
    (hcommand : i.command = .generate schemas output package keepGoing) (d : Disk) :
    let ended := (run env words : StateM Disk _).run d
    (ended.1.2.exitCode ∈ [1, 2, 3] → ended.2 = d)
    ∧ (ended.1.2.exitCode = 4 → ∃ settings files,
        ((i.loadProject env schemas.paths : StateM Disk _).run d).1 = .ok (settings, files)
        ∧ ∀ q, ended.2.node? q ≠ d.node? q →
          (settings.generator output package).Change (allEntities files) d ended.2 q)
    ∧ (ended.1.2.exitCode = 0 → ∃ settings files,
        ((i.loadProject env schemas.paths : StateM Disk _).run d).1 = .ok (settings, files)
        ∧ ('/' ∉ settings.options.extension.toList → ∀ e ∈ allEntities files, ∃ last code,
          IsLast (fun x => x.name = e.name) (allEntities files) last
          ∧ Java.render (settings.generator output package).options last = .ok code
          ∧ ended.2.read ((settings.generator output package).outputPath e)
            = .ok code.toUTF8)) := by
  intro ended
  have hends : Ends i env schemas output package d ended := run_ends hread hcommand d
  refine ⟨hends.disk_eq, hends.exists_change, ?_⟩
  intro hcode
  obtain ⟨settings, files, r, hloads, -, hsuccess, hrun⟩ := hends.exists_isSuccess hcode
  refine ⟨settings, files, hloads, ?_⟩
  intro hext e he
  exact Generator.exists_last_of_isSuccess hext hrun hsuccess he

theorem allEntities_singleton (f : SchemaFile) : allEntities [f] = f.entities := List.append_nil _

/-- Of two entities with the same name the last one is generated, unless the run is strict. An
entity whose name is a path fails, and the one before it stays. -/
theorem generate_exitCode_residue_each :
    let twice := "entity A \x7b\n\x7d\nentity A \x7b\nb: long\n\x7d"
    let nested := "entity A \x7b\n\x7d\nentity B/C \x7b\n\x7d"
    let g : Generator := ({} : Settings).generator none none
    let lenient := (run {} ["generate", "a.dsl"] : StateM Disk _).run (.withSchema twice)
    let strict := (run {} ["generate", "--strict", "a.dsl"] : StateM Disk _).run
      (.withSchema twice)
    let partly := (run {} ["generate", "--keep-going", "a.dsl"] : StateM Disk _).run
      (.withSchema nested)
    (∀ e ∈ (read twice).entities, ∃ last code,
        IsLast (fun x => x.name = e.name) (read twice).entities last
        ∧ Java.render g.options last = .ok code
        ∧ lenient.2.read (g.outputPath e) = .ok code.toUTF8)
      ∧ strict.2 = .withSchema twice
      ∧ ∀ q, partly.2.node? q ≠ (Disk.withSchema nested).node? q →
        g.Change (read nested).entities (.withSchema nested) partly.2 q := by
  intro twice nested g lenient strict partly
  refine ⟨?_, ?_, ?_⟩
  · have hread : CommandLine.read {} ["generate", "a.dsl"]
        = .ok { command := .generate ⟨[⟨"a.dsl"⟩], false⟩ none none false } := rfl
    have hcode : lenient.1.2.exitCode = 0 := by decide +kernel
    obtain ⟨settings, files, hfound, hlast⟩ :=
      (generate_exitCode_residue hread rfl (.withSchema twice)).2.2 hcode
    rw [loadProject_withSchema _ rfl] at hfound
    cases hfound
    rw [allEntities_singleton] at hlast
    exact hlast (by decide)
  · have hread : CommandLine.read {} ["generate", "--strict", "a.dsl"]
        = .ok { command := .generate ⟨[⟨"a.dsl"⟩], true⟩ none none false } := rfl
    have hcode : strict.1.2.exitCode = 3 := by decide +kernel
    exact (generate_exitCode_residue hread rfl (.withSchema twice)).1 (by rw [hcode]; decide)
  · have hread : CommandLine.read {} ["generate", "--keep-going", "a.dsl"]
        = .ok { command := .generate ⟨[⟨"a.dsl"⟩], false⟩ none none true } := rfl
    have hcode : partly.1.2.exitCode = 4 := by decide +kernel
    obtain ⟨settings, files, hfound, hchange⟩ :=
      (generate_exitCode_residue hread rfl (.withSchema nested)).2.1 hcode
    rw [loadProject_withSchema _ rfl] at hfound
    cases hfound
    rw [allEntities_singleton] at hchange
    exact hchange

/-- **A strict run that succeeds leaves one file for each entity.** -/
theorem strict_generate_keeps_all {paths : List Path} {d : Disk}
    (hread : CommandLine.read env words = .ok i)
    (hcommand : i.command = .generate ⟨paths, true⟩ output package keepGoing)
    (hcode : ((run env words : StateM Disk _).run d).1.2.exitCode = 0) :
    ∃ settings files,
      ((i.loadProject env paths : StateM Disk _).run d).1 = .ok (settings, files)
      ∧ ('/' ∉ settings.options.extension.toList →
        let g := settings.generator output package
        let d' := ((run env words : StateM Disk _).run d).2
        ((allEntities files).map g.outputPath).Nodup
        ∧ (allEntities files).Pairwise
          (fun e e' => d'.locate (g.outputPath e) ≠ d'.locate (g.outputPath e'))
        ∧ ∀ e ∈ allEntities files, ∃ code, Java.render g.options e = .ok code
          ∧ d'.read (g.outputPath e) = .ok code.toUTF8) := by
  obtain ⟨settings, files, r, hloads, hsound, hsuccess, hrun⟩ :=
    (run_ends hread hcommand d).exists_isSuccess hcode
  refine ⟨settings, files, hloads, ?_⟩
  intro hext g d'
  -- a strict run has checked that each entity has a class, and that no two have the same name
  obtain ⟨hfaults, hnames⟩ := checkSchema_eq_ok_iff.mp (not_flawed_iff.mp (hsound rfl)).2
  have hname : ∀ e ∈ allEntities files, e.nameFault? = none :=
    fun e he => (Entity.fault?_eq_none_iff.mp (hfaults e he)).1
  have hpairs : (allEntities files).Pairwise fun e e' => e.name ≠ e'.name :=
    List.pairwise_map.mp hnames
  refine ⟨List.pairwise_map.mpr ?_, ?_, ?_⟩
  · refine hpairs.imp_of_mem ?_
    intro e e' he he' hne hpath
    exact hne (Generator.outputPath_inj (g := g) hext (hname e he) (hname e' he') hpath)
  · refine hpairs.imp_of_mem ?_
    intro e e' he he' hne
    exact Generator.locate_ne_of_isSuccess hext hrun hsuccess he he' hne
  · intro e he
    obtain ⟨last, code, hlast, hcode, hread⟩ :=
      Generator.exists_last_of_isSuccess hext hrun hsuccess he
    -- the last entity with this name is the only one
    have hsame : last = e := List.inj_on_of_nodup_map hnames hlast.mem he hlast.holds
    rw [hsame] at hcode
    exact ⟨code, hcode, hread⟩

/-- Two entities that go side by side are both on the disk. -/
theorem strict_generate_keeps_all_of_two :
    let two := "entity A \x7b\n\x7d\nentity B \x7b\n\x7d"
    let g : Generator := ({} : Settings).generator none none
    let ended := (run {} ["generate", "--strict", "a.dsl"] : StateM Disk _).run (.withSchema two)
    ended.1.2.exitCode = 0 ∧ ((read two).entities.map g.outputPath).Nodup
      ∧ ∀ e ∈ (read two).entities, ∃ code, Java.render g.options e = .ok code
        ∧ ended.2.read (g.outputPath e) = .ok code.toUTF8 := by
  intro two g ended
  have hread : CommandLine.read {} ["generate", "--strict", "a.dsl"]
      = .ok { command := .generate ⟨[⟨"a.dsl"⟩], true⟩ none none false } := rfl
  have hcode : ended.1.2.exitCode = 0 := by decide +kernel
  obtain ⟨settings, files, hfound, hall⟩ := strict_generate_keeps_all hread rfl hcode
  rw [loadProject_withSchema _ rfl] at hfound
  cases hfound
  rw [allEntities_singleton] at hall
  obtain ⟨hpaths, -, hfiles⟩ := hall (by decide)
  exact ⟨hcode, hpaths, hfiles⟩

end Runs

end EntitySchema
