import Mathlib.Algebra.GroupWithZero.Nat
import EntitySchema.Proofs.JsonForms
import EntitySchema.Proofs.Printout

/-!
# What a command writes in JSON

In JSON the output stream is for programs: a command that succeeds writes one document and a line
feed, and one that fails before writes nothing there. The numbers in a document are those of its
lists (`Json.AddsUp`, `Json.Accounts`). There is one way around this: the entities that a check
prints stand in front of its document, and then the stream as a whole is no document any more
(`run_json_stdout`).
-/

namespace EntitySchema

/-! ## Documents -/

/-- The text is a JSON document of this kind and a line feed. -/
def IsDocument (P : Json → Prop) (text : String) : Prop :=
  ∃ body doc, text = body ++ "\n" ∧ Json.parse? body = some doc ∧ P doc

/-- The text holds nothing, or one JSON document and a line feed. -/
def MachineReadable (stdout : String) : Prop := stdout = "" ∨ IsDocument (fun _ => True) stdout

theorem isDocument_pretty {P : Json → Prop} {doc : Json} (hexact : doc.Exact) (h : P doc) :
    IsDocument P (doc.pretty ++ "\n") := ⟨doc.pretty, doc, rfl, Json.parse?_pretty hexact, h⟩

theorem IsDocument.isDocument {P : Json → Prop} {text : String} (h : IsDocument P text) :
    IsDocument (fun _ => True) text := by
  obtain ⟨body, doc, htext, hparse, -⟩ := h
  exact ⟨body, doc, htext, hparse, trivial⟩

theorem IsDocument.machineReadable {P : Json → Prop} {text : String} (h : IsDocument P text) :
    MachineReadable text := .inr h.isDocument

theorem IsDocument.ne_empty {P : Json → Prop} {text : String} (h : IsDocument P text) :
    text ≠ "" := by
  obtain ⟨body, doc, rfl, -, -⟩ := h
  simp

/-- A command that ends like this has written a document of this kind, or has failed and written
nothing. -/
def Answers (P : Json → Prop) (done : Output × Except Failure Unit) : Prop :=
  IsDocument P done.1.stdout ∨ done.1.stdout = "" ∧ ∃ f, done.2 = .error f

/-- No value starts with the first letter of a printed entity. -/
theorem Json.parse?_eq_none_of_head? {text : String} (h : text.toList.head? = some 'e') :
    parse? text = none := by
  obtain ⟨rest, htext⟩ := List.head?_eq_some_iff.mp h
  unfold parse?
  rw [htext]
  rfl

theorem not_machineReadable_of_head? {stdout : String} (h : stdout.toList.head? = some 'e') :
    ¬ MachineReadable stdout := by
  intro hread
  rcases hread with rfl | ⟨body, doc, rfl, hparse, -⟩
  · exact nomatch h
  · have hhead : body.toList.head? = some 'e' := by
      rw [String.toList_append] at h
      cases hbody : body.toList with
      | nil =>
        rw [hbody] at h
        exact absurd h (by decide)
      | cons c cs =>
        rw [hbody] at h
        exact h
    rw [Json.parse?_eq_none_of_head? hhead] at hparse
    exact nomatch hparse

/-! ## Checks -/

theorem head?_printAll {es : List Entity} (h : es ≠ []) :
    (printAll es).toList.head? = some 'e' := by
  obtain ⟨e, es, rfl⟩ := List.exists_cons_of_ne_nil h
  cases es with
  | nil => simp [printAll, Entity.print]
  | cons e' es => simp [printAll, Entity.print]

namespace Checking

variable {c : Console} {strict print : Bool} {files : List SchemaFile}

theorem printed_of_nil (h : allEntities files = []) (print : Bool) : printed print files = "" := by
  have hjoin : String.join ((files.map SchemaFile.entities).map printAll) = "" := by
    induction files with
    | nil => rfl
    | cons f files ih =>
      obtain ⟨hfirst, hrest⟩ := List.append_eq_nil_iff.mp h
      rw [List.map_cons, List.map_cons, String.join_cons, ih hrest, hfirst]
      rfl
  unfold printed
  rw [hjoin, ite_self]

/-- What is printed starts with the first entity, whichever file that is in. -/
theorem head?_printed (h : allEntities files ≠ []) :
    (printed true files).toList.head? = some 'e' := by
  unfold printed
  rw [if_pos rfl]
  induction files with
  | nil => exact absurd rfl h
  | cons f files ih =>
    rw [List.map_cons, List.map_cons, String.join_cons, String.toList_append]
    by_cases hfirst : f.entities = []
    · have hrest : allEntities files ≠ [] := by
        intro hnil
        exact h (List.append_eq_nil_iff.mpr ⟨hfirst, hnil⟩)
      rw [hfirst]
      exact ih hrest
    · obtain ⟨rest, hprint⟩ := List.head?_eq_some_iff.mp (head?_printAll hfirst)
      rw [hprint]
      rfl

end Checking

namespace Json

/-- How many elements the member with this key has, if it is a list. -/
def count? (key : String) (j : Json) : Option Nat :=
  match j.member? key with
  | some (.arr items) => some items.length
  | _ => none

/-- The number with this key is how many elements the lists with the key in the results have
together. -/
def Totals (key : String) (doc : Json) (results : List Json) : Prop :=
  ∃ counts : List Nat, results.map (count? key) = counts.map some
    ∧ doc.member? key = some (.nat counts.sum)

/-- There is a result for each of these files in order, and the totals are those of the results. -/
def AddsUp (files : List SchemaFile) (doc : Json) : Prop :=
  ∃ results, doc.member? "results" = some (.arr results)
    ∧ results.map (member? "file") = files.map (fun f => some (.str f.path.text))
    ∧ doc.Totals "entities" results ∧ doc.Totals "findings" results

/-- Of the results of a generation, which are those of these entities in order, the ones with a path
are counted as written and the others as failed. -/
def Accounts (es : List Entity) (doc : Json) : Prop :=
  ∃ results written failed, doc.member? "results" = some (.arr results)
    ∧ doc.member? "written" = some (.nat written) ∧ doc.member? "failed" = some (.nat failed)
    ∧ written = results.countP (fun result => (result.member? "path").isSome)
    ∧ written + failed = results.length
    ∧ results.map (member? "entity") = es.map fun e => some (.str e.name)

end Json

theorem length_allEntities (files : List SchemaFile) :
    (allEntities files).length = (files.map fun f => f.entities.length).sum := List.length_flatMap

theorem countFindings_eq (files : List SchemaFile) :
    countFindings files = (files.map fun f => f.findings.length).sum := by
  unfold countFindings
  rw [List.sum_eq_foldr, List.foldr_map]

theorem SchemaFile.exact_findingsJson (f : SchemaFile) : f.findingsJson.Exact := by
  unfold findingsJson
  exact Json.exactItems_map (fun g => by simp [Json.Exact, Json.ExactMembers, Json.nat]) f.findings

namespace Checking

theorem exact_fileJson (f : SchemaFile) : (fileJson f).Exact := by
  have hnames : Json.ExactItems (f.entities.map fun e => .str e.name) :=
    Json.exactItems_map (fun e => by trivial) f.entities
  have hfindings := f.exact_findingsJson
  simp [fileJson, Json.Exact, Json.ExactMembers, hnames, hfindings]

theorem count?_fileJson (f : SchemaFile) :
    (fileJson f).count? "entities" = some f.entities.length
      ∧ (fileJson f).count? "findings" = some f.findings.length :=
  ⟨congrArg some (List.length_map _), congrArg some (List.length_map _)⟩

/-- **The summary of a check in JSON** is a document whose totals are those of its results. -/
theorem isDocument_summary {c : Console} (h : c.format = .json) (strict : Bool)
    (files : List SchemaFile) :
    IsDocument (Json.AddsUp files) (summary c strict files).stdout := by
  unfold summary
  rw [h]
  refine isDocument_pretty ?_ ⟨files.map fileJson, rfl, ?_, ?_, ?_⟩
  · have hresults : Json.ExactItems (files.map fileJson) :=
      Json.exactItems_map exact_fileJson files
    simp [Json.Exact, Json.ExactMembers, Json.nat, hresults]
  · rw [List.map_map]
    rfl
  · refine ⟨files.map fun f => f.entities.length, ?_, ?_⟩
    · rw [List.map_map, List.map_map]
      exact List.map_congr_left fun f _ => (count?_fileJson f).1
    · rw [← length_allEntities]
      rfl
  · refine ⟨files.map fun f => f.findings.length, ?_, ?_⟩
    · rw [List.map_map, List.map_map]
      exact List.map_congr_left fun f _ => (count?_fileJson f).2
    · rw [← countFindings_eq]
      rfl

end Checking

/-! ## Generation -/

/-- Every entity was written or has failed. -/
theorem Report.written_add_failures (r : Report) :
    r.written.length + r.failures.length = r.outcomes.length := by
  obtain ⟨os⟩ := r
  let failure? : Outcome → Option (String × GenerationFault) :=
    fun o => o.fault?.map fun fault => (o.entity, fault)
  show (os.filterMap Outcome.written?).length + (os.filterMap failure?).length = os.length
  induction os with
  | nil => rfl
  | cons o os ih =>
    obtain ⟨entity, result⟩ := o
    cases result with
    | ok path =>
      show (os.filterMap Outcome.written?).length + 1 + (os.filterMap failure?).length
        = os.length + 1
      omega
    | error fault =>
      show (os.filterMap Outcome.written?).length + ((os.filterMap failure?).length + 1)
        = os.length + 1
      omega

section Actions

variable {σ : Type} [FileStore (StateM σ)]

namespace Generator

theorem entity_outcome (g : Generator) (dir : Except FileFault Unit) (e : Entity) :
    Yields (fun o => o.entity = e.name) (g.outcome dir e : StateM σ _) := by
  unfold outcome
  cases dir with
  | ok u => exact .bind_any fun result => .pure rfl
  | error fault => exact .pure rfl

/-- The outcomes of entities stand in their order. -/
theorem entities_outcomes (g : Generator) (dir : Except FileFault Unit) (es : List Entity) :
    Yields (fun os => os.map Outcome.entity = es.map Entity.name)
      (g.outcomes dir es : StateM σ _) := by
  induction es with
  | nil => exact .pure rfl
  | cons e es ih =>
    unfold outcomes
    refine .bind (g.entity_outcome dir e) fun first hfirst => .bind ih fun rest hrest => .pure ?_
    rw [List.map_cons, List.map_cons, hfirst, hrest]

/-- So do those of a run that stops at the first failure, if it does not stop. -/
theorem entities_writeOutcomes (g : Generator) (es : List Entity) :
    Yields (fun result => ∀ os, result = .ok os → os.map Outcome.entity = es.map Entity.name)
      (g.writeOutcomes es : StateM σ _) := by
  induction es with
  | nil => exact .pure fun os hos => by cases hos; rfl
  | cons e es ih =>
    unfold writeOutcomes
    refine .bind_any fun written => ?_
    cases written with
    | error fault => exact .pure nofun
    | ok path =>
      refine .bind ih fun rest hrest => ?_
      cases rest with
      | error fault => exact .pure nofun
      | ok more =>
        refine .pure fun os hos => ?_
        cases hos
        rw [List.map_cons, List.map_cons, hrest more rfl]

end Generator

namespace Generation

/-- A generation that gives a report tells of each entity, in order. -/
theorem entities_generate (g : Generator) (keepGoing : Bool) (es : List Entity) :
    Yields (fun result => ∀ r, result = .ok r → r.outcomes.map Outcome.entity = es.map Entity.name)
      (generate g keepGoing es : StateM σ _) := by
  unfold generate
  cases keepGoing with
  | true =>
    refine .bind (P := fun r => r.outcomes.map Outcome.entity = es.map Entity.name) ?_ ?_
    · exact .bind_any fun dir => .bind (g.entities_outcomes dir es) fun os hos => .pure hos
    · intro r hr
      refine .pure fun r' hr' => ?_
      cases hr'
      exact hr
  | false =>
    refine .bind_any fun dir => ?_
    cases dir with
    | error fault => exact .pure nofun
    | ok u =>
      refine .bind (g.entities_writeOutcomes es) fun result hresult => ?_
      cases result with
      | error fault => exact .pure nofun
      | ok os =>
        refine .pure fun r hr => ?_
        cases hr
        exact hresult os rfl

theorem exact_outcomeJson (o : Outcome) : (outcomeJson o).Exact := by
  unfold outcomeJson
  cases o.result <;> simp [Json.Exact, Json.ExactMembers]

theorem member?_outcomeJson (o : Outcome) :
    (outcomeJson o).member? "entity" = some (.str o.entity) := by
  unfold outcomeJson
  cases o.result <;> rfl

theorem isSome_member?_outcomeJson (o : Outcome) :
    ((outcomeJson o).member? "path").isSome = o.written?.isSome := by
  unfold outcomeJson Outcome.written?
  cases o.result <;> rfl

/-- **The report on a generation in JSON** is a document that accounts for the entities. -/
theorem isDocument_report {c : Console} (h : c.format = .json) (g : Generator) {r : Report}
    {es : List Entity} (hr : r.outcomes.map Outcome.entity = es.map Entity.name) :
    IsDocument (Json.Accounts es) (report c g r).stdout := by
  unfold report
  rw [h]
  refine isDocument_pretty ?_ ⟨r.outcomes.map outcomeJson, r.written.length, r.failures.length,
    rfl, rfl, rfl, ?_, ?_, ?_⟩
  · have hresults : Json.ExactItems (r.outcomes.map outcomeJson) :=
      Json.exactItems_map exact_outcomeJson r.outcomes
    simp [Json.Exact, Json.ExactMembers, Json.nat, hresults]
  · rw [List.countP_map, Report.written, List.length_filterMap_eq_countP]
    exact List.countP_congr fun o _ => by rw [Function.comp_apply, isSome_member?_outcomeJson]
  · rw [r.written_add_failures, List.length_map]
  · have hnames := congrArg (List.map fun name => some (Json.str name)) hr
    rw [List.map_map, List.map_map] at hnames
    rw [List.map_map, ← Function.comp_def fun name => some (Json.str name), ← hnames]
    exact List.map_congr_left fun o _ => member?_outcomeJson o

/-- What is found in the files goes to the error stream. -/
theorem stdout_findings (c : Console) (strict : Bool) (files : List SchemaFile) :
    (Output.concat (files.map fun f => c.findings strict f.path f.findings)).stdout = "" := by
  induction files with
  | nil => rfl
  | cons f files ih =>
    rw [List.map_cons, Output.concat_cons, Output.stdout_append, c.stdout_findings, ih]
    rfl

/-- A generation that does not get to its report fails, and leaves the output stream alone. -/
theorem answers_run {c : Console} (h : c.format = .json) (g : Generator) (strict keepGoing : Bool)
    (files : List SchemaFile) :
    Yields (Answers (Json.Accounts (allEntities files)))
      (run c g strict keepGoing files : StateM σ _) := by
  have hsilent := stdout_findings c strict files
  unfold run
  dsimp only
  split
  · exact .pure (.inr ⟨hsilent, _, rfl⟩)
  · refine .bind (entities_generate g keepGoing (allEntities files)) fun result hresult => ?_
    cases result with
    | error fault => exact .pure (.inr ⟨hsilent, _, rfl⟩)
    | ok r =>
      refine .pure (.inl ?_)
      rw [Output.stdout_append, hsilent, String.empty_append]
      exact isDocument_report h g (hresult r rfl)

end Generation

/-- **A new project in JSON** is told of by a document, unless it can not be made. -/
theorem Project.answers_init {c : Console} (h : c.format = .json) (name : String)
    (force : Bool) : Yields (Answers fun _ => True) (init c name force : StateM σ _) := by
  unfold init
  refine .bind_any fun there => ?_
  split
  · exact .pure (.inr ⟨rfl, _, rfl⟩)
  · refine .bind_any fun made => ?_
    cases made with
    | error failure => exact .pure (.inr ⟨rfl, _, rfl⟩)
    | ok u =>
      refine .pure (.inl ?_)
      unfold report
      rw [h]
      refine isDocument_pretty ?_ trivial
      simp [Json.Exact, Json.ExactMembers, Json.ExactItems]

end Actions

/-! ## Runs -/

section Runs

variable {σ : Type} [FileStore (StateM σ)] [SteadyStore σ] {env : Environment} {s : σ}
  {i : Invocation}

omit [SteadyStore σ] in
/-- The command is a check that prints, and there are entities to print. -/
def Invocation.PrintsEntities (i : Invocation) (env : Environment) (s : σ) : Prop :=
  ∃ (schemas : SchemaArgs) (settings : Settings) (files : List SchemaFile),
    i.command = .parse schemas true
      ∧ ((i.loadProject env schemas.paths : StateM σ _).run s).1 = .ok (settings, files)
      ∧ allEntities files ≠ []

namespace Invocation

variable {schemas : SchemaArgs} {settings : Settings} {files : List SchemaFile}

theorem conclude_of_error {done : Output × Except Failure Unit} {f : Failure}
    (h : done.2 = .error f) : (i.conclude done).2 = .failure f := by
  obtain ⟨output, verdict⟩ := done
  obtain rfl : verdict = .error f := h
  rfl

omit [SteadyStore σ] in
/-- What a command answers is the same when the run has told why it fails. -/
theorem answers_run {P : Json → Prop} (h : Answers P ((i.perform env : StateM σ _).run s).1) :
    IsDocument P ((i.run env : StateM σ _).run s).1.1.stdout
      ∨ ((i.run env : StateM σ _).run s).1.1.stdout = ""
        ∧ ((i.run env : StateM σ _).run s).1.2 ≠ .success := by
  rw [i.run_eq, i.stdout_conclude]
  obtain hdocument | ⟨hnothing, f, hfails⟩ := h
  · exact .inl hdocument
  · refine .inr ⟨hnothing, ?_⟩
    rw [conclude_of_error hfails]
    exact nofun

/-- A command whose project does not load fails, and leaves the output stream alone. -/
theorem answers_of_unloaded {failure : Failure} (hschemas : i.command.schemas? = some schemas)
    (hloads : ((i.loadProject env schemas.paths : StateM σ _).run s).1 = .error failure)
    (P : Json → Prop) : Answers P ((i.perform env : StateM σ _).run s).1 := by
  rw [i.perform_of_unloaded hschemas hloads]
  exact .inr ⟨rfl, failure, rfl⟩

/-- **A check writes what it prints, and then its document.** -/
theorem stdout_run_check {print : Bool} (hformat : i.format = .json)
    (hcommand : i.command = .parse schemas print)
    (hloads : ((i.loadProject env schemas.paths : StateM σ _).run s).1 = .ok (settings, files)) :
    ∃ text, ((i.run env : StateM σ _).run s).1.1.stdout = Checking.printed print files ++ text
      ∧ IsDocument (Json.AddsUp files) text := by
  have hjson : i.console.format = .json := hformat
  refine ⟨_, ?_, Checking.isDocument_summary hjson schemas.strict files⟩
  rw [i.run_eq, i.perform_parse hcommand hloads, i.stdout_conclude]
  exact Checking.stdout_report (by rw [hjson]; decide) print files

/-- **A generation answers with a document that accounts for the entities.** -/
theorem answers_generate {output : Option Path} {package : Option String} {keepGoing : Bool}
    (hformat : i.format = .json) (hcommand : i.command = .generate schemas output package keepGoing)
    (hloads : ((i.loadProject env schemas.paths : StateM σ _).run s).1 = .ok (settings, files)) :
    Answers (Json.Accounts (allEntities files)) ((i.perform env : StateM σ _).run s).1 := by
  rw [i.perform_generate hcommand hloads]
  exact Generation.answers_run hformat _ _ _ _ s

/-- Entities that are printed stand in front of the document, and the whole is none. -/
theorem not_machineReadable_of_printsEntities (hformat : i.format = .json)
    (hprints : i.PrintsEntities env s) :
    ¬ MachineReadable ((i.run env : StateM σ _).run s).1.1.stdout := by
  obtain ⟨schemas, settings, files, hcommand, hloads, hentities⟩ := hprints
  obtain ⟨text, hstdout, -⟩ := stdout_run_check hformat hcommand hloads
  obtain ⟨rest, hprinted⟩ := List.head?_eq_some_iff.mp (Checking.head?_printed hentities)
  rw [hstdout]
  refine not_machineReadable_of_head? ?_
  rw [String.toList_append, hprinted]
  rfl

/-- **Without them a command writes a document,** or fails and writes nothing. -/
theorem isDocument_of_not_printsEntities (hformat : i.format = .json)
    (hcommand : ∀ shell, i.command ≠ .completions shell) (hprints : ¬ i.PrintsEntities env s) :
    IsDocument (fun _ => True) ((i.run env : StateM σ _).run s).1.1.stdout
      ∨ ((i.run env : StateM σ _).run s).1.1.stdout = ""
        ∧ ((i.run env : StateM σ _).run s).1.2 ≠ .success := by
  cases hcase : i.command with
  | completions shell => exact absurd hcase (hcommand shell)
  | init name force =>
    refine answers_run ?_
    unfold perform
    rw [hcase]
    exact Project.answers_init hformat name force s
  | parse schemas print =>
    cases hloads : ((i.loadProject env schemas.paths : StateM σ _).run s).1 with
    | error failure => exact answers_run (answers_of_unloaded (by rw [hcase]; rfl) hloads _)
    | ok project =>
      obtain ⟨settings, files⟩ := project
      obtain ⟨text, hstdout, hdocument⟩ := stdout_run_check hformat hcase hloads
      have hnothing : Checking.printed print files = "" := by
        cases print with
        | false => rfl
        | true =>
          refine Checking.printed_of_nil ?_ true
          exact not_not.mp fun hne => hprints ⟨schemas, settings, files, hcase, hloads, hne⟩
      rw [hstdout, hnothing, String.empty_append]
      exact .inl hdocument.isDocument
  | generate schemas output package keepGoing =>
    cases hloads : ((i.loadProject env schemas.paths : StateM σ _).run s).1 with
    | error failure => exact answers_run (answers_of_unloaded (by rw [hcase]; rfl) hloads _)
    | ok project =>
      exact (answers_run (answers_generate hformat hcase hloads)).imp_left IsDocument.isDocument

end Invocation

omit [SteadyStore σ] in
/-- What a run of a command line writes to its output stream. -/
def stdoutOf (env : Environment) (words : List String) (s : σ) : String :=
  ((run env words : StateM σ _).run s).1.1.stdout

omit [SteadyStore σ] in
/-- How a run of a command line ends. -/
def endingOf (env : Environment) (words : List String) (s : σ) : Ending :=
  ((run env words : StateM σ _).run s).1.2

/-- **What a command writes in JSON** is nothing or one document, exactly if it does not print
entities, and it is not nothing if the command succeeds. A check whose project is loaded writes what
it prints and then a document with a result for each file and with the totals of the results. A
generation whose project is loaded writes a document that accounts for each entity, in order, or it
fails and writes nothing. -/
theorem run_json_stdout {words : List String} (hread : CommandLine.read env words = .ok i)
    (hformat : i.format = .json) (hcommand : ∀ shell, i.command ≠ .completions shell) :
    (MachineReadable (stdoutOf env words s) ↔ ¬ i.PrintsEntities env s)
      ∧ (endingOf env words s = .success → stdoutOf env words s ≠ "")
      ∧ (∀ (schemas : SchemaArgs) (print : Bool) (settings : Settings) (files : List SchemaFile),
        i.command = .parse schemas print →
        ((i.loadProject env schemas.paths : StateM σ _).run s).1 = .ok (settings, files) →
        ∃ text, stdoutOf env words s = Checking.printed print files ++ text
          ∧ IsDocument (Json.AddsUp files) text)
      ∧ ∀ (schemas : SchemaArgs) (output : Option Path) (package : Option String)
          (keepGoing : Bool) (settings : Settings) (files : List SchemaFile),
        i.command = .generate schemas output package keepGoing →
        ((i.loadProject env schemas.paths : StateM σ _).run s).1 = .ok (settings, files) →
        IsDocument (Json.Accounts (allEntities files)) (stdoutOf env words s)
          ∨ stdoutOf env words s = "" ∧ endingOf env words s ≠ .success := by
  unfold stdoutOf endingOf
  rw [run_of_read hread]
  refine ⟨⟨?_, ?_⟩, ?_, ?_, ?_⟩
  · intro hreadable hprints
    exact Invocation.not_machineReadable_of_printsEntities hformat hprints hreadable
  · intro hprints
    obtain hdocument | ⟨hnothing, -⟩ :=
      Invocation.isDocument_of_not_printsEntities hformat hcommand hprints
    · exact hdocument.machineReadable
    · exact .inl hnothing
  · intro hsuccess hnothing
    have hprints : ¬ i.PrintsEntities env s := by
      intro hprints
      exact Invocation.not_machineReadable_of_printsEntities hformat hprints (.inl hnothing)
    obtain hdocument | ⟨-, hfails⟩ :=
      Invocation.isDocument_of_not_printsEntities hformat hcommand hprints
    · exact hdocument.ne_empty hnothing
    · exact hfails hsuccess
  · intro schemas print settings files hparse hloads
    exact Invocation.stdout_run_check hformat hparse hloads
  · intro schemas output package keepGoing settings files hgenerate hloads
    exact Invocation.answers_run (Invocation.answers_generate hformat hgenerate hloads)

end Runs

/-- A check that prints nothing writes one document. -/
theorem run_json_stdout_check :
    MachineReadable
        (stdoutOf {} ["--format", "json", "parse", "a.dsl"] (Disk.withSchema "entity A \x7b"))
      ∧ ∃ text, stdoutOf {} ["--format", "json", "parse", "a.dsl"]
          (Disk.withSchema "entity A \x7b") = "" ++ text
        ∧ IsDocument (Json.AddsUp [⟨⟨"a.dsl"⟩, read "entity A \x7b"⟩]) text := by
  let i : Invocation := { command := .parse ⟨[⟨"a.dsl"⟩], false⟩ false, format := .json }
  have hread : CommandLine.read {} ["--format", "json", "parse", "a.dsl"] = .ok i := rfl
  obtain ⟨hreadable, -, hcheck, -⟩ :=
    run_json_stdout (s := Disk.withSchema "entity A \x7b") hread rfl nofun
  refine ⟨hreadable.mpr ?_, hcheck _ _ _ _ rfl (loadProject_withSchema i rfl _)⟩
  intro hprints
  obtain ⟨schemas, settings, files, hcommand, -, -⟩ := hprints
  exact nomatch hcommand

/-- A check that prints an entity does not. -/
theorem run_json_stdout_print :
    ¬ MachineReadable (stdoutOf {} ["--format", "json", "parse", "--print", "a.dsl"]
      (Disk.withSchema "entity A \x7b")) := by
  let i : Invocation := { command := .parse ⟨[⟨"a.dsl"⟩], false⟩ true, format := .json }
  have hread : CommandLine.read {} ["--format", "json", "parse", "--print", "a.dsl"] = .ok i := rfl
  have hnames : (parse "entity A \x7b").map Entity.name = ["A"] := by decide +kernel
  unfold stdoutOf
  rw [run_of_read hread]
  refine Invocation.not_machineReadable_of_printsEntities rfl
    ⟨_, _, _, rfl, loadProject_withSchema i rfl _, ?_⟩
  intro hnil
  have hparse : parse "entity A \x7b" ++ [] = [] := hnil
  rw [← List.append_nil (parse _), hparse] at hnames
  exact nomatch hnames

end EntitySchema
