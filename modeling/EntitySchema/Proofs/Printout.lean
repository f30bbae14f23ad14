import EntitySchema.Proofs.Joining
import EntitySchema.Proofs.PrintedSchema
import EntitySchema.Proofs.Strictness
import EntitySchema.Proofs.Writable

/-!
# The printed entities of several files

A check that prints writes the entities of each file, and nothing between two files. What it has
written is a schema again: the text of each file is complete and opens an entity, so the texts are
read one behind the other as each of them alone.
-/

namespace EntitySchema

/-! ## Printed texts, one behind the other -/

theorem Ended.append {as bs : List Char} (has : Ended as) (hbs : Ended bs) : Ended (as ++ bs) := by
  intro c hc
  rw [List.getLast?_append] at hc
  cases hlast : bs.getLast? with
  | none =>
    rw [hlast] at hc
    exact has c hc
  | some b =>
    rw [hlast] at hc
    exact hbs c (hlast.trans hc)

theorem ended_lineFeed (as : List Char) : Ended (as ++ ['\n']) := by
  intro c hc
  rw [List.getLast?_concat] at hc
  obtain rfl : '\n' = c := Option.some.inj hc
  rfl

/-- The text of an entity ends in a line feed. -/
theorem Entity.ended_print (e : Entity) : Ended e.print.toList := by
  have hlast (as bs : List Char) :
      as ++ '\n' :: (bs ++ ['\x7d', '\n']) = (as ++ '\n' :: (bs ++ ['\x7d'])) ++ ['\n'] := by simp
  rw [Entity.toList_print, hlast]
  exact ended_lineFeed _

/-- **A printed schema is complete.** -/
theorem ended_printAll (es : List Entity) : Ended (printAll es).toList := by
  induction es with
  | nil => exact nofun
  | cons e es ih =>
    cases es with
    | nil =>
      have hprint : printAll [e] = e.print := by simp [printAll]
      rw [hprint]
      exact e.ended_print
    | cons e' es =>
      have hprint : (printAll (e :: e' :: es)).toList
          = (e.print.toList ++ ['\n']) ++ (printAll (e' :: es)).toList := by
        simp [printAll]
      rw [hprint]
      exact (ended_lineFeed e.print.toList).append ih

/-- A text that starts with a printed entity opens an entity. -/
theorem opens_print_append {e : Entity} (h : e.Writable) (next : String) :
    Opens (e.print ++ next) := by
  intro l hl
  rw [shapes_eq_shapesOf, String.toList_append, shapesOf_print h,
    Entity.printedShapes_append] at hl
  obtain rfl : Line.header e.name.toList true = l := Option.some.inj hl
  rfl

/-- **A printed schema opens an entity**, or leaves that to the text behind it. -/
theorem opens_printAll_append {es : List Entity} (h : ∀ e ∈ es, e.Writable) {next : String}
    (hnext : Opens next) : Opens (printAll es ++ next) := by
  cases es with
  | nil => exact hnext
  | cons e es =>
    have he : e.Writable := h e List.mem_cons_self
    cases es with
    | nil =>
      have hprint : printAll [e] = e.print := by simp [printAll]
      rw [hprint]
      exact opens_print_append he next
    | cons e' es =>
      have hprint : printAll (e :: e' :: es) ++ next
          = e.print ++ ("\n" ++ printAll (e' :: es) ++ next) := by
        simp [printAll, String.append_assoc]
      rw [hprint]
      exact opens_print_append he _

/-- **Printed schemas, one behind the other, are read as each of them alone.** -/
theorem parse_join_printAll {schemas : List (List Entity)}
    (h : ∀ es ∈ schemas, ∀ e ∈ es, e.Writable) :
    parse (String.join (schemas.map printAll)) = schemas.flatMap fun es => parse (printAll es) := by
  -- what is behind a schema opens an entity, whatever schemas it is made of
  have hboth : Opens (String.join (schemas.map printAll))
      ∧ parse (String.join (schemas.map printAll))
        = schemas.flatMap fun es => parse (printAll es) := by
    induction schemas with
    | nil => exact ⟨nofun, rfl⟩
    | cons es schemas ih =>
      obtain ⟨hes, hschemas⟩ := List.forall_mem_cons.mp h
      obtain ⟨hopens, hparse⟩ := ih hschemas
      rw [List.map_cons, String.join_cons, List.flatMap_cons]
      refine ⟨opens_printAll_append hes hopens, ?_⟩
      rw [parse_append (ended_printAll es) hopens, hparse]
  exact hboth.2

/-! ## What a check writes -/

theorem Console.stdout_say (c : Console) (line : String) : (c.say line).stdout = "" := by
  unfold say
  split <;> rfl

theorem Console.stdout_failure (c : Console) (f : Failure) : (c.failure f).stdout = "" := by
  unfold failure
  cases c.format <;> rfl

theorem Console.stdout_findings (c : Console) (strict : Bool) (file : Path) (fs : List Finding) :
    (c.findings strict file fs).stdout = "" := by
  unfold findings
  split
  · rfl
  · cases c.format <;> rfl

namespace Checking

variable {c : Console} {strict : Bool}

/-- The entities of the files as a check prints them, if it does. -/
def printed (print : Bool) (files : List SchemaFile) : String :=
  if print then String.join ((files.map SchemaFile.entities).map printAll) else ""

/-- The report on a file leaves the output stream to the printed entities, unless it is one of
fields. -/
theorem stdout_reportFile (h : c.format ≠ .plain) (print : Bool) (f : SchemaFile) :
    (reportFile c strict print f).stdout = if print then printAll f.entities else "" := by
  have hprint : (if print then Output.out (printAll f.entities) else .none).stdout
      = if print then printAll f.entities else "" := by cases print <;> rfl
  unfold reportFile
  simp only [Output.stdout_append, Console.stdout_findings, hprint, String.empty_append]
  cases hformat : c.format with
  | plain => exact absurd hformat h
  | human => dsimp only; rw [c.stdout_say, String.append_empty]
  | json => exact String.append_empty

theorem stdout_summary (h : c.format = .human) (files : List SchemaFile) :
    (summary c strict files).stdout = "" := by
  unfold summary
  rw [h]
  dsimp only
  split
  · exact c.stdout_say _
  · exact c.stdout_say _

/-- **A check that prints writes the entities of each file**, file by file, before anything else. -/
theorem stdout_report (h : c.format ≠ .plain) (print : Bool) (files : List SchemaFile) :
    (report c strict print files).stdout
      = printed print files ++ (summary c strict files).stdout := by
  have hfiles : (Output.concat (files.map (reportFile c strict print))).stdout
      = printed print files := by
    unfold printed
    induction files with
    | nil => cases print <;> rfl
    | cons f files ih =>
      rw [List.map_cons, Output.concat_cons, Output.stdout_append, stdout_reportFile h, ih]
      cases print with
      | true => rw [if_pos rfl, if_pos rfl, if_pos rfl, List.map_cons, List.map_cons,
          String.join_cons]
      | false => rfl
  unfold report
  rw [Output.stdout_append, hfiles]

end Checking

/-- Why a command fails is told on the error stream. -/
theorem Invocation.stdout_conclude (i : Invocation) (done : Output × Except Failure Unit) :
    (i.conclude done).1.stdout = done.1.stdout := by
  obtain ⟨output, verdict⟩ := done
  cases verdict with
  | ok u => rfl
  | error f =>
    show (output ++ i.console.failure f).stdout = _
    rw [Output.stdout_append, Console.stdout_failure, String.append_empty]

/-! ## The files that are loaded -/

namespace SchemaFile

variable {σ : Type} [FileStore (StateM σ)]

/-- The files that paths stand for are loaded in the order in which they are discovered. -/
theorem loadFrom_discovered [SteadyStore σ] {paths : List Path} {files : List SchemaFile} {s : σ}
    (h : ((loadFrom paths : StateM σ _).run s).1 = .ok files) :
    ((discover paths : StateM σ _).run s).1 = .ok (files.map SchemaFile.path)
      ∧ ∀ f ∈ files, ∃ text, f.schema = EntitySchema.read text := by
  cases hdiscover : ((discover paths : StateM σ _).run s).1 with
  | error failure =>
    unfold loadFrom at h
    rw [(keeps_discover paths).run_bind, hdiscover] at h
    exact nomatch h
  | ok found =>
    rw [loadFrom_of_discover hdiscover, loadAll_eq_ok_iff] at h
    clear hdiscover
    induction h with
    | nil => exact ⟨rfl, nofun⟩
    | cons hfile _ ih =>
      obtain ⟨text, -, rfl⟩ := load_eq_ok_iff.mp hfile
      obtain ⟨hpaths, hreads⟩ := ih
      exact ⟨by rw [List.map_cons, ← Except.ok.inj hpaths],
        List.forall_mem_cons.mpr ⟨⟨text, rfl⟩, hreads⟩⟩

/-- The entities of a file that was read can be printed. -/
theorem writable_of_read {f : SchemaFile} (h : ∃ text, f.schema = EntitySchema.read text) :
    ∀ e ∈ f.entities, e.Writable := by
  obtain ⟨text, htext⟩ := h
  intro e he
  have hmem : e ∈ parse text := by
    unfold entities at he
    rwa [htext] at he
  exact writable_of_mem_parse hmem

end SchemaFile

section Runs

variable {σ : Type} [FileStore (StateM σ)] [SteadyStore σ] {env : Environment} {s : σ}

/-- What a check that prints writes for people: the printed entities of each file. -/
theorem Invocation.stdout_run_parse {i : Invocation} {schemas : SchemaArgs} {settings : Settings}
    {files : List SchemaFile} (hcommand : i.command = .parse schemas true)
    (hformat : i.format = .human)
    (hloads : ((i.loadProject env schemas.paths : StateM σ _).run s).1 = .ok (settings, files)) :
    ((i.run env : StateM σ _).run s).1.1.stdout
      = String.join ((files.map SchemaFile.entities).map printAll) := by
  have hhuman : i.console.format = .human := hformat
  have hreport : (Checking.report i.console schemas.strict true files).stdout
      = String.join ((files.map SchemaFile.entities).map printAll) := by
    rw [Checking.stdout_report (by rw [hhuman]; decide), Checking.stdout_summary hhuman,
      String.append_empty]
    rfl
  rw [i.run_eq, i.perform_parse hcommand hloads, i.stdout_conclude]
  exact hreport

/-- **A text behind a complete line that opens an entity is read as if it stood alone.** The
entities are those of the two texts, one after the other. So are the findings, those of the second
text further down, if what is said about names that are taken is left out. So what a check prints
for people is a schema with the entities that each file is printed with, file by file in the order
in which they are discovered. -/
theorem parse_lint_append_at_header :
    (∀ source next : String, Ended source.toList → Opens next →
      parse (source ++ next) = parse source ++ parse next
      ∧ (lint (source ++ next)).filter Finding.isLocal
        = (lint source ++ (lint next).map
            (Finding.mapSpan (Span.shift source.utf8ByteSize))).filter Finding.isLocal)
    ∧ ∀ (words : List String) (i : Invocation) (schemas : SchemaArgs) (settings : Settings)
        (files : List SchemaFile),
      CommandLine.read env words = .ok i → i.command = .parse schemas true → i.format = .human →
      ((i.loadProject env schemas.paths : StateM σ _).run s).1 = .ok (settings, files) →
      ((discover (settings.schemaPaths schemas.paths) : StateM σ _).run s).1
          = .ok (files.map SchemaFile.path)
      ∧ parse ((run env words : StateM σ _).run s).1.1.stdout
        = files.flatMap fun f => parse (printAll f.entities) := by
  refine ⟨fun source next hended hopens =>
    ⟨parse_append hended hopens, filter_isLocal_lint_append hended hopens⟩, ?_⟩
  intro words i schemas settings files hread hcommand hformat hloads
  have hfiles := (Invocation.loadProject_eq_ok_iff.mp hloads).2
  obtain ⟨hdiscovered, hreads⟩ := SchemaFile.loadFrom_discovered hfiles
  refine ⟨hdiscovered, ?_⟩
  have hwritable : ∀ es ∈ files.map SchemaFile.entities, ∀ e ∈ es, e.Writable := by
    intro es hes
    obtain ⟨f, hf, rfl⟩ := List.mem_map.mp hes
    exact SchemaFile.writable_of_read (hreads f hf)
  rw [run_of_read hread, i.stdout_run_parse hcommand hformat hloads,
    parse_join_printAll hwritable, List.flatMap_map]

end Runs

/-- A carriage return at the end of one text and a line feed at the start of the next, and the check
of one file. -/
theorem parse_lint_append_at_header_seam :
    parse ("entity A \x7b\r" ++ "\n# B\nentity B")
      = parse "entity A \x7b\r" ++ parse "\n# B\nentity B"
    ∧ parse ((run {} ["parse", "--print", "a.dsl"] : StateM Disk _).run
        (.withSchema "entity A")).1.1.stdout
      = parse (printAll (parse "entity A")) ++ [] := by
  let i : Invocation := { command := .parse ⟨[⟨"a.dsl"⟩], false⟩ true }
  have hread : CommandLine.read {} ["parse", "--print", "a.dsl"] = .ok i := rfl
  have hended : Ended "entity A \x7b\r".toList := fun c hc => by
    obtain rfl : '\r' = c := Option.some.inj ((by decide : _ = some '\r').symm.trans hc)
    rfl
  have hopens : Opens "\n# B\nentity B" := fun l hl => by
    obtain rfl : Line.header ['B'] false = l :=
      Option.some.inj ((by decide +kernel : _ = some (Line.header ['B'] false)).symm.trans hl)
    rfl
  have hjoins := @parse_lint_append_at_header Disk _ _ {} (.withSchema "entity A")
  exact ⟨(hjoins.1 _ _ hended hopens).1,
    (hjoins.2 _ i _ _ _ hread rfl rfl (loadProject_withSchema i rfl _)).2⟩

end EntitySchema
