import EntitySchema.Reading

/-!
# The state of the reader, told by entities

A `Scan` is what a `Parser` comes to: the entities that are finished, and the one that receives
fields together with all that is known of it. So there is no position that could point past the
entities, and no note on an entity that is not there. The two take a line in the same way
(`Parser.Scans.feed`), so a text can be read with either (`read_eq`).
-/

namespace EntitySchema

/-- The entity that receives fields: what it holds so far, whether its closing brace has been
seen, and the names that its fields have used. -/
structure OpenEntity where
  entity : Entity
  closed : Bool
  fieldNames : List String
  deriving DecidableEq, Repr

namespace OpenEntity

/-- An entity of which only the header has been read. -/
def ofName (name : String) : OpenEntity := ⟨⟨name, []⟩, false, []⟩

/-- The entity with one more field. -/
def addField (o : OpenEntity) (f : Field) : OpenEntity where
  entity := o.entity.addField f
  closed := o.closed
  fieldNames := if f.name.isEmpty then o.fieldNames else f.name :: o.fieldNames

/-- The entity after its closing brace. -/
def close (o : OpenEntity) : OpenEntity := { o with closed := true }

/-- What is to say about one more field of the entity. -/
def issues (o : OpenEntity) (f : Field) : List Issue :=
  let entity := o.entity.name
  (if o.closed then [.fieldAfterClose entity f.name] else [])
    ++ (if f.name.isEmpty then [.emptyFieldName entity]
        else if o.fieldNames.contains f.name then [.duplicateFieldName entity f.name]
        else [])
    ++ (if f.typeName.isEmpty then [.emptyFieldType entity f.name] else [])
    ++ (if f.annotations.any Annotation.isEmpty then [.bareAnnotationSign f.name] else [])

end OpenEntity

/-- How far the reading of a schema has come. The entity that receives fields stays open up to the
next header: its closing brace is noted and does not end it. -/
structure Scan where
  finished : List Entity
  current : Option OpenEntity
  entityNames : List String
  findings : List Finding
  deriving DecidableEq, Repr

namespace Scan

/-- Nothing has been read. -/
def start : Scan := ⟨[], none, [], []⟩

/-- All entities read so far, in order. -/
def entities (s : Scan) : List Entity :=
  s.finished ++ (s.current.map OpenEntity.entity).toList

/-- The state with more findings, all of them about the line at `span`. -/
def report (s : Scan) (span : Span) (issues : List Issue) : Scan :=
  { s with findings := s.findings ++ issues.map fun issue => ⟨issue, span⟩ }

/-- What is to say about a header. -/
def headerIssues (s : Scan) (name : String) (hasBrace : Bool) : List Issue :=
  (if name.isEmpty then [.emptyEntityName] else [])
    ++ (if hasBrace then [] else [.missingOpenBrace name])
    ++ (if s.entityNames.contains name then [.duplicateEntityName name] else [])

/-- The state after an entity header with this name. -/
def openEntity (s : Scan) (name : String) : Scan where
  finished := s.entities
  current := some (.ofName name)
  entityNames := name :: s.entityNames
  findings := s.findings

/-- The state after one line of the schema. -/
def feed (s : Scan) (line : SourceLine) : Scan :=
  match Line.classify line.text with
  | .blank => s
  | .comment => s
  | .header name hasBrace =>
    let name := String.ofList name
    (s.report line.span (s.headerIssues name hasBrace)).openEntity name
  | .close =>
    match s.current with
    | some o => { s with current := some o.close }
    | none => s.report line.span [.unrecognizedLine (String.ofList line.text)]
  | .field f =>
    match s.current with
    | some o =>
      let field := f.toField
      { s.report line.span (o.issues field) with current := some (o.addField field) }
    | none => s.report line.span [.fieldOutsideEntity (String.ofList line.text)]
  | .other =>
    let text := String.ofList line.text
    match s.current with
    | some o => s.report line.span [.missingSeparator o.entity.name text]
    | none => s.report line.span [.unrecognizedLine text]

/-- The state after several lines. -/
def feedAll (s : Scan) (ls : List SourceLine) : Scan := ls.foldl feed s

@[simp] theorem feedAll_nil (s : Scan) : s.feedAll [] = s := rfl

@[simp] theorem feedAll_cons (s : Scan) (l : SourceLine) (ls : List SourceLine) :
    s.feedAll (l :: ls) = (s.feed l).feedAll ls := rfl

theorem feedAll_append (s : Scan) (as bs : List SourceLine) :
    s.feedAll (as ++ bs) = (s.feedAll as).feedAll bs := by
  simp [feedAll]

/-- What has been read, taken as a whole. -/
def finish (s : Scan) : Schema := ⟨s.entities, s.findings⟩

end Scan

/-! ## The parser and its scan -/

namespace Parser

/-- The stored state comes to this one. The position is that behind the finished entities, and what
is noted beside it is about the entity there. -/
structure Scans (p : Parser) (s : Scan) : Prop where
  entities : p.entities = s.entities
  current : p.current = s.current.map fun _ => s.finished.length
  closed : p.closed = s.current.any OpenEntity.closed
  entityNames : ∀ n, n ∈ p.entityNames ↔ n ∈ s.entityNames
  fieldNames : ∀ n, n ∈ p.fieldNames ↔ ∃ o, s.current = some o ∧ n ∈ o.fieldNames
  findings : p.findings = s.findings

variable {p : Parser} {s : Scan}

/-! ### Findings -/

/-- A finding, if there is a reason for it. -/
def findingIf (reason : Bool) (span : Span) (issue : Issue) : List Finding :=
  if reason then [⟨issue, span⟩] else []

theorem reportIf_eq (p : Parser) (reason : Bool) (span : Span) (issue : Issue) :
    p.reportIf reason span issue
      = { p with findings := p.findings ++ findingIf reason span issue } := by
  cases reason <;> simp [reportIf, report, findingIf]

theorem takeEntityName_eq (p : Parser) (name : String) (span : Span) :
    p.takeEntityName name span
      = { p with
          entityNames := p.entityNames.insert name
          findings := p.findings
            ++ findingIf (p.entityNames.contains name) span (.duplicateEntityName name) } := by
  unfold takeEntityName findingIf report List.insert
  cases p.entityNames.contains name <;> simp

/-- The findings about the name of a field. -/
def nameFindings (p : Parser) (entity name : String) (span : Span) : List Finding :=
  findingIf name.isEmpty span (.emptyFieldName entity)
    ++ findingIf (!name.isEmpty && p.fieldNames.contains name) span (.duplicateFieldName entity name)

theorem takeFieldName_eq (p : Parser) (entity name : String) (span : Span) :
    p.takeFieldName entity name span
      = { p with
          fieldNames := if name.isEmpty then p.fieldNames else p.fieldNames.insert name
          findings := p.findings ++ p.nameFindings entity name span } := by
  unfold takeFieldName nameFindings findingIf report List.insert
  cases name.isEmpty <;> cases p.fieldNames.contains name <;> simp

theorem Scans.report (h : p.Scans s) (span : Span) (issue : Issue) :
    (p.report span issue).Scans (s.report span [issue]) where
  entities := h.entities
  current := h.current
  closed := h.closed
  entityNames := h.entityNames
  fieldNames := h.fieldNames
  findings := congrArg (· ++ _) h.findings

/-! ### Lines -/

theorem scans_new : new.Scans .start where
  entities := rfl
  current := rfl
  closed := rfl
  entityNames := fun _ => Iff.rfl
  fieldNames := by simp [new, Scan.start]
  findings := rfl

/-- A header begins an entity. -/
theorem Scans.startEntity (h : p.Scans s) (name : String) (hasBrace : Bool) (span : Span) :
    (p.startEntity name hasBrace span).Scans
      ((s.report span (s.headerIssues name hasBrace)).openEntity name) := by
  have htaken : p.entityNames.contains name = s.entityNames.contains name := by
    rw [Bool.eq_iff_iff, List.contains_iff_mem, List.contains_iff_mem, h.entityNames]
  unfold Parser.startEntity
  simp only [reportIf_eq, takeEntityName_eq]
  refine ⟨?entities, ?current, rfl, ?entityNames, ?fieldNames, ?findings⟩
  case entities => exact congrArg (· ++ [⟨name, []⟩]) h.entities
  case current => exact congrArg (fun es => some es.length) h.entities
  case entityNames =>
    intro n
    show n ∈ p.entityNames.insert name ↔ n ∈ name :: s.entityNames
    rw [List.mem_insert_iff, List.mem_cons, h.entityNames]
  case fieldNames => simp [Scan.openEntity, OpenEntity.ofName]
  case findings =>
    show _ = s.findings ++ (s.headerIssues name hasBrace).map fun issue => ⟨issue, span⟩
    rw [htaken, h.findings]
    unfold Scan.headerIssues findingIf
    cases name.isEmpty <;> cases hasBrace <;> cases s.entityNames.contains name <;> simp

/-- The position of a parser is that of the entity which its scan has open. -/
theorem Scans.getElem?_entities {o : OpenEntity} (h : p.Scans s) (hc : s.current = some o) :
    p.entities[s.finished.length]? = some o.entity := by
  rw [h.entities]
  unfold Scan.entities
  rw [hc]
  exact List.getElem?_concat_length

theorem Scans.nameAt {o : OpenEntity} (h : p.Scans s) (hc : s.current = some o) :
    p.nameAt s.finished.length = o.entity.name := by
  unfold Parser.nameAt
  rw [h.getElem?_entities hc]
  rfl

/-- A field is added to the open entity, if there is one. -/
theorem Scans.addField {o : OpenEntity} (h : p.Scans s) (hc : s.current = some o) (f : Field)
    (text : String) (span : Span) :
    (p.addField f text span).Scans
      { s.report span (o.issues f) with current := some (o.addField f) } := by
  have hcurrent : p.current = some s.finished.length := by rw [h.current, hc]; rfl
  have hclosed : p.closed = o.closed := by rw [h.closed, hc]; rfl
  have hnames : ∀ n, n ∈ p.fieldNames ↔ n ∈ o.fieldNames := by
    intro n
    rw [h.fieldNames, hc]
    simp
  have htaken : p.fieldNames.contains f.name = o.fieldNames.contains f.name := by
    rw [Bool.eq_iff_iff, List.contains_iff_mem, List.contains_iff_mem, hnames]
  unfold Parser.addField
  simp only [hcurrent, reportIf_eq, takeFieldName_eq, h.nameAt hc]
  refine ⟨?entities, ?current, ?closed, h.entityNames, ?fieldNames, ?findings⟩
  case entities =>
    have hentities : p.entities = s.finished ++ [o.entity] := by
      rw [h.entities]
      unfold Scan.entities
      rw [hc]
      rfl
    show p.entities.modify s.finished.length _ = s.finished ++ [o.entity.addField f]
    rw [hentities, List.modify_eq_take_cons_drop (by simp)]
    simp
  case current => rfl
  case closed => exact hclosed
  case fieldNames =>
    intro n
    show n ∈ (if f.name.isEmpty then p.fieldNames else p.fieldNames.insert f.name)
      ↔ ∃ o', some (o.addField f) = some o' ∧ n ∈ o'.fieldNames
    simp only [Option.some.injEq, exists_eq_left']
    unfold OpenEntity.addField
    cases f.name.isEmpty with
    | true => exact hnames n
    | false =>
      show n ∈ p.fieldNames.insert f.name ↔ n ∈ f.name :: o.fieldNames
      rw [List.mem_insert_iff, List.mem_cons, hnames]
  case findings =>
    show _ = s.findings ++ (o.issues f).map fun issue => ⟨issue, span⟩
    rw [hclosed, h.findings]
    unfold nameFindings OpenEntity.issues findingIf
    rw [htaken]
    cases o.closed <;> cases f.name.isEmpty <;> cases o.fieldNames.contains f.name
      <;> cases f.typeName.isEmpty <;> cases f.annotations.any Annotation.isEmpty <;> simp

/-- **A line is taken in the same way.** -/
theorem Scans.feed (h : p.Scans s) (l : SourceLine) : (p.feed l).Scans (s.feed l) := by
  unfold Parser.feed Scan.feed
  cases Line.classify l.text with
  | blank => exact h
  | comment => exact h
  | header name hasBrace => exact h.startEntity _ hasBrace l.span
  | close =>
    cases hc : s.current with
    | none =>
      have hcurrent : p.current = none := by rw [h.current, hc]; rfl
      simp only [hcurrent]
      exact h.report l.span _
    | some o =>
      have hcurrent : p.current = some s.finished.length := by rw [h.current, hc]; rfl
      simp only [hcurrent, Option.isSome_some, if_true]
      refine ⟨?_, rfl, rfl, h.entityNames, ?_, h.findings⟩
      · rw [h.entities]
        unfold Scan.entities
        rw [hc]
        rfl
      · intro n
        rw [h.fieldNames, hc]
        simp [OpenEntity.close]
  | field f =>
    cases hc : s.current with
    | none =>
      have hcurrent : p.current = none := by rw [h.current, hc]; rfl
      simp only [Parser.addField, hcurrent]
      exact h.report l.span _
    | some o => exact h.addField hc f.toField _ l.span
  | other =>
    cases hc : s.current with
    | none =>
      have hcurrent : p.current = none := by rw [h.current, hc]; rfl
      simp only [hcurrent]
      exact h.report l.span _
    | some o =>
      have hcurrent : p.current = some s.finished.length := by rw [h.current, hc]; rfl
      simp only [hcurrent, h.nameAt hc]
      exact h.report l.span _

/-- **So is every sequence of lines.** -/
theorem Scans.feedAll (h : p.Scans s) (ls : List SourceLine) :
    (p.feedAll ls).Scans (s.feedAll ls) := by
  induction ls generalizing p s with
  | nil => exact h
  | cons l ls ih => exact ih (h.feed l)

theorem Scans.finish (h : p.Scans s) : p.finish = s.finish := by
  unfold Parser.finish Scan.finish
  rw [h.entities, h.findings]

end Parser

/-! ## Texts -/

/-- A text is read with a scan as well. -/
theorem read_eq (source : String) :
    read source = (Scan.start.feedAll (lines source.toList)).finish :=
  (Parser.scans_new.feedAll _).finish

theorem parse_eq (source : String) :
    parse source = (Scan.start.feedAll (lines source.toList)).entities :=
  congrArg Schema.entities (read_eq source)

theorem lint_eq (source : String) :
    lint source = (Scan.start.feedAll (lines source.toList)).findings :=
  congrArg Schema.findings (read_eq source)

end EntitySchema
