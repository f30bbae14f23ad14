import EntitySchema.Proofs.Scan

/-!
# What one line does

`Scan.feed` does two things with a line: it says what is to say about it, and it takes the line
into the state. Here the two are apart. `Scan.issues` is what is said, `Scan.advance` is the state
that the shape of the line leads to, and `feed_eq` puts them together again. Everything later
follows the pass over a text through these two and never opens `Scan.feed`.
-/

namespace EntitySchema

/-- What the line is. -/
def SourceLine.shape (l : SourceLine) : Line := Line.classify l.text

/-- What the lines of a schema text are, in order. -/
def shapes (source : String) : List Line := (lines source.toList).map SourceLine.shape

/-- A field adds its name to those of the entity. -/
theorem Entity.fieldNames_addField (e : Entity) (f : Field) :
    (e.addField f).fieldNames = e.fieldNames ++ [f.name] := by
  simp [Entity.addField, Entity.fieldNames]

/-- The names of fields are kept, except for the empty one. -/
theorem OpenEntity.mem_fieldNames_addField {o : OpenEntity} {f : Field} {n : String} :
    n ∈ (o.addField f).fieldNames ↔ n ∈ o.fieldNames ∨ n ≠ "" ∧ n = f.name := by
  unfold OpenEntity.addField
  by_cases h : f.name = ""
  · rw [if_pos (String.isEmpty_iff.mpr h), h]
    exact ⟨Or.inl, fun hn => hn.resolve_right fun ⟨hne, he⟩ => hne he⟩
  · rw [if_neg fun he => h (String.isEmpty_iff.mp he), List.mem_cons]
    constructor
    · intro hn
      rcases hn with rfl | hn
      · exact Or.inr ⟨h, rfl⟩
      · exact Or.inl hn
    · intro hn
      rcases hn with hn | ⟨-, rfl⟩
      · exact Or.inr hn
      · exact Or.inl rfl

namespace Scan

/-- What is to say about a line with this text and shape. -/
def issues (s : Scan) (text : String) : Line → List Issue
  | .blank => []
  | .comment => []
  | .header name hasBrace => s.headerIssues (String.ofList name) hasBrace
  | .close =>
    match s.current with
    | some _ => []
    | none => [.unrecognizedLine text]
  | .field f =>
    match s.current with
    | some o => o.issues f.toField
    | none => [.fieldOutsideEntity text]
  | .other =>
    match s.current with
    | some o => [.missingSeparator o.entity.name text]
    | none => [.unrecognizedLine text]

/-- The state after a line of this shape, without what is said about the line. -/
def advance (s : Scan) : Line → Scan
  | .blank => s
  | .comment => s
  | .header name _ => s.openEntity (String.ofList name)
  | .close => { s with current := s.current.map OpenEntity.close }
  | .field f => { s with current := s.current.map fun o => o.addField f.toField }
  | .other => s

/-! ## The state after a step -/

@[simp] theorem report_finished (s : Scan) (span : Span) (is : List Issue) :
    (s.report span is).finished = s.finished := rfl

@[simp] theorem report_current (s : Scan) (span : Span) (is : List Issue) :
    (s.report span is).current = s.current := rfl

@[simp] theorem report_entityNames (s : Scan) (span : Span) (is : List Issue) :
    (s.report span is).entityNames = s.entityNames := rfl

@[simp] theorem report_findings (s : Scan) (span : Span) (is : List Issue) :
    (s.report span is).findings = s.findings ++ is.map fun issue => ⟨issue, span⟩ := rfl

@[simp] theorem report_entities (s : Scan) (span : Span) (is : List Issue) :
    (s.report span is).entities = s.entities := rfl

theorem report_nil (s : Scan) (span : Span) : s.report span [] = s := by
  unfold report
  rw [List.map_nil, List.append_nil]

/-- Taking a line into the state says nothing. -/
@[simp] theorem advance_findings (s : Scan) (l : Line) : (s.advance l).findings = s.findings := by
  cases l <;> rfl

/-- A header adds an entity without fields. -/
theorem advance_header_entities (s : Scan) (name : List Char) (hasBrace : Bool) :
    (s.advance (.header name hasBrace)).entities = s.entities ++ [⟨String.ofList name, []⟩] := rfl

/-- A closing brace adds nothing. -/
theorem advance_close_entities (s : Scan) : (s.advance .close).entities = s.entities := by
  unfold advance entities
  cases s.current <;> rfl

/-- A field goes to the last entity. -/
theorem advance_field_entities {s : Scan} {o : OpenEntity} (hc : s.current = some o)
    (f : FieldLine) :
    (s.advance (.field f)).entities = s.finished ++ [o.entity.addField f.toField] := by
  unfold advance entities
  rw [hc]
  rfl

/-- A field before the first header is not read. -/
theorem advance_field_of_none {s : Scan} (hc : s.current = none) (f : FieldLine) :
    s.advance (.field f) = s := by
  obtain ⟨finished, current, entityNames, findings⟩ := s
  obtain rfl : current = none := hc
  rfl

/-- The open entity is the last one. -/
theorem entities_of_current {s : Scan} {o : OpenEntity} (hc : s.current = some o) :
    s.entities = s.finished ++ [o.entity] := by
  unfold entities
  rw [hc]
  rfl

/-- A field adds no name of an entity. -/
theorem advance_field_names (s : Scan) (f : FieldLine) :
    (s.advance (.field f)).entities.map Entity.name = s.entities.map Entity.name := by
  cases hc : s.current with
  | none => rw [advance_field_of_none hc]
  | some o =>
      rw [advance_field_entities hc, entities_of_current hc, List.map_append, List.map_append]
      rfl

/-- **A step takes the line into the state and says what is to say about it.** -/
theorem feed_eq (s : Scan) (l : SourceLine) :
    s.feed l = (s.advance l.shape).report l.span (s.issues (String.ofList l.text) l.shape) := by
  unfold feed SourceLine.shape
  cases Line.classify l.text with
  | blank => exact (report_nil s l.span).symm
  | comment => exact (report_nil s l.span).symm
  | header name hasBrace => rfl
  | close =>
      cases hc : s.current with
      | none => simp [advance, issues, report, hc]
      | some o => simp [advance, issues, report, hc]
  | field f =>
      cases hc : s.current with
      | none => simp [advance, issues, report, hc]
      | some o => simp [advance, issues, report, hc]
  | other =>
      cases hc : s.current with
      | none => simp [advance, issues, report, hc]
      | some o => simp [advance, issues, report, hc]

theorem feed_findings (s : Scan) (l : SourceLine) :
    (s.feed l).findings
      = s.findings
        ++ (s.issues (String.ofList l.text) l.shape).map fun issue => ⟨issue, l.span⟩ := by
  rw [feed_eq, report_findings, advance_findings]

end Scan

end EntitySchema
