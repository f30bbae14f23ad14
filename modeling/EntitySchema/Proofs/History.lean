import Mathlib.Data.List.DropRight
import EntitySchema.Proofs.Segments
import EntitySchema.Proofs.State

/-!
# What is found at a line, from the lines before it

The reader keeps names and a closing flag to know what to say about the next line. None of this is
needed to say what it *should* say: that depends on the lines read before, and on nothing else.
`findingsAfter` is this rule, and it looks only at the latest header and at the lines since.

`Tracks` ties the two together. It says that what has been read is what the lines before declare;
every step keeps it (`tracks_step`). The names that the reader keeps are those of what it has read
(`Scan.Consistent`), so under both the reader says what the rule says (`issues_of_tracks`).
-/

namespace EntitySchema

/-! ## The lines before -/

/-- The name in the latest header. -/
def latestHeader? (before : List Line) : Option String :=
  (before.filterMap Line.headerName?).getLast?

/-- The lines after the latest header. -/
def sinceHeader (before : List Line) : List Line := before.rtakeWhile fun l => !l.isHeader

/-- The names of the fields that the lines declare. -/
def fieldNamesIn (ls : List Line) : List String := (ls.filterMap Line.field?).map Field.name

/-- What is to say about a header after these lines. -/
def headerIssuesAfter (before : List Line) (name : String) (hasBrace : Bool) : List Issue :=
  (if name = "" then [.emptyEntityName] else [])
    ++ (if hasBrace = true then [] else [.missingOpenBrace name])
    ++ (if name ∈ before.filterMap Line.headerName? then [.duplicateEntityName name] else [])

/-- What is to say about a field of this entity with these lines between the header and it. -/
def fieldIssuesAfter (entity : String) (since : List Line) (f : FieldLine) : List Issue :=
  let name := String.ofList f.name
  (if Line.close ∈ since then [.fieldAfterClose entity name] else [])
    ++ (if name = "" then [.emptyFieldName entity]
        else if name ∈ fieldNamesIn since then [.duplicateFieldName entity name]
        else [])
    ++ (if f.typeName = [] then [.emptyFieldType entity name] else [])
    ++ (if [] ∈ f.annotations then [.bareAnnotationSign name] else [])

/-- What is to say about a line with this text and shape after these lines. -/
def issuesAfter (before : List Line) (text : String) : Line → List Issue
  | .blank => []
  | .comment => []
  | .header name hasBrace => headerIssuesAfter before (String.ofList name) hasBrace
  | .close => if latestHeader? before = none then [.unrecognizedLine text] else []
  | .field f =>
    match latestHeader? before with
    | none => [.fieldOutsideEntity text]
    | some entity => fieldIssuesAfter entity (sinceHeader before) f
  | .other =>
    match latestHeader? before with
    | none => [.unrecognizedLine text]
    | some entity => [.missingSeparator entity text]

/-- The findings about a line after these lines; they all stand at the line. -/
def findingsAfter (before : List SourceLine) (line : SourceLine) : List Finding :=
  (issuesAfter (before.map SourceLine.shape) (String.ofList line.text) line.shape).map
    fun issue => ⟨issue, line.span⟩

/-! ## One more line before -/

theorem sinceHeader_header (before : List Line) (name : List Char) (hasBrace : Bool) :
    sinceHeader (before ++ [.header name hasBrace]) = [] :=
  List.rtakeWhile_concat_neg _ _ _ (by simp [Line.isHeader, Line.headerName?])

theorem sinceHeader_of_not_header (before : List Line) {l : Line} (h : l.headerName? = none) :
    sinceHeader (before ++ [l]) = sinceHeader before ++ [l] :=
  List.rtakeWhile_concat_pos _ _ _ (by simp [Line.isHeader, h])

theorem headerNames_of_not_header (before : List Line) {l : Line} (h : l.headerName? = none) :
    (before ++ [l]).filterMap Line.headerName? = before.filterMap Line.headerName? := by
  simp [h]

theorem fieldNamesIn_of_not_field (before : List Line) {l : Line} (h : l.field? = none) :
    fieldNamesIn (before ++ [l]) = fieldNamesIn before := by
  simp [fieldNamesIn, h]

theorem fieldNamesIn_field (before : List Line) (f : FieldLine) :
    fieldNamesIn (before ++ [.field f]) = fieldNamesIn before ++ [f.toField.name] := by
  simp [fieldNamesIn, Line.field?_field]

/-! ## The state of the reader -/

namespace Scan

/-- What has been read is what the lines before declare. -/
structure Tracks (before : List Line) (s : Scan) : Prop where
  /-- There is an entity for each header. -/
  entityNames : s.entities.map Entity.name = before.filterMap Line.headerName?
  /-- The open entity is closed once a closing brace has followed its header. -/
  closed : ∀ o, s.current = some o → (o.closed = true ↔ Line.close ∈ sinceHeader before)
  /-- The open entity has a field for each field line since its header. -/
  fieldNames : ∀ o, s.current = some o → o.entity.fieldNames = fieldNamesIn (sinceHeader before)

theorem tracks_start : Tracks [] start where
  entityNames := rfl
  closed := by intro o h; simp [start] at h
  fieldNames := by intro o h; simp [start] at h

variable {before : List Line} {s : Scan}

/-- The open entity is that of the latest header. -/
theorem Tracks.latest (h : Tracks before s) (hs : Consistent s) :
    latestHeader? before = s.current.map fun o => o.entity.name := by
  unfold latestHeader?
  rw [← h.entityNames]
  cases hc : s.current with
  | none =>
      have hnone : s.entities = [] := by unfold entities; rw [hs.started hc, hc]; rfl
      rw [hnone]
      rfl
  | some o =>
      rw [entities_of_current hc, List.map_append]
      exact List.getLast?_concat

theorem tracks_header (h : Tracks before s) (name : List Char) (hasBrace : Bool) :
    Tracks (before ++ [.header name hasBrace]) (s.advance (.header name hasBrace)) where
  entityNames := by
    rw [advance_header_entities, List.map_append, h.entityNames, List.filterMap_append]
    rfl
  closed := by
    intro o ho
    obtain rfl : OpenEntity.ofName (String.ofList name) = o := Option.some.inj ho
    rw [sinceHeader_header]
    simp [OpenEntity.ofName]
  fieldNames := by
    intro o ho
    obtain rfl : OpenEntity.ofName (String.ofList name) = o := Option.some.inj ho
    rw [sinceHeader_header]
    rfl

theorem tracks_close (h : Tracks before s) :
    Tracks (before ++ [.close]) (s.advance .close) where
  entityNames := by
    rw [advance_close_entities, headerNames_of_not_header before rfl]
    exact h.entityNames
  closed := by
    intro o ho
    obtain ⟨o', _, rfl⟩ := Option.map_eq_some_iff.mp ho
    rw [sinceHeader_of_not_header before rfl]
    simp [OpenEntity.close]
  fieldNames := by
    intro o ho
    obtain ⟨o', ho', rfl⟩ := Option.map_eq_some_iff.mp ho
    rw [sinceHeader_of_not_header before rfl, fieldNamesIn_of_not_field _ rfl]
    exact h.fieldNames o' ho'

theorem tracks_field (h : Tracks before s) (f : FieldLine) :
    Tracks (before ++ [.field f]) (s.advance (.field f)) where
  entityNames := by
    rw [advance_field_names, headerNames_of_not_header before rfl]
    exact h.entityNames
  closed := by
    intro o ho
    obtain ⟨o', ho', rfl⟩ := Option.map_eq_some_iff.mp ho
    have hc := h.closed o' ho'
    rw [sinceHeader_of_not_header before rfl]
    simpa [OpenEntity.addField] using hc
  fieldNames := by
    intro o ho
    obtain ⟨o', ho', rfl⟩ := Option.map_eq_some_iff.mp ho
    rw [sinceHeader_of_not_header before rfl, fieldNamesIn_field, ← h.fieldNames o' ho']
    exact Entity.fieldNames_addField o'.entity f.toField

/-- A line that neither declares nor closes anything leaves no trace. -/
theorem tracks_idle (h : Tracks before s) {l : Line} (hname : l.headerName? = none)
    (hfield : l.field? = none) (hclose : l ≠ .close) : Tracks (before ++ [l]) s where
  entityNames := by rw [headerNames_of_not_header before hname]; exact h.entityNames
  closed := by
    intro o ho
    rw [h.closed o ho, sinceHeader_of_not_header before hname, List.mem_append,
      List.mem_singleton]
    exact ⟨Or.inl, fun hc => hc.resolve_right (Ne.symm hclose)⟩
  fieldNames := by
    intro o ho
    rw [sinceHeader_of_not_header before hname, fieldNamesIn_of_not_field _ hfield]
    exact h.fieldNames o ho

/-- **Every step keeps the state in line with the lines read.** -/
theorem tracks_step (h : Tracks before s) (l : Line) : Tracks (before ++ [l]) (s.advance l) := by
  cases l with
  | header name hasBrace => exact tracks_header h name hasBrace
  | close => exact tracks_close h
  | field f => exact tracks_field h f
  | blank => exact tracks_idle h rfl rfl (by simp)
  | comment => exact tracks_idle h rfl rfl (by simp)
  | other => exact tracks_idle h rfl rfl (by simp)

/-! ## What the reader says -/

/-- One of the annotations is a bare sign exactly if one of the names is empty. -/
theorem any_isEmpty_toField (f : FieldLine) :
    f.toField.annotations.any Annotation.isEmpty = true ↔ [] ∈ f.annotations := by
  simp [FieldLine.toField, List.any_eq_true, Annotation.isEmpty]

theorem fieldIssues_of_tracks (h : Tracks before s) (hs : Consistent s) {o : OpenEntity}
    (ho : s.current = some o) (f : FieldLine) :
    o.issues f.toField = fieldIssuesAfter o.entity.name (sinceHeader before) f := by
  have hclosed : o.closed = decide (Line.close ∈ sinceHeader before) := by
    rw [Bool.eq_iff_iff, decide_eq_true_iff]; exact h.closed o ho
  have hname : f.toField.name.isEmpty = decide (String.ofList f.name = "") := by
    rw [Bool.eq_iff_iff, decide_eq_true_iff]; exact String.isEmpty_iff
  have htype : f.toField.typeName.isEmpty = decide (f.typeName = []) := by
    rw [Bool.eq_iff_iff, decide_eq_true_iff]; simp [FieldLine.toField]
  have hann : f.toField.annotations.any Annotation.isEmpty = decide ([] ∈ f.annotations) := by
    rw [Bool.eq_iff_iff, decide_eq_true_iff]; exact any_isEmpty_toField f
  unfold OpenEntity.issues fieldIssuesAfter
  simp only [hclosed, hname, htype, hann, decide_eq_true_eq]
  by_cases hempty : String.ofList f.name = ""
  · rw [if_pos hempty, if_pos hempty]
    rfl
  · -- a name that is not empty is among those kept exactly if an earlier field has it
    have hdup : o.fieldNames.contains f.toField.name
        = decide (String.ofList f.name ∈ fieldNamesIn (sinceHeader before)) := by
      rw [Bool.eq_iff_iff, decide_eq_true_iff, List.contains_iff_mem, hs.fieldNames o ho,
        h.fieldNames o ho]
      exact and_iff_right hempty
    simp only [hdup, decide_eq_true_eq]
    rfl

theorem headerIssues_of_tracks (h : Tracks before s) (hs : Consistent s) (name : String)
    (hasBrace : Bool) :
    s.headerIssues name hasBrace = headerIssuesAfter before name hasBrace := by
  have hname : name.isEmpty = decide (name = "") := by
    rw [Bool.eq_iff_iff, decide_eq_true_iff]; exact String.isEmpty_iff
  have hdup : s.entityNames.contains name
      = decide (name ∈ before.filterMap Line.headerName?) := by
    rw [Bool.eq_iff_iff, decide_eq_true_iff, List.contains_iff_mem, hs.entityNames, h.entityNames]
  unfold headerIssues headerIssuesAfter
  simp only [hname, hdup, decide_eq_true_eq]

/-- **In such a state the reader says what the lines before call for.** -/
theorem issues_of_tracks (h : Tracks before s) (hs : Consistent s) (text : String) (l : Line) :
    s.issues text l = issuesAfter before text l := by
  have hlatest := h.latest hs
  cases l with
  | header name hasBrace => exact headerIssues_of_tracks h hs (String.ofList name) hasBrace
  | field f =>
      unfold issues issuesAfter
      cases hc : s.current with
      | none => rw [hlatest, hc]; rfl
      | some o =>
          rw [hlatest, hc]
          exact fieldIssues_of_tracks h hs hc f
  | close =>
      unfold issues issuesAfter
      cases hc : s.current with
      | none => rw [hlatest, hc]; rfl
      | some o => rw [hlatest, hc]; rfl
  | other =>
      unfold issues issuesAfter
      cases hc : s.current with
      | none => rw [hlatest, hc]; rfl
      | some o => rw [hlatest, hc]; rfl
  | blank => rfl
  | comment => rfl

/-! ## Whole texts -/

/-- The findings do not enter into what the state holds. -/
theorem Tracks.report (h : Tracks before s) (span : Span) (is : List Issue) :
    Tracks before (s.report span is) := ⟨h.entityNames, h.closed, h.fieldNames⟩

/-- So every line keeps the state in line with what has been read. -/
theorem tracks_feed (h : Tracks before s) (l : SourceLine) :
    Tracks (before ++ [l.shape]) (s.feed l) := by
  rw [feed_eq]
  exact (tracks_step h l.shape).report _ _

/-- **What is found in some more lines.** -/
theorem findings_feedAll (ls : List SourceLine) :
    ∀ (before : List SourceLine) (s : Scan), Tracks (before.map SourceLine.shape) s →
      Consistent s → (s.feedAll ls).findings
        = s.findings ++ (ls.inits.zip ls).flatMap fun x => findingsAfter (before ++ x.1) x.2 := by
  -- on the lines, for all lines before: each step moves one line over to them
  induction ls with
  | nil => intro before s _ _; simp
  | cons l ls ih =>
    intro before s h hs
    have hstep : Tracks ((before ++ [l]).map SourceLine.shape) (s.feed l) := by
      rw [List.map_append]
      exact tracks_feed h l
    have hfound : (s.feed l).findings = s.findings ++ findingsAfter before l := by
      rw [feed_findings, issues_of_tracks h hs]
      rfl
    rw [feedAll_cons, ih (before ++ [l]) (s.feed l) hstep (consistent_feed hs l), hfound]
    simp [List.zip_map_left, List.flatMap_map, List.append_assoc]

end Scan

/-- **Reading finds what the rule says, line by line.** Each line is held against the lines before
it, and what is found stands in the order of the lines. -/
theorem lint_eq_findingsAfter (source : String) :
    lint source
      = ((lines source.toList).inits.zip (lines source.toList)).flatMap
          fun x => findingsAfter x.1 x.2 := by
  rw [lint_eq, Scan.findings_feedAll _ [] _ Scan.tracks_start Scan.consistent_start]
  rfl

end EntitySchema
