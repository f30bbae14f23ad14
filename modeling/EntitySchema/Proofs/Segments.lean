import Mathlib.Data.List.Infix
import EntitySchema.Proofs.Feed

/-!
# A schema is the segments of its text

What a schema text declares can be said without reading it line by line: every header opens an
entity, and the fields of the entity are the field lines between it and the next header. This is
`segmentation`. It looks at each end of the list of lines in turn and has no state. `parse` goes
over the lines once, with an open entity in its hand; `entities_feedAll` says what the pass has
read at any moment in terms of the segments still to come, and `parse` is the pass from the start.
-/

namespace EntitySchema

namespace Line

/-- The name in a header. -/
def headerName? : Line → Option String
  | .header name _ => some (String.ofList name)
  | _ => none

/-- The field that a field line declares. Each annotation gets its sign back. -/
def field? : Line → Option Field
  | .field f =>
    some ⟨String.ofList f.name, String.ofList f.typeName,
      f.annotations.map fun a => ⟨String.ofList ('@' :: a)⟩⟩
  | _ => none

/-- Whether the line opens an entity. -/
def isHeader (l : Line) : Bool := l.headerName?.isSome

/-- Whether the line declares an entity or a field. -/
def declares (l : Line) : Bool := l.isHeader || l.field?.isSome

/-- The field that is read off a field line is the one that it declares. -/
theorem field?_field (f : FieldLine) : field? (.field f) = some f.toField := by
  simp only [field?, FieldLine.toField, Annotation.ofName_ofList]

theorem field?_eq_some_iff {l : Line} {f : Field} :
    l.field? = some f ↔ ∃ fl, l = .field fl ∧ fl.toField = f := by
  cases l with
  | field fl => simp [field?_field]
  | _ => simp [field?]

end Line

/-- The fields declared before the next header. -/
def ownFields (ls : List Line) : List Field :=
  (ls.takeWhile fun l => !l.isHeader).filterMap Line.field?

/-- The entity that the first of the lines opens, if it is a header. -/
def entityAt? : List Line → Option Entity
  | .header name _ :: rest => some ⟨String.ofList name, ownFields rest⟩
  | _ => none

/-- What the lines declare: one entity for each header, with the fields before the next one. -/
def segmentation (ls : List Line) : List Entity := ls.tails.filterMap entityAt?

/-! ## Segments, line by line -/

@[simp] theorem ownFields_nil : ownFields [] = [] := rfl

@[simp] theorem ownFields_header (name : List Char) (hasBrace : Bool) (ls : List Line) :
    ownFields (.header name hasBrace :: ls) = [] := rfl

@[simp] theorem ownFields_field (f : FieldLine) (ls : List Line) :
    ownFields (.field f :: ls) = f.toField :: ownFields ls := by
  unfold ownFields
  rw [List.takeWhile_cons_of_pos rfl, List.filterMap_cons_some (Line.field?_field f)]

/-- A line that declares nothing stands between the fields as if it were not there. -/
theorem ownFields_cons_of_not_declares {l : Line} (h : l.declares = false) (ls : List Line) :
    ownFields (l :: ls) = ownFields ls := by
  cases l with
  | header name hasBrace =>
      exact absurd h (by simp [Line.declares, Line.isHeader, Line.headerName?])
  | field f => exact absurd h (by simp [Line.declares, Line.field?])
  | _ => rfl

@[simp] theorem segmentation_nil : segmentation [] = [] := rfl

@[simp] theorem segmentation_header (name : List Char) (hasBrace : Bool) (ls : List Line) :
    segmentation (.header name hasBrace :: ls)
      = ⟨String.ofList name, ownFields ls⟩ :: segmentation ls := rfl

/-- Only a header opens an entity. -/
theorem segmentation_cons_of_not_header {l : Line} (h : l.isHeader = false) (ls : List Line) :
    segmentation (l :: ls) = segmentation ls := by
  cases l with
  | header name hasBrace => exact absurd h (by simp [Line.isHeader, Line.headerName?])
  | _ => rfl

/-- One entity for each header, named as the header. -/
theorem map_name_segmentation (ls : List Line) :
    (segmentation ls).map Entity.name = ls.filterMap Line.headerName? := by
  induction ls with
  | nil => rfl
  | cons l ls ih =>
    cases l with
    | header name hasBrace =>
        rw [segmentation_header, List.map_cons, ih]
        rfl
    | _ => rw [segmentation_cons_of_not_header rfl, ih, List.filterMap_cons_none rfl]

theorem mem_ownFields {f : Field} {ls : List Line} (h : f ∈ ownFields ls) :
    ∃ fl, Line.field fl ∈ ls ∧ fl.toField = f := by
  obtain ⟨l, hl, hf⟩ := List.mem_filterMap.mp h
  obtain ⟨fl, rfl, hfl⟩ := Line.field?_eq_some_iff.mp hf
  exact ⟨fl, (List.takeWhile_prefix _).subset hl, hfl⟩

/-- An entity of the segmentation comes from a header, and its fields from field lines. -/
theorem mem_segmentation {e : Entity} {ls : List Line} (h : e ∈ segmentation ls) :
    (∃ name hasBrace, Line.header name hasBrace ∈ ls ∧ String.ofList name = e.name)
      ∧ ∀ f ∈ e.fields, ∃ fl, Line.field fl ∈ ls ∧ fl.toField = f := by
  obtain ⟨tail, htail, he⟩ := List.mem_filterMap.mp h
  have hsub : tail ⊆ ls := ((List.mem_tails _ _).mp htail).subset
  unfold entityAt? at he
  split at he
  · next name hasBrace rest =>
    obtain rfl := Option.some.inj he
    refine ⟨⟨name, hasBrace, hsub List.mem_cons_self, rfl⟩, fun f hf => ?_⟩
    obtain ⟨fl, hfl, heq⟩ := mem_ownFields hf
    exact ⟨fl, hsub (List.mem_cons_of_mem _ hfl), heq⟩
  · exact absurd he (by simp)

section FieldLines

variable {α : Type} (line : α → FieldLine) (as : List α) (ls : List Line)

/-- The fields of a row of field lines come before those of the lines after it. -/
theorem ownFields_map_field :
    ownFields (as.map (fun a => .field (line a)) ++ ls)
      = as.map (fun a => (line a).toField) ++ ownFields ls := by
  induction as with
  | nil => rfl
  | cons a as ih => rw [List.map_cons, List.cons_append, ownFields_field, ih]; rfl

/-- A row of field lines opens no entity. -/
theorem segmentation_map_field :
    segmentation (as.map (fun a => .field (line a)) ++ ls) = segmentation ls := by
  induction as with
  | nil => rfl
  | cons a as ih => rw [List.map_cons, List.cons_append, segmentation_cons_of_not_header rfl, ih]

end FieldLines

/-! ## Lines that change nothing -/

theorem ownFields_filter_declares (ls : List Line) :
    ownFields (ls.filter Line.declares) = ownFields ls := by
  induction ls with
  | nil => rfl
  | cons l ls ih =>
    cases l with
    | header name hasBrace => rw [List.filter_cons_of_pos rfl, ownFields_header, ownFields_header]
    | field f => rw [List.filter_cons_of_pos rfl, ownFields_field, ownFields_field, ih]
    | _ =>
      rw [List.filter_cons_of_neg (by decide), ih, ownFields_cons_of_not_declares rfl]

/-- Lines that declare nothing may be left out anywhere. -/
theorem segmentation_filter_declares (ls : List Line) :
    segmentation (ls.filter Line.declares) = segmentation ls := by
  induction ls with
  | nil => rfl
  | cons l ls ih =>
    cases l with
    | header name hasBrace =>
        rw [List.filter_cons_of_pos rfl, segmentation_header, segmentation_header, ih,
          ownFields_filter_declares]
    | field f =>
        rw [List.filter_cons_of_pos rfl, segmentation_cons_of_not_header rfl,
          segmentation_cons_of_not_header rfl, ih]
    | _ =>
      rw [List.filter_cons_of_neg (by decide), ih, segmentation_cons_of_not_header rfl]

/-- What stands before the first header declares nothing. -/
theorem segmentation_dropWhile (ls : List Line) :
    segmentation (ls.dropWhile fun l => !l.isHeader) = segmentation ls := by
  induction ls with
  | nil => rfl
  | cons l ls ih =>
    cases hl : l.isHeader with
    | true => rw [List.dropWhile_cons_of_neg (by simp [hl])]
    | false =>
        rw [List.dropWhile_cons_of_pos (by simp [hl]), ih, segmentation_cons_of_not_header hl]

/-! ## The pass over the lines -/

namespace OpenEntity

/-- The open entity once these fields have been added. -/
def withFields (o : OpenEntity) (fs : List Field) : Entity :=
  { o.entity with fields := o.entity.fields ++ fs }

theorem withFields_nil (o : OpenEntity) : o.withFields [] = o.entity := by
  unfold withFields
  rw [List.append_nil]

theorem withFields_cons (o : OpenEntity) (f : Field) (fs : List Field) :
    o.withFields (f :: fs) = (o.addField f).withFields fs := by
  simp [withFields, addField, Entity.addField]

theorem withFields_ofName (name : String) (fs : List Field) :
    (ofName name).withFields fs = ⟨name, fs⟩ := rfl

end OpenEntity

/-- **What the pass has read after some more lines.** The open entity takes the fields up to the
next header, closing brace or not, and from there on the segments of the lines follow. -/
theorem Scan.entities_feedAll (s : Scan) (ls : List SourceLine) :
    (s.feedAll ls).entities
      = s.finished
        ++ (s.current.map fun o => o.withFields (ownFields (ls.map SourceLine.shape))).toList
        ++ segmentation (ls.map SourceLine.shape) := by
  -- on the lines, for every state: each step leaves another open entity behind
  induction ls generalizing s with
  | nil => simp [Scan.entities, OpenEntity.withFields_nil]
  | cons l ls ih =>
    rw [Scan.feedAll_cons, ih, Scan.feed_eq, List.map_cons, Scan.report_finished,
      Scan.report_current]
    cases l.shape with
    | header name hasBrace =>
        rw [segmentation_header, ownFields_header]
        simp [Scan.advance, Scan.openEntity, Scan.entities, OpenEntity.withFields_nil,
          OpenEntity.withFields_ofName]
    | field f =>
        rw [segmentation_cons_of_not_header rfl, ownFields_field]
        simp [Scan.advance, Option.map_map, Function.comp_def, OpenEntity.withFields_cons]
    | close =>
        rw [segmentation_cons_of_not_header rfl, ownFields_cons_of_not_declares rfl]
        simp [Scan.advance, Option.map_map, Function.comp_def, OpenEntity.withFields,
          OpenEntity.close]
    | _ =>
        rw [segmentation_cons_of_not_header rfl, ownFields_cons_of_not_declares rfl]
        rfl

theorem parse_eq_segmentation (source : String) : parse source = segmentation (shapes source) := by
  rw [parse_eq, Scan.entities_feedAll]
  rfl

/-- **A schema is the segmentation of its lines.** It has one entity for each header, named as the
header, with the fields of the lines up to the next header. Lines before the first header and
lines that are neither headers nor fields can be left out, a closing brace among them. -/
theorem parse_segments (source : String) :
    parse source = segmentation (shapes source)
      ∧ (parse source).map Entity.name = (shapes source).filterMap Line.headerName?
      ∧ parse source
          = segmentation (((shapes source).dropWhile fun l => !l.isHeader).filter
              Line.declares) := by
  have h := parse_eq_segmentation source
  refine ⟨h, ?_, ?_⟩
  · rw [h, map_name_segmentation]
  · rw [h, segmentation_filter_declares, segmentation_dropWhile]

end EntitySchema
