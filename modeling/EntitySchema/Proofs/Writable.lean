import EntitySchema.Proofs.Classify
import EntitySchema.Proofs.Cutting
import EntitySchema.Proofs.Lines

/-!
# What a schema text can declare

Not every entity can come out of a schema text. Names and types come trimmed and without line
ends, a field name ends at the first colon and does not start like another kind of line, and an
annotation is a sign with a text that was cut at its first space. `Entity.Writable` collects these
conditions, and whatever is parsed meets them (`writable_of_mem_parse`).
-/

namespace EntitySchema

/-- A text that stands as a name or a type: trimmed, and within one line. -/
structure Token (cs : List Char) : Prop where
  trimmed : Text.trim cs = cs
  oneLine : OneLine cs

/-- What can follow the sign of an annotation. The text may end in blanks, but not in spaces. -/
structure AnnotationText (cs : List Char) : Prop where
  start : Text.trimStart cs = cs
  oneLine : OneLine cs
  space : ' ' ∉ cs
  sign : '@' ∉ cs

/-- The annotation is a sign and a text that can follow it. -/
def Annotation.Writable (a : Annotation) : Prop :=
  ∃ cs, a.text.toList = '@' :: cs ∧ AnnotationText cs

/-- A field line can declare the field. -/
structure Field.Writable (f : Field) : Prop where
  name : Token f.name.toList
  /-- The name ends at the first colon of the line. -/
  colon : ':' ∉ f.name.toList
  /-- The line is no comment, no header and no closing brace. -/
  opens : Line.OpensField f.name.toList
  type : Token f.typeName.toList
  /-- The type ends at the first annotation sign. -/
  sign : '@' ∉ f.typeName.toList
  annotations : ∀ a ∈ f.annotations, a.Writable

/-- A schema text can declare the entity. -/
structure Entity.Writable (e : Entity) : Prop where
  name : Token e.name.toList
  fields : ∀ f ∈ e.fields, f.Writable

/-! ## What follows the colon -/

theorem dropTrailingEmpty_subset (ts : List (List Char)) : Line.dropTrailingEmpty ts ⊆ ts := by
  intro t h
  unfold Line.dropTrailingEmpty at h
  exact List.mem_reverse.mp ((List.dropWhile_suffix _).subset (List.mem_reverse.mp h))

/-- The text without one semicolon at its end, if it ends in one. -/
def dropSemicolon (cs : List Char) : List Char :=
  if cs.getLast? = some ';' then cs.dropLast else cs

theorem dropSemicolon_isPrefix (cs : List Char) : dropSemicolon cs <+: cs := by
  unfold dropSemicolon
  split
  · exact List.dropLast_prefix cs
  · exact List.prefix_rfl

/-- What is read of the end of a field line is the text without its semicolon. -/
theorem getD_withoutLast? (cs : List Char) :
    (Line.withoutLast? ';' cs).getD cs = dropSemicolon cs := by
  unfold Line.withoutLast? dropSemicolon
  split <;> rfl

/-- The type and the annotation names are read from the pieces between the signs. -/
theorem splitType_pieces (rest : List Char) :
    ∃ type pieces, (dropSemicolon rest).splitOn '@' = type :: pieces
      ∧ Line.splitType rest
        = (Text.trim type, (Line.dropTrailingEmpty pieces).map Line.annotationName) := by
  obtain ⟨type, pieces, h⟩ :=
    List.exists_cons_of_ne_nil (List.splitOn_ne_nil '@' (dropSemicolon rest))
  refine ⟨type, pieces, h, ?_⟩
  unfold Line.splitType
  rw [getD_withoutLast?]
  simp only [h]

theorem token_trim {cs : List Char} (h : OneLine cs) : Token (Text.trim cs) :=
  ⟨Text.trim_idem cs, h.of_subset (Text.trim_subset cs)⟩

/-- An annotation name is the start of a trimmed piece up to its first space. -/
theorem annotationText_annotationName {piece : List Char} (h : OneLine piece)
    (hsign : '@' ∉ piece) : AnnotationText (Line.annotationName piece) := by
  have hpre : Line.annotationName piece <+: Text.trim piece := List.takeWhile_prefix _
  have hsub := List.Subset.trans hpre.subset (Text.trim_subset piece)
  exact {
    start := Text.trimStart_of_isPrefix hpre (Text.trimStart_trim piece)
    oneLine := h.of_subset hsub
    space := fun hm => absurd (List.mem_takeWhile_imp hm) (by simp)
    sign := fun hm => hsign (hsub hm) }

/-! ## Lines -/

theorem writable_of_splitField {as bs : List Char} (hcolon : ':' ∉ as)
    (h : Line.OpensField (as ++ ':' :: bs)) (hstart : Text.trimStart as = as) (has : OneLine as)
    (hbs : OneLine bs) : (Line.splitField as bs).toField.Writable := by
  obtain ⟨type, pieces, hpieces, hsplit⟩ := splitType_pieces (Text.trim bs)
  have hpiece (p : List Char) (hp : p ∈ type :: pieces) : OneLine p ∧ '@' ∉ p := by
    obtain ⟨hsign, hsub⟩ := splitOn_piece (hpieces ▸ hp)
    refine ⟨hbs.of_subset ?_, hsign⟩
    exact List.Subset.trans hsub
      (List.Subset.trans (dropSemicolon_isPrefix _).subset (Text.trim_subset bs))
  have hfield : Line.splitField as bs
      = ⟨Text.trim as, Text.trim type,
          (Line.dropTrailingEmpty pieces).map Line.annotationName⟩ := by
    unfold Line.splitField
    rw [hsplit]
  -- the name is the start of the line, so it starts no other kind of line either
  have hname : Text.trim as <+: as := by
    rw [Text.trim_of_trimStart hstart]; exact Text.trimEnd_isPrefix as
  have hline : Text.trim as <+: as ++ ':' :: bs := hname.trans (List.prefix_append _ _)
  rw [hfield]
  exact {
    name := by simpa [FieldLine.toField] using token_trim has
    colon := by simpa [FieldLine.toField] using fun hm => hcolon (hname.subset hm)
    opens := by
      simp only [FieldLine.toField, String.toList_ofList]
      exact h.of_isPrefix hline
    type := by
      simpa [FieldLine.toField] using token_trim (hpiece type List.mem_cons_self).1
    sign := by
      simp only [FieldLine.toField, String.toList_ofList]
      exact fun hm => (hpiece type List.mem_cons_self).2 (Text.trim_subset type hm)
    annotations := by
      intro a ha
      simp only [FieldLine.toField, List.map_map, List.mem_map, Function.comp_apply] at ha
      obtain ⟨p, hp, rfl⟩ := ha
      obtain ⟨hone, hsign⟩ := hpiece p (List.mem_cons_of_mem _ (dropTrailingEmpty_subset _ hp))
      exact ⟨Line.annotationName p, by simp,
        annotationText_annotationName hone hsign⟩ }

/-- The name in a header is a token. -/
theorem token_of_header {source : String} {name : List Char} {hasBrace : Bool}
    (h : Line.header name hasBrace ∈ shapes source) : Token name := by
  obtain ⟨text, _, hone, hclass⟩ := exists_text_of_mem_shapes h
  obtain ⟨rest, rfl, hsplit⟩ := Line.classify_eq_header hclass.symm
  obtain ⟨htrim, hsub⟩ := Line.name_of_splitHeader hsplit
  exact ⟨htrim, (OneLine.append_iff.mp hone).2.of_subset hsub⟩

/-- A field line declares a field that a field line can declare. -/
theorem writable_of_field {source : String} {f : FieldLine}
    (h : Line.field f ∈ shapes source) : f.toField.Writable := by
  obtain ⟨text, htrim, hone, hclass⟩ := exists_text_of_mem_shapes h
  obtain ⟨as, bs, rfl, hcolon, hopens, rfl⟩ := Line.classify_eq_field hclass.symm
  obtain ⟨has, hbs⟩ := OneLine.append_iff.mp hone
  have hstart : Text.trimStart as = as :=
    Text.trimStart_of_isPrefix (List.prefix_append _ _) (Text.trim_eq_self_iff.mp htrim).1
  exact writable_of_splitField hcolon hopens hstart has (OneLine.cons_iff.mp hbs).2.2

/-- **Whatever a schema text declares can be written in one.** -/
theorem writable_of_mem_parse {source : String} {e : Entity} (h : e ∈ parse source) :
    e.Writable := by
  rw [parse_eq_segmentation] at h
  obtain ⟨⟨name, hasBrace, hheader, hname⟩, hfields⟩ := mem_segmentation h
  constructor
  · rw [← hname, String.toList_ofList]
    exact token_of_header hheader
  · intro f hf
    obtain ⟨fl, hfl, rfl⟩ := hfields f hf
    exact writable_of_field hfl

end EntitySchema
