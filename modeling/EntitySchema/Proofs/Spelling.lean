import EntitySchema.Proofs.PrintedSchema

/-!
# Every schema that can be declared

What comes out of a schema text can be written in one (`writable_of_mem_parse`). Here is the other
direction: a text for any entities that meet the conditions, which printing does not always give.
What the end of a line or of an annotation could lose is guarded. A semicolon closes every field
line, so that a type may end in one, and a space and a dot stand behind every annotation, so that
it may end in a blank; behind a bare sign a space is enough.
-/

namespace EntitySchema

open Text

/-! ## What follows the sign of an annotation -/

/-- The text after a sign with what guards its end. -/
def guarded (cs : List Char) : List Char := cs ++ if cs = [] then [' '] else [' ', '.']

theorem guarded_ne_nil (cs : List Char) : guarded cs ≠ [] := by
  unfold guarded
  split <;> simp

theorem AnnotationText.sign_notMem_guarded {cs : List Char} (h : AnnotationText cs) :
    '@' ∉ guarded cs := by
  unfold guarded
  split <;> simp [h.sign]

theorem AnnotationText.oneLine_guarded {cs : List Char} (h : AnnotationText cs) :
    OneLine (guarded cs) := by
  unfold guarded
  split <;> simp [h.oneLine, OneLine.nil]

/-- A guarded text gives the annotation name that it guards. -/
theorem annotationName_guarded {cs : List Char} (h : AnnotationText cs) :
    Line.annotationName (guarded cs) = cs := by
  unfold guarded
  by_cases hnil : cs = []
  · rw [hnil]
    decide
  · -- the dot keeps the blanks before it, and the space ends the name
    obtain ⟨c, more, rfl⟩ := List.exists_cons_of_ne_nil hnil
    have hc : isBlank c = false := trimStart_eq_self_iff.mp h.start c rfl
    have htrim : trim (c :: more ++ [' ', '.']) = c :: more ++ ' ' :: ['.'] := by
      have hassoc : c :: more ++ [' ', '.'] = (c :: (more ++ [' '])) ++ '.' :: [] := by simp
      rw [hassoc, trim_append_cons (by decide), trimStart_cons_of_not_blank hc, trimEnd_nil,
        List.cons_append, List.append_assoc]
    have hname : ∀ x ∈ c :: more, decide (x ≠ ' ') = true := fun x hx =>
      decide_eq_true fun e => h.space (e ▸ hx)
    unfold Line.annotationName
    rw [if_neg hnil, htrim, List.takeWhile_append_of_pos hname,
      List.takeWhile_cons_of_neg (by simp), List.append_nil]

/-! ## What follows the colon -/

/-- The text after the sign of an annotation, if it has a sign. -/
def Annotation.afterSign (a : Annotation) : List Char := a.text.toList.tail

theorem Annotation.Writable.afterSign {a : Annotation} (h : a.Writable) :
    AnnotationText a.afterSign ∧ Annotation.ofName (String.ofList a.afterSign) = a := by
  obtain ⟨cs, hcs, htext⟩ := h
  have hafter : a.afterSign = cs := by
    unfold Annotation.afterSign
    rw [hcs, List.tail_cons]
  rw [hafter, Annotation.ofName_ofList, ← hcs, String.ofList_toList]
  exact ⟨htext, rfl⟩

/-- The annotations, each guarded. -/
def guardedAnnotations (as : List Annotation) : List Char :=
  as.flatMap fun a => '@' :: guarded a.afterSign

/-- What stands after the colon of a field line that is guarded. -/
def Field.guardedTail (f : Field) : List Char :=
  (f.typeName.toList ++ guardedAnnotations f.annotations) ++ [';']

/-- The pieces between the signs are the type and the guarded texts. -/
theorem splitOn_guardedAnnotations {as : List Annotation} (h : ∀ a ∈ as, a.Writable) :
    ∀ {type : List Char}, '@' ∉ type →
      (type ++ guardedAnnotations as).splitOn '@'
        = type :: as.map fun a => guarded a.afterSign := by
  induction as with
  | nil =>
    intro type htype
    rw [guardedAnnotations, List.flatMap_nil, List.append_nil, List.splitOn_eq_singleton htype]
    rfl
  | cons a as ih =>
    intro type htype
    obtain ⟨ha, has⟩ := List.forall_mem_cons.mp h
    have hrest : guardedAnnotations (a :: as)
        = '@' :: (guarded a.afterSign ++ guardedAnnotations as) := rfl
    rw [hrest, List.splitOn_append_cons_self_of_not_mem htype,
      ih has ha.afterSign.1.sign_notMem_guarded, List.map_cons]

theorem oneLine_guardedAnnotations {as : List Annotation} (h : ∀ a ∈ as, a.Writable) :
    OneLine (guardedAnnotations as) := by
  induction as with
  | nil => exact OneLine.nil
  | cons a as ih =>
    obtain ⟨ha, has⟩ := List.forall_mem_cons.mp h
    rw [guardedAnnotations, List.flatMap_cons]
    simpa using ⟨ha.afterSign.1.oneLine_guarded, ih has⟩

/-- No guarded annotation is lost, and each keeps its text. -/
theorem annotationsOf_guarded {as : List Annotation} (h : ∀ a ∈ as, a.Writable) :
    annotationsOf (as.map fun a => guarded a.afterSign) = as := by
  induction as with
  | nil => rfl
  | cons a as ih =>
    obtain ⟨ha, has⟩ := List.forall_mem_cons.mp h
    obtain ⟨htext, hname⟩ := ha.afterSign
    have htail := ih has
    unfold annotationsOf at htail ⊢
    rw [List.map_cons, dropTrailingEmpty_cons (guarded_ne_nil _), List.map_cons, htail,
      annotationName_guarded htext, hname]

/-- Nothing is trimmed off a guarded tail. -/
theorem trim_guardedTail {f : Field} (h : f.Writable) : trim f.guardedTail = f.guardedTail := by
  have hstart : trimStart (f.typeName.toList ++ guardedAnnotations f.annotations)
      = f.typeName.toList ++ guardedAnnotations f.annotations := by
    have htype := trimStart_eq_self_iff.mp (trim_eq_self_iff.mp h.type.trimmed).1
    rw [trimStart_eq_self_iff]
    intro c hc
    cases hchars : f.typeName.toList with
    | cons t ts =>
      rw [hchars] at hc htype
      exact htype c hc
    | nil =>
      -- without a type the tail starts with the first sign
      cases hann : f.annotations with
      | nil => simp [hchars, hann, guardedAnnotations] at hc
      | cons a as =>
        have hsign : c = '@' := by simpa [hchars, hann, guardedAnnotations, eq_comm] using hc
        rw [hsign]
        decide
  unfold Field.guardedTail
  rw [trim_append_cons (by decide), hstart, trimEnd_nil]

/-- **What follows the colon of a guarded line is read as the field.** -/
theorem splitField_guardedTail {f : Field} (h : f.Writable) :
    (Line.splitField f.name.toList f.guardedTail).toField = f := by
  obtain ⟨type, pieces, hpieces, hsplit⟩ := splitType_pieces (trim f.guardedTail)
  have hdrop : dropSemicolon (trim f.guardedTail)
      = f.typeName.toList ++ guardedAnnotations f.annotations := by
    rw [trim_guardedTail h]
    exact dropSemicolon_concat _
  rw [hdrop, splitOn_guardedAnnotations h.annotations h.sign] at hpieces
  obtain ⟨rfl, rfl⟩ := List.cons.inj hpieces
  have hann := annotationsOf_guarded h.annotations
  unfold annotationsOf at hann
  unfold Line.splitField
  rw [hsplit, h.name.trimmed, h.type.trimmed]
  simp [FieldLine.toField, Function.comp_def, hann]

/-! ## Lines -/

/-- The guarded line of a field, without its line feed. -/
def Field.guardedLine (f : Field) : List Char := f.name.toList ++ ':' :: f.guardedTail

theorem oneLine_guardedLine {f : Field} (h : f.Writable) : OneLine f.guardedLine := by
  have hann := oneLine_guardedAnnotations h.annotations
  unfold Field.guardedLine Field.guardedTail
  simpa [OneLine.nil] using ⟨h.name.oneLine, h.type.oneLine, hann⟩

/-- **A guarded line is a field line.** -/
theorem classify_guardedLine {f : Field} (h : f.Writable) :
    Line.classify (trim f.guardedLine)
      = .field (Line.splitField f.name.toList f.guardedTail) := by
  have htail : trimEnd f.guardedTail = f.guardedTail :=
    (trim_eq_self_iff.mp (trim_guardedTail h)).2
  have htrim : trim f.guardedLine = f.guardedLine := by
    unfold Field.guardedLine
    rw [trim_append_cons (by decide), (trim_eq_self_iff.mp h.name.trimmed).1, htail]
  rw [htrim]
  exact Line.classify_colon h.colon h.opens _

/-! ## Schemas -/

/-- The guarded text of an entity. -/
def Entity.guardedChars (e : Entity) : List Char :=
  e.headerLine ++ '\n' :: e.fields.flatMap fun f => f.guardedLine ++ ['\n']

/-- The guarded text of entities, one after another. -/
def guardedText (es : List Entity) : String := String.ofList (es.flatMap Entity.guardedChars)

/-- What the lines of a guarded entity are, with any text after it. -/
theorem shapesOf_guardedChars {e : Entity} (h : e.Writable) (rest : List Char) :
    shapesOf (e.guardedChars ++ rest)
      = .header e.name.toList true
        :: (e.fields.map (fun f => .field (Line.splitField f.name.toList f.guardedTail))
          ++ shapesOf rest) := by
  have hfields : e.fields.map (fun f => Line.classify (trim f.guardedLine))
      = e.fields.map fun f => .field (Line.splitField f.name.toList f.guardedTail) :=
    List.map_congr_left fun f hf => classify_guardedLine (h.fields f hf)
  rw [Entity.guardedChars, List.append_assoc, List.cons_append,
    shapesOf_line (oneLine_headerLine h.name), classify_headerLine h.name,
    shapesOf_lines (fun f hf => oneLine_guardedLine (h.fields f hf)), hfields]

/-- **A guarded text declares the entities that it was made for.** -/
theorem parse_guardedText {es : List Entity} (h : ∀ e ∈ es, e.Writable) :
    parse (guardedText es) = es := by
  have hsegments : segmentation (shapesOf (es.flatMap Entity.guardedChars)) = es
      ∧ ownFields (shapesOf (es.flatMap Entity.guardedChars)) = [] := by
    -- what follows an entity starts with a header, so it adds no field to it
    induction es with
    | nil => exact ⟨rfl, rfl⟩
    | cons e es ih =>
      obtain ⟨he, hes⟩ := List.forall_mem_cons.mp h
      obtain ⟨hsegments, hown⟩ := ih hes
      have hread : e.fields.map (fun f => (Line.splitField f.name.toList f.guardedTail).toField)
          = e.fields.map id :=
        List.map_congr_left fun f hf => splitField_guardedTail (he.fields f hf)
      rw [List.flatMap_cons, shapesOf_guardedChars he]
      refine ⟨?_, ownFields_header _ _ _⟩
      rw [segmentation_header, ownFields_map_field, segmentation_map_field, hsegments, hown, hread,
        List.map_id, List.append_nil, String.ofList_toList]
  rw [parse_eq_segmentation, shapes_eq_shapesOf, guardedText, String.toList_ofList]
  exact hsegments.1

/-- **What schema texts can declare.** Entities are what some schema text declares exactly if their
names are tokens, and each field has a token without a colon for a name, which opens no other kind
of line, a token without a sign for a type, and annotations of a sign and a text that starts with no
blank and holds no space and no sign. -/
theorem exists_parse_eq_iff (es : List Entity) :
    (∃ source, parse source = es) ↔ ∀ e ∈ es, e.Writable := by
  constructor
  · rintro ⟨source, rfl⟩ e he
    exact writable_of_mem_parse he
  · intro h
    exact ⟨guardedText es, parse_guardedText h⟩

end EntitySchema
