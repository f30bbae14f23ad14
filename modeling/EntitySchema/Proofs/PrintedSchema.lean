import EntitySchema.Proofs.PrintedField

/-!
# The text of a printed schema

Printing puts every entity back into lines: its header, the lines of its fields, and a closing
brace. So it is known what the lines of a printed schema are (`shapes_printAll`) and what they
declare (`parse_printAll_of_writable`): the entities that were printed, each field as its line is
read again.
-/

namespace EntitySchema

open Text

/-- The entity that the lines of an entity declare. -/
def Entity.reread (e : Entity) : Entity := { e with fields := e.fields.map Field.reread }

/-! ## The text of an entity -/

/-- What the lines of a printed entity are. -/
def Entity.printedShapes (e : Entity) : List Line :=
  .header e.name.toList true :: (e.fields.map Field.lineShape ++ [.close])

theorem Entity.printedShapes_append (e : Entity) (rest : List Line) :
    e.printedShapes ++ rest
      = .header e.name.toList true :: (e.fields.map Field.lineShape ++ .close :: rest) := by
  simp [Entity.printedShapes]

/-- The line of a printed header, without its line feed. -/
def Entity.headerLine (e : Entity) : List Char := Line.keyword ++ (e.name.toList ++ [' ', '\x7b'])

theorem Entity.toList_print (e : Entity) :
    e.print.toList
      = e.headerLine
        ++ '\n' :: ((e.fields.flatMap fun f => f.line ++ ['\n']) ++ ['\x7d', '\n']) := by
  have hfields : (String.join (e.fields.map Field.print)).toList
      = e.fields.flatMap fun f => f.line ++ ['\n'] := by
    simp [List.flatMap_map, Field.toList_print]
  have hopen : " \x7b\n".toList = [' ', '\x7b', '\n'] := by decide
  have hclose : "\x7d\n".toList = ['\x7d', '\n'] := by decide
  have hkeyword : "entity ".toList = Line.keyword := rfl
  unfold Entity.print
  simp only [String.toList_append, hfields, hopen, hclose, hkeyword, Entity.headerLine,
    List.append_assoc, List.cons_append, List.nil_append]

theorem oneLine_headerLine {e : Entity} (h : Token e.name.toList) : OneLine e.headerLine := by
  unfold Entity.headerLine
  simpa using ⟨(by decide : OneLine Line.keyword), h.oneLine, OneLine.nil⟩

theorem classify_headerLine {e : Entity} (h : Token e.name.toList) :
    Line.classify (trim e.headerLine) = .header e.name.toList true := by
  -- the keyword starts and the brace ends the line, so nothing is trimmed
  have htrim : trim e.headerLine = Line.keyword ++ ((e.name.toList ++ [' ']) ++ ['\x7b']) := by
    have hassoc : e.headerLine
        = (Line.keyword ++ (e.name.toList ++ [' '])) ++ '\x7b' :: [] := by
      simp [Entity.headerLine]
    have hkeyword (cs : List Char) : trimStart (Line.keyword ++ cs) = Line.keyword ++ cs :=
      trimStart_cons_of_not_blank (by decide) _
    rw [hassoc, trim_append_cons (by decide), hkeyword]
    simp
  have hname : trim (e.name.toList ++ [' ']) = e.name.toList := by
    unfold trim
    rw [← trimStart_trimEnd, trimEnd_concat, if_pos (by decide),
      trimStart_trimEnd]
    exact h.trimmed
  rw [htrim, Line.classify_keyword, Line.splitHeader_brace, hname]

theorem shapesOf_fields {fs : List Field} (h : ∀ f ∈ fs, f.Writable) (rest : List Char) :
    shapesOf ((fs.flatMap fun f => f.line ++ ['\n']) ++ rest)
      = fs.map Field.lineShape ++ shapesOf rest := by
  have hshape : fs.map (fun f => Line.classify (trim f.line)) = fs.map Field.lineShape :=
    List.map_congr_left fun f hf => classify_line (h f hf)
  rw [shapesOf_lines (fun f hf => oneLine_line (h f hf)), hshape]

/-- **What the lines of a printed entity are**, with any text after it. -/
theorem shapesOf_print {e : Entity} (h : e.Writable) (rest : List Char) :
    shapesOf (e.print.toList ++ rest) = e.printedShapes ++ shapesOf rest := by
  have hclose : shapesOf (['\x7d', '\n'] ++ rest) = .close :: shapesOf rest :=
    shapesOf_line (by decide : OneLine ['\x7d']) rest
  rw [Entity.toList_print, List.append_assoc, List.cons_append,
    shapesOf_line (oneLine_headerLine h.name), classify_headerLine h.name, List.append_assoc,
    shapesOf_fields h.fields, hclose]
  simp [Entity.printedShapes]

/-! ## Whole schemas -/

/-- What the lines of a printed schema are: those of its entities with a blank line between. -/
def printedShapes (es : List Entity) : List Line :=
  [Line.blank].intercalate (es.map Entity.printedShapes)

theorem printedShapes_singleton (e : Entity) : printedShapes [e] = e.printedShapes ++ [] := by
  simp [printedShapes]

theorem printedShapes_cons_cons (e e' : Entity) (es : List Entity) :
    printedShapes (e :: e' :: es) = e.printedShapes ++ .blank :: printedShapes (e' :: es) := by
  simp [printedShapes]

/-- **What the lines of a printed schema are.** -/
theorem shapes_printAll {es : List Entity} (h : ∀ e ∈ es, e.Writable) :
    shapes (printAll es) = printedShapes es := by
  rw [shapes_eq_shapesOf]
  induction es with
  | nil => rfl
  | cons e es ih =>
    obtain ⟨he, hes⟩ := List.forall_mem_cons.mp h
    cases es with
    | nil =>
        have hprint : (printAll [e]).toList = e.print.toList ++ [] := by simp [printAll]
        rw [hprint, shapesOf_print he, printedShapes_singleton]
        rfl
    | cons e' es =>
        have hprint : (printAll (e :: e' :: es)).toList
            = e.print.toList ++ ([] ++ '\n' :: (printAll (e' :: es)).toList) := by
          simp [printAll]
        rw [hprint, shapesOf_print he, shapesOf_line OneLine.nil, ih hes,
          printedShapes_cons_cons]
        rfl

/-- The lines of a printed entity declare it as it is read again. -/
theorem segmentation_printedShapes {e : Entity} (h : e.Writable) {rest : List Line}
    (hrest : ownFields rest = []) :
    segmentation (e.printedShapes ++ rest) = e.reread :: segmentation rest := by
  have hown : ownFields (e.fields.map Field.lineShape ++ .close :: rest)
      = e.fields.map Field.reread := by
    have hread : e.fields.map (fun f => (Line.splitField f.name.toList
        (trimEnd f.afterColon)).toField) = e.fields.map Field.reread :=
      List.map_congr_left fun f hf => splitField_printed (h.fields f hf)
    unfold Field.lineShape
    rw [ownFields_map_field, hread, ownFields_cons_of_not_declares rfl, hrest, List.append_nil]
  have hseg : segmentation (e.fields.map Field.lineShape ++ .close :: rest)
      = segmentation rest := by
    unfold Field.lineShape
    rw [segmentation_map_field]
    exact segmentation_cons_of_not_header rfl rest
  rw [Entity.printedShapes_append, segmentation_header, hown, hseg, String.ofList_toList]
  rfl

/-- **What a printed schema declares.** -/
theorem parse_printAll_of_writable {es : List Entity} (h : ∀ e ∈ es, e.Writable) :
    parse (printAll es) = es.map Entity.reread := by
  rw [parse_eq_segmentation, shapes_printAll h]
  induction es with
  | nil => rfl
  | cons e es ih =>
    obtain ⟨he, hes⟩ := List.forall_mem_cons.mp h
    cases es with
    | nil =>
        rw [printedShapes_singleton, segmentation_printedShapes he rfl]
        rfl
    | cons e' es =>
        -- a blank line and the next header stop the fields of this entity
        have hnext : ownFields (.blank :: printedShapes (e' :: es)) = [] := by
          rw [ownFields_cons_of_not_declares rfl]
          cases es with
          | nil => rfl
          | cons e'' es => rw [printedShapes_cons_cons]; rfl
        rw [printedShapes_cons_cons, segmentation_printedShapes he hnext,
          segmentation_cons_of_not_header rfl, ih hes]
        rfl

end EntitySchema
