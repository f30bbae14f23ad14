import EntitySchema.Proofs.Order
import EntitySchema.Proofs.Settled

/-!
# Printing any schema that has been read

What has been read can be written, so it is known what printing and reading it again makes of it,
whether the text it was read from was clean or not: every entity and every field is there again
under its name, and what changes is the ends of the field lines. The printed text itself may still
lack names and types, but none of its lines is out of order.
-/

namespace EntitySchema

open Text

/-- A type that ends its line in a semicolon loses it, and the blanks before it. -/
theorem settle_concat_semicolon {cs : List Char} (h : trim (cs ++ [';']) = cs ++ [';']) :
    settle (cs ++ [';']) = trimEnd cs := by
  unfold settle
  rw [(trim_eq_self_iff.mp h).2, dropSemicolon_concat]

theorem Field.typeName_reread_of_annotations {f : Field} (h : f.annotations ≠ []) :
    f.reread.typeName = f.typeName := if_neg h

/-- A type that does not end in a semicolon stays, wherever it stands in its line. -/
theorem Field.typeName_reread_of_ne {f : Field} (hw : f.Writable)
    (h : f.typeName.toList.getLast? ≠ some ';') : f.reread.typeName = f.typeName := by
  by_cases hann : f.annotations = []
  · have hend := (trim_eq_self_iff.mp hw.type.trimmed).2
    show (if f.annotations = [] then _ else _) = _
    rw [if_pos hann, settle_eq_self_iff.mpr ⟨hend, h⟩, String.ofList_toList]
  · exact typeName_reread_of_annotations hann

theorem Field.typeName_reread_of_semicolon {f : Field} (hw : f.Writable)
    (hann : f.annotations = []) {cs : List Char} (h : f.typeName.toList = cs ++ [';']) :
    f.reread.typeName = String.ofList (trimEnd cs) := by
  show (if f.annotations = [] then _ else _) = _
  rw [if_pos hann, h, settle_concat_semicolon (h ▸ hw.type.trimmed)]

/-- The lines of a printed schema are in order, whatever it lacks. -/
theorem any_concernsOrder_lint_printAll {es : List Entity} (h : ∀ e ∈ es, e.Writable) :
    (lint (printAll es)).any Finding.concernsOrder = false := by
  rw [any_concernsOrder_lint, shapes_printAll h, inOrder_printedShapes]
  rfl

/-- **What printing and reading again makes of any schema that has been read.** Entities and fields
stay with their names. A type changes only where it ends its line in a semicolon, and then it loses
one semicolon and the blanks before it; annotations change at their ends as `rereadAnnotations`
says. No line of the printed text is out of order. -/
theorem parse_printAll_parse (source : String) :
    parse (printAll (parse source)) = (parse source).map Entity.reread
      ∧ (∀ e ∈ parse source, ∀ f ∈ e.fields,
          (f.annotations ≠ [] ∨ f.typeName.toList.getLast? ≠ some ';' →
              f.reread.typeName = f.typeName)
            ∧ ∀ cs, f.annotations = [] → f.typeName.toList = cs ++ [';'] →
              f.reread.typeName = String.ofList (trimEnd cs))
      ∧ ∀ x ∈ lint (printAll (parse source)), x.issue.concernsOrder = false := by
  have hw (e : Entity) (he : e ∈ parse source) : e.Writable := writable_of_mem_parse he
  refine ⟨parse_printAll_of_writable hw, fun e he f hf => ⟨fun hkept => ?_, fun cs hann hcs => ?_⟩,
    fun x hx => ?_⟩
  · have hfield := (hw e he).fields f hf
    rcases hkept with hann | hlast
    · exact Field.typeName_reread_of_annotations hann
    · exact Field.typeName_reread_of_ne hfield hlast
  · exact Field.typeName_reread_of_semicolon ((hw e he).fields f hf) hann hcs
  · have hnone := List.any_eq_false.mp (any_concernsOrder_lint_printAll hw) x hx
    exact Bool.eq_false_iff.mpr hnone

end EntitySchema
