import EntitySchema.Proofs.Clean
import EntitySchema.Proofs.RoundTrip

/-!
# Printing what a clean text declares

The lines of a printed schema are in order whatever they say (`inOrder_printedShapes`), so a
printed schema is clean exactly if what it declares is tidy. What it declares is what was printed,
but for the ends of the field lines, and these are all that printing can take from the schema of a
clean text: it keeps the schema exactly if every field is `Settled`. The printed text of a clean
text is almost always clean again. The one way to lose that is a type that is a semicolon, for it
is the end of its line and there is nothing else in it.
-/

namespace EntitySchema

open Text

/-- The line of the field ends in nothing that the reader leaves out. -/
structure Field.Settled (f : Field) : Prop where
  /-- A type at the end of its line does not end in a semicolon. -/
  semicolon : f.annotations = [] → f.typeName.toList.getLast? ≠ some ';'
  /-- No annotation ends in a blank. -/
  blank : ∀ a ∈ f.annotations, ∀ c, a.text.toList.getLast? = some c → isBlank c = false
  /-- The last annotation does not end in a semicolon. -/
  last : ∀ a, f.annotations.getLast? = some a → a.text.toList.getLast? ≠ some ';'

/-! ## The lines of a printed schema are in order -/

theorem inOrder_fields (fs : List Field) (rest : List Line) :
    inOrder .inside (fs.map Field.lineShape ++ rest) = inOrder .inside rest := by
  induction fs with
  | nil => rfl
  | cons f fs ih => exact ih

/-- The lines of a printed entity may stand anywhere, and any lines may follow that may follow a
closing brace. -/
theorem inOrder_printedShapes_append (p : Line.Place) (e : Entity) (rest : List Line) :
    inOrder p (e.printedShapes ++ rest) = inOrder .behind rest := by
  have hheader : inOrder p (e.printedShapes ++ rest)
      = inOrder .inside (e.fields.map Field.lineShape ++ .close :: rest) := by
    rw [Entity.printedShapes_append]
    rfl
  rw [hheader, inOrder_fields]
  rfl

/-- **The lines of a printed schema are in order.** -/
theorem inOrder_printedShapes (es : List Entity) (p : Line.Place) :
    inOrder p (printedShapes es) = true := by
  induction es generalizing p with
  | nil => rfl
  | cons e es ih =>
    cases es with
    | nil =>
        rw [printedShapes_singleton, inOrder_printedShapes_append]
        rfl
    | cons e' es =>
        rw [printedShapes_cons_cons, inOrder_printedShapes_append]
        exact ih .behind

/-- **When a printed schema is clean.** -/
theorem lint_printAll_eq_nil_iff {es : List Entity} (h : ∀ e ∈ es, e.Writable) :
    lint (printAll es) = [] ↔ Tidy (es.map Entity.reread) := by
  rw [lint_eq_nil_iff, shapes_printAll h, parse_printAll_of_writable h]
  exact and_iff_right (inOrder_printedShapes es .outside)

/-! ## What stays tidy -/

/-- A type is lost as a whole only if it is a semicolon. -/
theorem settle_eq_nil_iff {cs : List Char} (h : trim cs = cs) :
    settle cs = [] ↔ cs = [] ∨ cs = [';'] := by
  obtain ⟨hstart, hend⟩ := trim_eq_self_iff.mp h
  have hpre := dropSemicolon_isPrefix cs
  have hsettle : settle cs = [] ↔ dropSemicolon cs = [] := by
    unfold settle
    rw [hend]
    exact trimEnd_eq_nil_iff (trimStart_of_isPrefix hpre hstart)
  rw [hsettle]
  constructor
  · intro hnil
    by_cases hlast : cs.getLast? = some ';'
    · obtain ⟨init, rfl⟩ := List.getLast?_eq_some_iff.mp hlast
      rw [dropSemicolon_concat] at hnil
      exact Or.inr (by rw [hnil]; rfl)
    · rw [dropSemicolon_of_ne hlast] at hnil
      exact Or.inl hnil
  · rintro (rfl | rfl) <;> rfl

/-- An annotation is a bare sign if nothing follows the sign. -/
theorem not_bare_iff {a : Annotation} {cs : List Char}
    (h : a.text.toList = '@' :: cs) : a.isEmpty = false ↔ cs ≠ [] := by
  unfold Annotation.isEmpty Annotation.name Annotation.dropSign
  rw [h]
  simp

/-- What is read again of annotations that are no bare signs is no bare sign either. -/
theorem any_isEmpty_rereadAnnotations {as : List Annotation} (h : ∀ a ∈ as, a.Writable)
    (hsign : as.any Annotation.isEmpty = false) :
    (rereadAnnotations as).any Annotation.isEmpty = false := by
  induction as with
  | nil => rfl
  | cons a as ih =>
    obtain ⟨⟨cs, hcs, htext⟩, has⟩ := List.forall_mem_cons.mp h
    rw [List.any_cons, Bool.or_eq_false_iff] at hsign
    cases as with
    | nil =>
        rw [rereadAnnotations_singleton hcs]
        by_cases hnil : settle cs = []
        · rw [if_pos hnil]
          rfl
        · rw [if_neg hnil, List.any_cons, List.any_nil, Bool.or_false]
          exact (not_bare_iff (by simp)).mpr hnil
    | cons b more =>
        have hne : trimEnd cs ≠ [] := by
          rw [Ne, trimEnd_eq_nil_iff htext.start]
          exact (not_bare_iff hcs).mp hsign.1
        rw [rereadAnnotations, List.any_cons, Bool.or_eq_false_iff, trimEnd_sign hcs]
        exact ⟨(not_bare_iff (by simp)).mpr hne, ih has hsign.2⟩

/-- A tidy field stays tidy unless its line ends in a type that is a semicolon. -/
theorem Field.tidy_reread {f : Field} (hw : f.Writable) (ht : f.Tidy) :
    f.reread.Tidy ↔ (f.annotations = [] → f.typeName ≠ ";") := by
  have hann := any_isEmpty_rereadAnnotations hw.annotations ht.annotations
  have htype : f.reread.typeName ≠ "" ↔ (f.annotations = [] → f.typeName ≠ ";") := by
    by_cases hnil : f.annotations = []
    · have hreread : f.reread.typeName = String.ofList (settle f.typeName.toList) := if_pos hnil
      have hempty : f.typeName.toList ≠ [] := fun he => ht.type (String.toList_eq_nil_iff.mp he)
      have hsemicolon : f.typeName = ";" ↔ f.typeName.toList = [';'] := by
        rw [← String.toList_inj]
        rfl
      rw [hreread, Ne, ← String.toList_eq_nil_iff, String.toList_ofList,
        settle_eq_nil_iff hw.type.trimmed, or_iff_right hempty, ← hsemicolon]
      exact ⟨fun hne _ => hne, fun hne => hne hnil⟩
    · have hreread : f.reread.typeName = f.typeName := if_neg hnil
      rw [hreread]
      exact ⟨fun _ h => absurd h hnil, fun _ => ht.type⟩
  rw [← htype]
  exact ⟨fun h => h.type, fun h => ⟨ht.name, h, hann⟩⟩

/-- All names stay, so tidy entities stay tidy exactly if their fields do. -/
theorem tidy_map_reread {es : List Entity} (ht : Tidy es) :
    Tidy (es.map Entity.reread) ↔ ∀ e ∈ es, ∀ f ∈ e.fields, f.reread.Tidy := by
  have hnames : (es.map Entity.reread).map Entity.name = es.map Entity.name := by
    simp [Entity.reread]
  have hfields (e : Entity) : e.reread.fieldNames = e.fieldNames := by
    simp [Entity.reread, Entity.fieldNames, Field.reread]
  constructor
  · intro h e he f hf
    have hreread := h.entities _ (List.mem_map_of_mem he)
    exact hreread.fields _ (List.mem_map_of_mem hf)
  · intro h
    refine ⟨fun e' he' => ?_, by rw [hnames]; exact ht.distinct⟩
    obtain ⟨e, he, rfl⟩ := List.mem_map.mp he'
    refine ⟨(ht.entities e he).name, fun f' hf' => ?_, ?_⟩
    · obtain ⟨f, hf, rfl⟩ := List.mem_map.mp hf'
      exact h e he f hf
    · rw [hfields]
      exact (ht.entities e he).distinct

/-! ## What stays as it is -/

/-- A tidy field stays as it is exactly if it is settled. -/
theorem Field.reread_eq_self_iff_settled {f : Field} (hw : f.Writable) (ht : f.Tidy) :
    f.reread = f ↔ f.Settled := by
  have hend := (trim_eq_self_iff.mp hw.type.trimmed).2
  -- a last annotation of a tidy field has a text after its sign
  have hlast (a : Annotation) (ha : f.annotations.getLast? = some a) :
      (∃ cs, a.text.toList = '@' :: cs ∧ cs ≠ [] ∧ cs.getLast? ≠ some ';')
        ↔ a.text.toList.getLast? ≠ some ';' := by
    have hmem : a ∈ f.annotations := List.mem_of_getLast? ha
    obtain ⟨cs, hcs, -⟩ := hw.annotations a hmem
    have hne : cs ≠ [] := by
      have hsign : a.isEmpty = false := by
        simpa using List.any_eq_false.mp ht.annotations a hmem
      exact (not_bare_iff hcs).mp hsign
    rw [hcs, Ne, getLast?_sign_cons]
    constructor
    · intro hparts
      obtain ⟨ds, hds, -, hl⟩ := hparts
      rw [(List.cons.inj hds).2]
      exact hl
    · intro hl
      exact ⟨cs, rfl, hne, hl⟩
  rw [Field.reread_eq_self_iff, rereadAnnotations_eq_self_iff hw.annotations, settle_eq_self_iff]
  constructor
  · intro hparts
    obtain ⟨htype, hblank, hl⟩ := hparts
    exact {
      semicolon := fun hnil => (htype hnil).2
      blank := fun a ha => trimEnd_eq_self_iff.mp (hblank a ha)
      last := fun a ha => (hlast a ha).mp (hl a ha) }
  · intro h
    refine ⟨fun hnil => ⟨hend, h.semicolon hnil⟩, fun a ha => ?_, fun a ha => ?_⟩
    · exact trimEnd_eq_self_iff.mpr (h.blank a ha)
    · exact (hlast a ha).mpr (h.last a ha)

/-- **What printing keeps of a clean text.** The schema comes back exactly if every field is
settled, and then the printed text is clean too. The printed text alone is clean exactly if no line
ends in a type that is a semicolon. -/
theorem printAll_of_clean {source : String} (h : lint source = []) :
    (parse (printAll (parse source)) = parse source ∧ lint (printAll (parse source)) = []
        ↔ ∀ e ∈ parse source, ∀ f ∈ e.fields, f.Settled)
      ∧ (parse (printAll (parse source)) = parse source
        ↔ ∀ e ∈ parse source, ∀ f ∈ e.fields, f.Settled)
      ∧ (lint (printAll (parse source)) = []
        ↔ ∀ e ∈ parse source, ∀ f ∈ e.fields, f.annotations = [] → f.typeName ≠ ";") := by
  have hw (e : Entity) (he : e ∈ parse source) : e.Writable := writable_of_mem_parse he
  have htidy : Tidy (parse source) := ((lint_eq_nil_iff source).mp h).2
  have hparse : parse (printAll (parse source)) = parse source
      ↔ ∀ e ∈ parse source, ∀ f ∈ e.fields, f.Settled := by
    rw [parse_printAll_eq_self_iff hw]
    refine forall₂_congr fun e he => ?_
    rw [Entity.reread_eq_self_iff]
    exact forall₂_congr fun f hf =>
      Field.reread_eq_self_iff_settled ((hw e he).fields f hf) ((htidy.entities e he).fields f hf)
  have hlint : lint (printAll (parse source)) = []
      ↔ ∀ e ∈ parse source, ∀ f ∈ e.fields, f.annotations = [] → f.typeName ≠ ";" := by
    rw [lint_printAll_eq_nil_iff hw, tidy_map_reread htidy]
    exact forall₂_congr fun e he => forall₂_congr fun f hf =>
      Field.tidy_reread ((hw e he).fields f hf) ((htidy.entities e he).fields f hf)
  refine ⟨⟨fun hboth => hparse.mp hboth.1, fun hs => ⟨hparse.mpr hs, ?_⟩⟩, hparse, hlint⟩
  -- a semicolon ends in a semicolon
  refine hlint.mpr fun e he f hf hnil hsemicolon => (hs e he f hf).semicolon hnil ?_
  rw [hsemicolon]
  rfl

/-- A field of a clean text that is not settled: it loses its second semicolon. -/
theorem printAll_of_clean_not_settled :
    lint "entity A \x7b\n    a: b;;\n\x7d\n" = []
      ∧ parse (printAll (parse "entity A \x7b\n    a: b;;\n\x7d\n"))
        ≠ parse "entity A \x7b\n    a: b;;\n\x7d\n" := by
  decide +kernel

/-- A field of a clean text that is settled: one semicolon is no part of its type. -/
theorem printAll_of_clean_settled :
    lint "entity A \x7b\n    a: b;\n\x7d\n" = []
      ∧ parse (printAll (parse "entity A \x7b\n    a: b;\n\x7d\n"))
        = parse "entity A \x7b\n    a: b;\n\x7d\n" := by
  have h : lint "entity A \x7b\n    a: b;\n\x7d\n" = [] := by decide +kernel
  have hparse : parse "entity A \x7b\n    a: b;\n\x7d\n" = [⟨"A", [⟨"a", "b", []⟩]⟩] := by
    decide +kernel
  refine ⟨h, (printAll_of_clean h).2.1.mpr ?_⟩
  intro e he f hf
  rw [hparse, List.mem_singleton] at he
  rw [he, List.mem_singleton] at hf
  rw [hf]
  exact ⟨fun _ => by decide, by simp, by simp⟩

end EntitySchema
