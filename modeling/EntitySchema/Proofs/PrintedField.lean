import EntitySchema.Printing
import EntitySchema.Proofs.Writable

/-!
# The line of a printed field

A field is printed on a line of its own, and the line is read like any other. What it declares is
`Field.reread`: the same field, but for the end of the line. The reader trims a line and leaves
out one semicolon at its end, so this is what the last word of a field loses, the type where there
are no annotations and the last annotation where there are some.

The argument goes from the inside out: the annotations (`annotations_of_line`), what follows the
colon (`splitField_printed`), the line (`classify_line`).
-/

namespace EntitySchema

open Text

/-- What a field line keeps of its end: the blanks go, one semicolon goes, and so do the blanks
before it. -/
def settle (cs : List Char) : List Char := trimEnd (dropSemicolon (trimEnd cs))

/-- The annotations that the line of a field with these annotations declares. A last annotation of
which only the sign is left is none. -/
def rereadAnnotations : List Annotation → List Annotation
  | [] => []
  | [a] =>
    let text := settle a.text.toList
    if text = ['@'] then [] else [⟨String.ofList text⟩]
  | a :: b :: more => ⟨String.ofList (trimEnd a.text.toList)⟩ :: rereadAnnotations (b :: more)

/-- The field that the line of a field declares. -/
def Field.reread (f : Field) : Field where
  name := f.name
  typeName := if f.annotations = [] then String.ofList (settle f.typeName.toList) else f.typeName
  annotations := rereadAnnotations f.annotations

/-! ## The end of a line -/

theorem dropSemicolon_concat (as : List Char) : dropSemicolon (as ++ [';']) = as := by
  unfold dropSemicolon
  rw [if_pos List.getLast?_concat, List.dropLast_concat]

theorem dropSemicolon_of_ne {cs : List Char} (h : cs.getLast? ≠ some ';') :
    dropSemicolon cs = cs := if_neg h

/-- Only the end of a text can lose a semicolon. -/
theorem dropSemicolon_append_cons {c : Char} (hc : c ≠ ';') (as bs : List Char) :
    dropSemicolon (as ++ c :: bs) = as ++ c :: dropSemicolon bs := by
  by_cases h : bs.getLast? = some ';'
  · obtain ⟨init, rfl⟩ := List.getLast?_eq_some_iff.mp h
    have hassoc : as ++ c :: (init ++ [';']) = (as ++ c :: init) ++ [';'] := by simp
    rw [hassoc, dropSemicolon_concat, dropSemicolon_concat]
  · have hlast : (as ++ c :: bs).getLast? ≠ some ';' := by
      cases bs with
      | nil => simpa using hc
      | cons b bs => simpa [List.getLast?_append, List.getLast?_cons_cons] using h
    rw [dropSemicolon_of_ne h, dropSemicolon_of_ne hlast]

theorem settle_cons {c : Char} (hblank : isBlank c = false) (hc : c ≠ ';') (cs : List Char) :
    settle (c :: cs) = c :: settle cs := by
  have hdrop : dropSemicolon (c :: trimEnd cs) = c :: dropSemicolon (trimEnd cs) :=
    dropSemicolon_append_cons hc [] _
  unfold settle
  rw [trimEnd_cons_of_not_blank hblank, hdrop, trimEnd_cons_of_not_blank hblank]

/-- The sign of an annotation is not at the end, so the end is that of the text after it. -/
theorem settle_sign {a : Annotation} {cs : List Char} (h : a.text.toList = '@' :: cs) :
    settle a.text.toList = '@' :: settle cs := by
  rw [h, settle_cons (by decide) (by decide)]

theorem trimEnd_sign {a : Annotation} {cs : List Char} (h : a.text.toList = '@' :: cs) :
    trimEnd a.text.toList = '@' :: trimEnd cs := by
  rw [h, trimEnd_cons_of_not_blank (by decide)]

/-- A last annotation is left out or ends where the line ends. -/
theorem rereadAnnotations_singleton {a : Annotation} {cs : List Char}
    (h : a.text.toList = '@' :: cs) :
    rereadAnnotations [a]
      = if settle cs = [] then [] else [⟨String.ofList ('@' :: settle cs)⟩] := by
  simp only [rereadAnnotations, settle_sign h, List.cons.injEq, true_and]

/-- A text that does not start with a blank is not trimmed away. -/
theorem trimEnd_eq_nil_iff {cs : List Char} (h : trimStart cs = cs) :
    trimEnd cs = [] ↔ cs = [] := by
  cases cs with
  | nil => simp
  | cons c cs =>
    have hc : isBlank c = false := trimStart_eq_self_iff.mp h c rfl
    rw [trimEnd_cons_of_not_blank hc]
    simp

/-! ## The annotations of a line -/

/-- The annotations as a field line has them after the type. -/
def annotationChars (as : List Annotation) : List Char :=
  as.flatMap fun a => ' ' :: a.text.toList

/-- The annotations that these pieces between signs give. -/
def annotationsOf (pieces : List (List Char)) : List Annotation :=
  (Line.dropTrailingEmpty pieces).map fun p => .ofName (String.ofList (Line.annotationName p))

theorem dropTrailingEmpty_cons {t : List Char} (h : t ≠ []) (ts : List (List Char)) :
    Line.dropTrailingEmpty (t :: ts) = t :: Line.dropTrailingEmpty ts := by
  unfold Line.dropTrailingEmpty
  rw [List.reverse_cons, List.dropWhile_append]
  split
  · next hnil =>
    rw [List.isEmpty_iff.mp hnil, List.dropWhile_cons_of_neg (by simpa using h)]
    rfl
  · simp

/-- A piece without spaces inside gives what is left when the blanks at its end are gone. -/
theorem annotationName_of_annotationText {cs : List Char} (h : AnnotationText cs)
    (space : List Char) (hspace : space = [] ∨ space = [' ']) :
    Line.annotationName (cs ++ space) = trimEnd cs := by
  have htrim : trim (cs ++ space) = trimEnd cs := by
    rcases hspace with rfl | rfl
    · rw [List.append_nil, trim_of_trimStart h.start]
    · cases cs with
      | nil => rfl
      | cons c cs =>
        have hc : isBlank c = false := trimStart_eq_self_iff.mp h.start c rfl
        rw [List.cons_append, trim_of_trimStart (trimStart_cons_of_not_blank hc _),
          ← List.cons_append, trimEnd_concat, if_pos (by decide)]
  unfold Line.annotationName
  rw [htrim, List.takeWhile_eq_self_iff]
  intro c hc
  have hne : c ≠ ' ' := fun e => h.space (e ▸ (trimEnd_isPrefix cs).subset hc)
  simpa using hne

/-- A shorter text can follow a sign as well. -/
theorem AnnotationText.of_isPrefix {as bs : List Char} (h : AnnotationText bs) (hp : as <+: bs) :
    AnnotationText as where
  start := trimStart_of_isPrefix hp h.start
  oneLine := h.oneLine.of_subset hp.subset
  space := fun hm => h.space (hp.subset hm)
  sign := fun hm => h.sign (hp.subset hm)

/-- The last annotation ends where the line ends. -/
theorem annotations_of_last {a : Annotation} {cs : List Char} (ha : a.text.toList = '@' :: cs)
    (h : AnnotationText cs) :
    annotationsOf ((dropSemicolon (trimEnd cs)).splitOn '@') = rereadAnnotations [a] := by
  have hpre : dropSemicolon (trimEnd cs) <+: cs :=
    (dropSemicolon_isPrefix _).trans (trimEnd_isPrefix cs)
  have htext := h.of_isPrefix hpre
  have hname := annotationName_of_annotationText htext [] (Or.inl rfl)
  rw [List.append_nil] at hname
  rw [List.splitOn_eq_singleton htext.sign, rereadAnnotations_singleton ha]
  by_cases hnil : dropSemicolon (trimEnd cs) = []
  · have hs : settle cs = [] := by unfold settle; rw [hnil]; rfl
    rw [if_pos hs, hnil]
    rfl
  · have hs : ¬settle cs = [] := fun hs => hnil ((trimEnd_eq_nil_iff htext.start).mp hs)
    rw [if_neg hs, ← Annotation.ofName_ofList]
    unfold annotationsOf
    rw [dropTrailingEmpty_cons hnil, List.map_cons, hname]
    rfl

/-- **The annotations of a printed line.** Without the first sign they are split at the others, and
every annotation but the last keeps the space that follows it until it is trimmed. -/
theorem annotations_of_line (more : List Annotation) (hmore : ∀ b ∈ more, b.Writable) :
    ∀ (a : Annotation) (cs : List Char), a.text.toList = '@' :: cs → AnnotationText cs →
      annotationsOf ((dropSemicolon (trimEnd (cs ++ annotationChars more))).splitOn '@')
        = rereadAnnotations (a :: more) := by
  induction more with
  | nil =>
    intro a cs ha h
    have hline : cs ++ annotationChars [] = cs := List.append_nil cs
    rw [hline]
    exact annotations_of_last ha h
  | cons b more ih =>
    intro a cs ha h
    obtain ⟨hb, hrest⟩ := List.forall_mem_cons.mp hmore
    obtain ⟨ds, hds, hdtext⟩ := hb
    have hline : cs ++ annotationChars (b :: more)
        = (cs ++ [' ']) ++ '@' :: (ds ++ annotationChars more) := by
      simp [annotationChars, hds]
    have hsign : '@' ∉ cs ++ [' '] := by simpa using h.sign
    have hne : cs ++ [' '] ≠ [] := by simp
    rw [hline, trimEnd_append_cons (by decide), dropSemicolon_append_cons (by decide),
      List.splitOn_append_cons_self_of_not_mem hsign]
    unfold annotationsOf
    rw [dropTrailingEmpty_cons hne, List.map_cons,
      annotationName_of_annotationText h [' '] (Or.inr rfl), Annotation.ofName_ofList,
      rereadAnnotations, trimEnd_sign ha, ← ih hrest b ds hds hdtext]
    rfl

/-! ## The line of a field -/

/-- What stands after the colon of a printed field. -/
def Field.afterColon (f : Field) : List Char :=
  ' ' :: (f.typeName.toList ++ annotationChars f.annotations)

/-- **What follows the colon of a printed field.** -/
theorem splitField_printed {f : Field} (h : f.Writable) :
    (Line.splitField f.name.toList (trimEnd f.afterColon)).toField = f.reread := by
  have hrest : trim (trimEnd f.afterColon)
      = trim (f.typeName.toList ++ annotationChars f.annotations) := by
    rw [trim_trimEnd]
    exact trim_cons_of_blank (by decide) _
  obtain ⟨type, pieces, hpieces, hsplit⟩ := splitType_pieces (trim (trimEnd f.afterColon))
  have hfield : (Line.splitField f.name.toList (trimEnd f.afterColon)).toField
      = ⟨f.name, String.ofList (trim type), annotationsOf pieces⟩ := by
    unfold Line.splitField
    rw [hsplit, h.name.trimmed]
    simp [FieldLine.toField, annotationsOf, Function.comp_def]
  rw [hfield]
  rw [hrest] at hpieces
  obtain ⟨htypeStart, htypeEnd⟩ := trim_eq_self_iff.mp h.type.trimmed
  cases hann : f.annotations with
  | nil =>
      -- no sign: the type is the whole rest of the line
      have hpre := dropSemicolon_isPrefix f.typeName.toList
      have hsign : '@' ∉ dropSemicolon f.typeName.toList := fun hm => h.sign (hpre.subset hm)
      have hsettle : settle f.typeName.toList = trim (dropSemicolon f.typeName.toList) := by
        rw [trim_of_trimStart (trimStart_of_isPrefix hpre htypeStart)]
        unfold settle
        rw [htypeEnd]
      have htail : f.typeName.toList ++ annotationChars f.annotations = f.typeName.toList := by
        rw [hann]; exact List.append_nil _
      rw [htail, h.type.trimmed, List.splitOn_eq_singleton hsign] at hpieces
      obtain ⟨rfl, rfl⟩ := List.cons.inj hpieces
      simp [Field.reread, hann, hsettle, rereadAnnotations, annotationsOf, Line.dropTrailingEmpty]
  | cons a more =>
      -- the first sign ends the type, and the semicolon is looked for after it
      obtain ⟨⟨cs, hcs, htext⟩, hmore⟩ := List.forall_mem_cons.mp (hann ▸ h.annotations)
      have htail : f.typeName.toList ++ annotationChars f.annotations
          = (f.typeName.toList ++ [' ']) ++ '@' :: (cs ++ annotationChars more) := by
        simp [hann, annotationChars, hcs]
      have htype : '@' ∉ trimStart (f.typeName.toList ++ [' ']) := fun hm => by
        have := (trimStart_isSuffix _).subset hm
        simp [h.sign] at this
      rw [htail, trim_append_cons (by decide), dropSemicolon_append_cons (by decide),
        List.splitOn_append_cons_self_of_not_mem htype] at hpieces
      obtain ⟨rfl, rfl⟩ := List.cons.inj hpieces
      have htrim : trim (trimStart (f.typeName.toList ++ [' '])) = f.typeName.toList := by
        have hspace : trimEnd (f.typeName.toList ++ [' ']) = f.typeName.toList := by
          rw [trimEnd_concat, if_pos (by decide), htypeEnd]
        unfold trim
        rw [trimStart_idem, ← trimStart_trimEnd, hspace, htypeStart]
      rw [htrim, annotations_of_line more hmore a cs hcs htext]
      simp [Field.reread, hann]

/-- The line of a printed field, without its line feed. -/
def Field.line (f : Field) : List Char :=
  [' ', ' ', ' ', ' '] ++ (f.name.toList ++ ':' :: f.afterColon)

theorem Field.toList_print (f : Field) : f.print.toList = f.line ++ ['\n'] := by
  simp [Field.print, Field.line, Field.afterColon, annotationChars, List.flatMap_map]

theorem oneLine_annotationChars {as : List Annotation} (h : ∀ a ∈ as, a.Writable) :
    OneLine (annotationChars as) := by
  induction as with
  | nil => exact OneLine.nil
  | cons a as ih =>
    obtain ⟨⟨cs, hcs, htext⟩, has⟩ := List.forall_mem_cons.mp h
    have hline : annotationChars (a :: as) = ' ' :: '@' :: (cs ++ annotationChars as) := by
      simp [annotationChars, hcs]
    rw [hline]
    simpa using ⟨htext.oneLine, ih has⟩

theorem oneLine_line {f : Field} (h : f.Writable) : OneLine f.line := by
  have hafter : OneLine f.afterColon := by
    unfold Field.afterColon
    simpa using ⟨h.type.oneLine, oneLine_annotationChars h.annotations⟩
  unfold Field.line
  simpa using ⟨h.name.oneLine, hafter⟩

/-- What the line of a printed field is. -/
def Field.lineShape (f : Field) : Line :=
  .field (Line.splitField f.name.toList (trimEnd f.afterColon))

/-- **The line of a printed field is a field line.** -/
theorem classify_line {f : Field} (h : f.Writable) :
    Line.classify (trim f.line) = f.lineShape := by
  have hstart : trimStart f.name.toList = f.name.toList :=
    (trim_eq_self_iff.mp h.name.trimmed).1
  have htrim : trim f.line = f.name.toList ++ ':' :: trimEnd f.afterColon := by
    show trim (' ' :: ' ' :: ' ' :: ' ' :: (f.name.toList ++ ':' :: f.afterColon)) = _
    iterate 4 rw [trim_cons_of_blank (by decide)]
    rw [trim_append_cons (by decide), hstart]
  rw [htrim, Line.classify_colon h.colon h.opens]
  rfl

end EntitySchema
