import EntitySchema.Proofs.Segments
import EntitySchema.Proofs.Trim

/-!
# The lines of a text and their shapes

No line holds a line end (`oneLine_of_mem_rawLines`), and a text that holds none is one line when
a line feed follows it (`rawLines_line`). With these, the shapes of a text can be read off the way
the text is put together, without a look at where the lines stand.
-/

namespace EntitySchema

/-- The text has no line end in it. -/
def OneLine (cs : List Char) : Prop := '\n' ∉ cs ∧ '\r' ∉ cs

instance (cs : List Char) : Decidable (OneLine cs) := inferInstanceAs (Decidable (_ ∧ _))

namespace OneLine

theorem nil : OneLine [] := ⟨List.not_mem_nil, List.not_mem_nil⟩

theorem of_subset {as bs : List Char} (h : OneLine bs) (hs : as ⊆ bs) : OneLine as :=
  ⟨fun hn => h.1 (hs hn), fun hr => h.2 (hs hr)⟩

@[simp] theorem append_iff {as bs : List Char} :
    OneLine (as ++ bs) ↔ OneLine as ∧ OneLine bs := by
  unfold OneLine
  simp only [List.mem_append, not_or]
  tauto

@[simp] theorem cons_iff {c : Char} {cs : List Char} :
    OneLine (c :: cs) ↔ c ≠ '\n' ∧ c ≠ '\r' ∧ OneLine cs := by
  unfold OneLine
  simp only [List.mem_cons, not_or]
  constructor
  · intro hparts
    obtain ⟨⟨hn, hns⟩, hr, hrs⟩ := hparts
    exact ⟨Ne.symm hn, Ne.symm hr, hns, hrs⟩
  · intro hparts
    obtain ⟨hn, hr, hns, hrs⟩ := hparts
    exact ⟨⟨Ne.symm hn, hns⟩, Ne.symm hr, hrs⟩

end OneLine

/-! ## Cutting -/

theorem oneLine_of_mem_prepend {c : Char} {ls : List RawLine}
    (h : ∀ l ∈ ls, OneLine l.body) : ∀ l ∈ RawLine.prepend c ls, OneLine l.body := by
  unfold RawLine.prepend
  split
  · exact List.forall_mem_cons.mpr ⟨OneLine.nil, h⟩
  · next hlf =>
    split
    · split
      · next rest =>
        exact List.forall_mem_cons.mpr ⟨OneLine.nil, (List.forall_mem_cons.mp h).2⟩
      · exact List.forall_mem_cons.mpr ⟨OneLine.nil, h⟩
    · next hcr =>
      split
      · simpa using ⟨hlf, hcr, OneLine.nil⟩
      · next l rest =>
        obtain ⟨hl, hrest⟩ := List.forall_mem_cons.mp h
        exact List.forall_mem_cons.mpr ⟨OneLine.cons_iff.mpr ⟨hlf, hcr, hl⟩, hrest⟩

/-- No line holds a line end. -/
theorem oneLine_of_mem_rawLines (text : List Char) : ∀ l ∈ rawLines text, OneLine l.body := by
  induction text with
  | nil => intro l hl; exact absurd hl List.not_mem_nil
  | cons c text ih => exact oneLine_of_mem_prepend ih

theorem RawLine.prepend_of_not_end {c : Char} (hlf : c ≠ '\n') (hcr : c ≠ '\r') (l : RawLine)
    (ls : List RawLine) : RawLine.prepend c (l :: ls) = ⟨c :: l.body, l.ending⟩ :: ls := by
  unfold RawLine.prepend
  rw [if_neg hlf, if_neg hcr]

/-- A text without line ends is one line when a line feed follows it. -/
theorem rawLines_line {body : List Char} (h : OneLine body) (rest : List Char) :
    rawLines (body ++ '\n' :: rest) = ⟨body, .lf⟩ :: rawLines rest := by
  induction body with
  | nil => rfl
  | cons c body ih =>
    obtain ⟨hlf, hcr, hbody⟩ := OneLine.cons_iff.mp h
    rw [List.cons_append, rawLines_cons, ih hbody, RawLine.prepend_of_not_end hlf hcr]

/-! ## Two pieces of a text -/

/-- A character in front of some lines changes the first of them only. -/
theorem RawLine.prepend_append (c : Char) {ls : List RawLine} (h : ls ≠ []) (ms : List RawLine) :
    RawLine.prepend c (ls ++ ms) = RawLine.prepend c ls ++ ms := by
  obtain ⟨l, ls, rfl⟩ := List.exists_cons_of_ne_nil h
  unfold RawLine.prepend
  split
  · rfl
  · split
    · obtain ⟨body, ending⟩ := l
      cases body with
      | nil => cases ending <;> rfl
      | cons b body => rfl
    · rfl

theorem rawLines_ne_nil {text : List Char} (h : text ≠ []) : rawLines text ≠ [] := by
  intro hnil
  have hchars := flatMap_chars_rawLines text
  rw [hnil, List.flatMap_nil] at hchars
  exact h hchars.symm

/-- A text can be cut into lines in two pieces when the first one ends in a line feed. -/
theorem rawLines_append_lineFeed (as bs : List Char) :
    rawLines (as ++ ['\n'] ++ bs) = rawLines (as ++ ['\n']) ++ rawLines bs := by
  induction as with
  | nil => rfl
  | cons c as ih =>
    rw [List.cons_append, List.cons_append, rawLines_cons, ih, rawLines_cons,
      RawLine.prepend_append c (rawLines_ne_nil (List.concat_ne_nil '\n' as))]

theorem RawLine.byteSize_chars (l : RawLine) : Text.byteSize l.chars = l.byteSize := by
  unfold RawLine.chars RawLine.byteSize
  rw [Text.byteSize_append, LineEnd.byteSize_chars]

theorem placeLines_append (ls ms : List RawLine) :
    ∀ offset, placeLines offset (ls ++ ms)
      = placeLines offset ls
        ++ placeLines (offset + Text.byteSize (ls.flatMap RawLine.chars)) ms := by
  induction ls with
  | nil => intro offset; rfl
  | cons l ls ih =>
    intro offset
    rw [List.cons_append, placeLines, ih, placeLines, List.flatMap_cons, Text.byteSize_append,
      RawLine.byteSize_chars, Nat.add_assoc, List.cons_append]

/-- **The lines of a text in two pieces.** The first piece ends in a line feed, and the lines of the
second one stand behind it. -/
theorem linesAt_append_lineFeed (offset : Nat) (as bs : List Char) :
    linesAt offset (as ++ ['\n'] ++ bs)
      = linesAt offset (as ++ ['\n'])
        ++ linesAt (offset + Text.byteSize (as ++ ['\n'])) bs := by
  unfold linesAt
  rw [rawLines_append_lineFeed, placeLines_append, flatMap_chars_rawLines]

/-! ## Shapes -/

/-- What a line is, from the text of the line before it is trimmed. -/
def RawLine.shape (l : RawLine) : Line := Line.classify (Text.trim l.body)

/-- What the lines of a text are. -/
def shapesOf (text : List Char) : List Line := (rawLines text).map RawLine.shape

theorem map_shape_placeLines (ls : List RawLine) :
    ∀ offset, (placeLines offset ls).map SourceLine.shape = ls.map RawLine.shape := by
  induction ls with
  | nil => intro offset; rfl
  | cons l ls ih =>
    intro offset
    rw [placeLines, List.map_cons, List.map_cons, ih]
    rfl

/-- The shapes of a schema do not depend on where its lines stand. -/
theorem shapes_eq_shapesOf (source : String) : shapes source = shapesOf source.toList :=
  map_shape_placeLines (rawLines source.toList) 0

@[simp] theorem shapesOf_nil : shapesOf [] = [] := rfl

theorem shapesOf_line {body : List Char} (h : OneLine body) (rest : List Char) :
    shapesOf (body ++ '\n' :: rest) = Line.classify (Text.trim body) :: shapesOf rest := by
  unfold shapesOf
  rw [rawLines_line h, List.map_cons]
  rfl

/-- The shapes of a row of lines come before those of the text after it. -/
theorem shapesOf_lines {α : Type} {line : α → List Char} {as : List α}
    (h : ∀ a ∈ as, OneLine (line a)) (rest : List Char) :
    shapesOf ((as.flatMap fun a => line a ++ ['\n']) ++ rest)
      = as.map (fun a => Line.classify (Text.trim (line a))) ++ shapesOf rest := by
  induction as with
  | nil => rfl
  | cons a as ih =>
    obtain ⟨ha, has⟩ := List.forall_mem_cons.mp h
    rw [List.flatMap_cons, List.append_assoc, List.append_assoc, List.singleton_append,
      shapesOf_line ha, ih has, List.map_cons, List.cons_append]

/-- Every shape is that of a trimmed text without line ends. -/
theorem exists_text_of_mem_shapes {source : String} {l : Line} (h : l ∈ shapes source) :
    ∃ text, Text.trim text = text ∧ OneLine text ∧ l = Line.classify text := by
  rw [shapes_eq_shapesOf] at h
  obtain ⟨raw, hraw, rfl⟩ := List.mem_map.mp h
  have hone := oneLine_of_mem_rawLines _ raw hraw
  exact ⟨Text.trim raw.body, Text.trim_idem _, hone.of_subset (Text.trim_subset _), rfl⟩

end EntitySchema
