import EntitySchema.Proofs.Classify
import EntitySchema.Proofs.Order
import EntitySchema.Proofs.Segments

/-!
# What a clean text declares, line by line

A line has content if it is not blank, no comment, and more than a closing brace. In lines that are
in order each header adds an entity and each field line a field, and no other line adds anything
(`Scan.oneMore_advance`, `Scan.entities_advance_of_not_declares`), so the declarations can be
counted by the lines (`Scan.declarationCount_feedAll`). Content that is lost without a word is what
stands behind a closing brace on its line: there is nothing else in a clean text
(`countP_hasContent_of_clean`).
-/

namespace EntitySchema

/-- Whether the line is more than a blank, a comment or a closing brace. -/
def SourceLine.hasContent (l : SourceLine) : Bool :=
  !(l.text.isEmpty || l.text.head? = some '#' || l.text = ['\x7d'])

/-- Whether the line goes on after a closing brace at its start. -/
def SourceLine.goesOnAfterBrace (l : SourceLine) : Bool :=
  l.text.head? = some '\x7d' && l.text ≠ ['\x7d']

/-- The second list has one declaration more: an entity at its end, or a field at the end of its
last entity. -/
inductive OneMore : List Entity → List Entity → Prop
  | entity (es : List Entity) (name : String) : OneMore es (es ++ [⟨name, []⟩])
  | field (es : List Entity) (e : Entity) (f : Field) : OneMore (es ++ [e]) (es ++ [e.addField f])

/-- How many entities and fields there are. -/
def declarationCount (es : List Entity) : Nat :=
  es.length + (es.flatMap Entity.fields).length

/-- What these lines declare when they are read from the start. -/
def declaredBy (ls : List SourceLine) : List Entity := (Parser.new.feedAll ls).entities

theorem declaredBy_eq (ls : List SourceLine) : declaredBy ls = (Scan.start.feedAll ls).entities :=
  (Parser.scans_new.feedAll ls).entities

/-! ## One line -/

theorem declarationCount_append (as bs : List Entity) :
    declarationCount (as ++ bs) = declarationCount as + declarationCount bs := by
  unfold declarationCount
  rw [List.length_append, List.flatMap_append, List.length_append]
  omega

theorem OneMore.declarationCount_eq {es es' : List Entity} (h : OneMore es es') :
    declarationCount es' = declarationCount es + 1 := by
  cases h with
  | entity name => rw [declarationCount_append]; rfl
  | field es e f =>
      rw [declarationCount_append, declarationCount_append]
      simp [declarationCount, Entity.addField]
      omega

theorem not_oneMore_self (es : List Entity) : ¬OneMore es es := by
  intro h
  have hcount := h.declarationCount_eq
  omega

/-- A line that is in order has content exactly if it declares something or goes on after a
closing brace, and never both. -/
theorem SourceLine.hasContent_eq {l : SourceLine} (h : l.shape ≠ .other) :
    l.hasContent = (l.shape.declares || l.goesOnAfterBrace)
      ∧ (l.goesOnAfterBrace = true → l.shape = .close) := by
  obtain ⟨text, span⟩ := l
  cases text with
  | nil => exact ⟨rfl, fun h => absurd h (by simp [goesOnAfterBrace])⟩
  | cons c cs =>
    by_cases hhash : c = '#'
    · subst hhash
      exact ⟨rfl, by simp [goesOnAfterBrace]⟩
    · by_cases hbrace : c = '\x7d'
      · subst hbrace
        refine ⟨?_, fun _ => rfl⟩
        simp [hasContent, goesOnAfterBrace, shape, Line.classify_brace, Line.declares,
          Line.isHeader, Line.headerName?, Line.field?]
      · have hgoes : goesOnAfterBrace ⟨c :: cs, span⟩ = false := by simp [goesOnAfterBrace, hbrace]
        have hcontent : hasContent ⟨c :: cs, span⟩ = true := by
          simp [hasContent, hhash, hbrace]
        refine ⟨?_, fun hgo => absurd hgo (by simp [hgoes])⟩
        rw [hgoes, hcontent]
        rcases Line.classify_cons hhash hbrace cs with ⟨name, hasBrace, hl⟩ | ⟨f, hl⟩ | hl
        · simp [shape, hl, Line.declares, Line.isHeader, Line.headerName?]
        · simp [shape, hl, Line.declares, Line.field?]
        · exact absurd hl h

namespace Scan

variable {s : Scan} {l : Line}

/-- A line that declares something and may stand where it stands adds one declaration. -/
theorem oneMore_advance (h : (s.place.next? l).isSome = true) (hl : l.declares = true) :
    OneMore s.entities (s.advance l).entities := by
  cases l with
  | header name hasBrace =>
      rw [advance_header_entities]
      exact OneMore.entity _ _
  | field f =>
      cases hc : s.current with
      | none => exact absurd h (by simp [Line.Place.next?, place_eq_outside_iff.mpr hc])
      | some o =>
          rw [entities_of_current hc, advance_field_entities hc]
          exact OneMore.field _ _ _
  | _ => exact absurd hl (by decide)

/-- A line that declares nothing adds nothing. -/
theorem entities_advance_of_not_declares (hl : l.declares = false) :
    (s.advance l).entities = s.entities := by
  cases l with
  | header name hasBrace =>
      exact absurd hl (by simp [Line.declares, Line.isHeader, Line.headerName?])
  | field f => exact absurd hl (by simp [Line.declares, Line.field?])
  | close => exact advance_close_entities s
  | _ => rfl

theorem entities_feed (s : Scan) (l : SourceLine) :
    (s.feed l).entities = (s.advance l.shape).entities := by
  rw [feed_eq, report_entities]

/-- **Lines that are in order add as many declarations as there are lines that declare one.** -/
theorem declarationCount_feedAll (ls : List SourceLine) :
    ∀ s : Scan, inOrder s.place (ls.map SourceLine.shape) = true →
      declarationCount (s.feedAll ls).entities
        = declarationCount s.entities + ls.countP fun l => l.shape.declares := by
  induction ls with
  | nil => intro s _; rfl
  | cons l ls ih =>
    intro s h
    rw [List.map_cons, inOrder] at h
    cases hnext : s.place.next? l.shape with
    | none => rw [hnext] at h; exact absurd h (by simp)
    | some p =>
        rw [hnext] at h
        have hrest := ih (s.feed l) (place_feed hnext ▸ h)
        rw [feedAll_cons, hrest, entities_feed, List.countP_cons]
        cases hl : l.shape.declares with
        | true =>
            have hone : OneMore s.entities (s.advance l.shape).entities :=
              oneMore_advance (by rw [hnext]; rfl) hl
            rw [hone.declarationCount_eq, if_pos rfl]
            omega
        | false =>
            rw [entities_advance_of_not_declares hl, if_neg Bool.false_ne_true]
            omega

end Scan

/-! ## Clean texts -/

/-- In a clean text every line may stand where it stands. -/
theorem next?_isSome_of_clean {source : String} (h : lint source = [])
    {before after : List SourceLine} {l : SourceLine}
    (hl : lines source.toList = before ++ l :: after) :
    ((Scan.start.feedAll before).place.next? l.shape).isSome = true := by
  have hfound : (Scan.start.feedAll before).issues (String.ofList l.text) l.shape = [] := by
    -- what is found at the line stays to the end, where nothing has been found
    have hend : ((Scan.start.feedAll before).feedAll (l :: after)).findings = [] := by
      rw [← Scan.feedAll_append, ← hl, ← lint_eq]
      exact h
    have hstep := Scan.findings_prefix_feedAll after ((Scan.start.feedAll before).feed l)
    rw [Scan.feedAll_cons] at hend
    rw [hend, List.prefix_nil, Scan.feed_findings, List.append_eq_nil_iff] at hstep
    exact List.map_eq_nil_iff.mp hstep.2
  have horder := Scan.any_concernsOrder_issues (Scan.start.feedAll before) (String.ofList l.text)
    l.shape
  rw [hfound, List.any_nil] at horder
  rw [← Option.not_isNone, ← horder]
  rfl

theorem shape_ne_other_of_clean {source : String} (h : lint source = []) {l : SourceLine}
    (hl : l ∈ lines source.toList) : l.shape ≠ .other := by
  obtain ⟨before, after, hsplit⟩ := List.append_of_mem hl
  have hnext := next?_isSome_of_clean h hsplit
  intro hother
  rw [hother] at hnext
  exact absurd hnext (by simp [Line.Place.next?])

theorem countP_hasContent {ls : List SourceLine} (h : ∀ l ∈ ls, l.shape ≠ .other) :
    ls.countP SourceLine.hasContent
      = (ls.countP fun l => l.shape.declares) + ls.countP SourceLine.goesOnAfterBrace := by
  induction ls with
  | nil => rfl
  | cons l ls ih =>
    obtain ⟨hl, hls⟩ := List.forall_mem_cons.mp h
    obtain ⟨hcontent, hclose⟩ := SourceLine.hasContent_eq hl
    rw [List.countP_cons, List.countP_cons, List.countP_cons, ih hls, hcontent]
    cases hgo : l.goesOnAfterBrace with
    | true =>
        have hnot : l.shape.declares = false := by rw [hclose hgo]; rfl
        simp only [hnot, Bool.or_true, if_true, Bool.false_eq_true, if_false]
        omega
    | false =>
        simp only [Bool.or_false, Bool.false_eq_true, if_false]
        omega

/-- **The content of a clean text.** It is what the text declares, and the lines that go on after a
closing brace. -/
theorem countP_hasContent_of_clean {source : String} (h : lint source = []) :
    (lines source.toList).countP SourceLine.hasContent
      = declarationCount (parse source)
        + (lines source.toList).countP SourceLine.goesOnAfterBrace := by
  have horder : inOrder .outside (shapes source) = true := ((lint_eq_nil_iff source).mp h).1
  have hcount : declarationCount (parse source)
      = declarationCount Scan.start.entities
        + (lines source.toList).countP fun l => l.shape.declares := by
    rw [parse_eq]
    exact Scan.declarationCount_feedAll (lines source.toList) Scan.start horder
  rw [hcount, countP_hasContent fun l hl => shape_ne_other_of_clean h hl]
  show _ = 0 + _ + _
  rw [Nat.zero_add]

/-- A line with content adds one declaration unless it starts with a closing brace. -/
theorem oneMore_declaredBy_iff {source : String} (h : lint source = [])
    {before after : List SourceLine} {l : SourceLine}
    (hl : lines source.toList = before ++ l :: after) (hcontent : l.hasContent = true) :
    OneMore (declaredBy before) (declaredBy (before ++ [l])) ↔ l.text.head? ≠ some '\x7d' := by
  have hnext := next?_isSome_of_clean h hl
  have hmem : l ∈ lines source.toList := by rw [hl]; simp
  obtain ⟨heq, hclose⟩ := SourceLine.hasContent_eq (shape_ne_other_of_clean h hmem)
  have hstep : declaredBy (before ++ [l])
      = ((Scan.start.feedAll before).advance l.shape).entities := by
    rw [declaredBy_eq, Scan.feedAll_append, Scan.feedAll_cons, Scan.feedAll_nil, Scan.entities_feed]
  have hbrace : l.text.head? = some '\x7d' ↔ l.goesOnAfterBrace = true := by
    have hmore : l.text ≠ ['\x7d'] := by
      intro he
      simp [SourceLine.hasContent, he] at hcontent
    simp [SourceLine.goesOnAfterBrace, hmore]
  rw [hstep, Ne, hbrace]
  cases hgo : l.goesOnAfterBrace with
  | true =>
      have hsame : ((Scan.start.feedAll before).advance l.shape).entities = declaredBy before := by
        rw [hclose hgo, declaredBy_eq]
        exact Scan.advance_close_entities _
      rw [hsame]
      simp [not_oneMore_self]
  | false =>
      have hdeclares : l.shape.declares = true := by
        rw [heq, hgo, Bool.or_false] at hcontent
        exact hcontent
      have hone : OneMore (declaredBy before)
          ((Scan.start.feedAll before).advance l.shape).entities := by
        rw [declaredBy_eq]
        exact Scan.oneMore_advance hnext hdeclares
      simp [hone]

/-- **What becomes of the content of a clean text.** A line with content adds exactly one entity or
one field, unless it starts with a closing brace: then what follows the brace is lost without a
word. So there are as many declarations as lines with content exactly if no line goes on after a
closing brace. -/
theorem declarations_of_clean {source : String} (h : lint source = []) :
    (∀ before l after, lines source.toList = before ++ l :: after → l.hasContent = true →
        (OneMore (declaredBy before) (declaredBy (before ++ [l]))
          ↔ l.text.head? ≠ some '\x7d'))
      ∧ (declarationCount (parse source) = (lines source.toList).countP SourceLine.hasContent
          ↔ ∀ l ∈ lines source.toList, l.text.head? = some '\x7d' → l.text = ['\x7d']) := by
  refine ⟨fun before l after hl hcontent => oneMore_declaredBy_iff h hl hcontent, ?_⟩
  have hnone : (∀ l ∈ lines source.toList, l.text.head? = some '\x7d' → l.text = ['\x7d'])
      ↔ (lines source.toList).countP SourceLine.goesOnAfterBrace = 0 := by
    rw [List.countP_eq_zero]
    refine forall₂_congr fun l _ => ?_
    simp [SourceLine.goesOnAfterBrace]
  rw [hnone, countP_hasContent_of_clean h]
  omega

/-- A clean text that declares a field behind a closing brace: the field is lost. -/
theorem declarations_of_clean_lost :
    lint "entity A \x7b\n    a: b\n\x7d c: d\n" = []
      ∧ declarationCount (parse "entity A \x7b\n    a: b\n\x7d c: d\n")
        ≠ (lines "entity A \x7b\n    a: b\n\x7d c: d\n".toList).countP
            SourceLine.hasContent := by
  decide +kernel

/-- A clean text in which every closing brace has its line: all is counted. -/
theorem declarations_of_clean_kept :
    lint "entity A \x7b\n    a: b\n\x7d\n" = []
      ∧ declarationCount (parse "entity A \x7b\n    a: b\n\x7d\n")
        = (lines "entity A \x7b\n    a: b\n\x7d\n".toList).countP SourceLine.hasContent := by
  have h : lint "entity A \x7b\n    a: b\n\x7d\n" = [] := by decide +kernel
  exact ⟨h, (declarations_of_clean h).2.mpr (by decide +kernel)⟩

end EntitySchema
