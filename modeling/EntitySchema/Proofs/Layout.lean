import Mathlib.Logic.Relation
import EntitySchema.Proofs.Speaking

/-!
# Layout does not matter

What is read from a text depends on the trimmed lines that are neither blank nor comments, and on
nothing else about it: `spokenLines` are these lines, and two texts with the same ones have the same
entities and the same findings, up to the places of the lines.

How a text may be laid out in other ways is then a question about `spokenLines` alone. These are the
pieces of the text between single line end characters (`spokenLines_eq_spokenIn`): that a carriage
return and a line feed can be one line end makes no difference, for what would stand between the two
is empty. So the pieces of two texts put together at a line end are those of the two
(`spokenIn_append`), and each change of the layout (`Relaid`) is a change of a piece that is trimmed
away.
-/

namespace EntitySchema

/-! ## What is read depends on the lines that speak -/

/-- Whether a trimmed line has some text that does not start with the sign of a comment. -/
def isSpoken (text : List Char) : Bool := !(text.isEmpty || text.head? == some '#')

/-- The trimmed lines of a source that are neither blank nor comments. -/
def spokenLines (source : String) : List (List Char) :=
  ((lines source.toList).map SourceLine.text).filter isSpoken

theorem spokenLines_eq_map_filter (source : String) :
    spokenLines source = ((lines source.toList).filter SourceLine.speaks).map SourceLine.text := by
  have hspeaks : isSpoken ∘ SourceLine.text = SourceLine.speaks :=
    funext fun l => (Line.speaks_classify l.text).symm
  unfold spokenLines
  rw [List.filter_map, hspeaks]

/-- The state after lines with these texts, at no place in particular. -/
def Scan.ofTexts (texts : List (List Char)) : Scan :=
  Scan.start.feedAll (texts.map fun text => ⟨text, ⟨0, 0⟩⟩)

/-- But for the places of its findings, the pass over a source is one over the lines that speak. -/
theorem Scan.mapSpan_feedAll_lines (source : String) :
    (Scan.start.feedAll (lines source.toList)).mapSpan (fun _ => ⟨0, 0⟩)
      = Scan.ofTexts (spokenLines source) := by
  rw [← Scan.feedAll_filter_speaks, ← Scan.feedAll_mapSpan, Scan.mapSpan_start,
    spokenLines_eq_map_filter]
  unfold Scan.ofTexts
  rw [List.map_map]
  rfl

theorem parse_eq_ofTexts (source : String) :
    parse source = (Scan.ofTexts (spokenLines source)).entities := by
  rw [parse_eq, ← Scan.mapSpan_feedAll_lines, Scan.entities_mapSpan]

theorem map_issue_lint_eq_ofTexts (source : String) :
    (lint source).map Finding.issue
      = (Scan.ofTexts (spokenLines source)).findings.map Finding.issue := by
  rw [lint_eq, ← Scan.mapSpan_feedAll_lines, Scan.findings_mapSpan, List.map_map]
  rfl

/-! ## The lines that speak, without the lines -/

/-- Whether the character ends a line, alone or together with another. -/
def isLineEnd (c : Char) : Bool := c == '\n' || c == '\r'

/-- Those of the texts that speak when they are trimmed. -/
def spoken (texts : List (List Char)) : List (List Char) :=
  (texts.map Text.trim).filter isSpoken

/-- What speaks in a text: the pieces between its line end characters that do. -/
def spokenIn (text : List Char) : List (List Char) := spoken (text.splitOnP isLineEnd)

theorem spoken_append (as bs : List (List Char)) : spoken (as ++ bs) = spoken as ++ spoken bs := by
  unfold spoken
  rw [List.map_append, List.filter_append]

theorem spoken_cons (text : List Char) (texts : List (List Char)) :
    spoken (text :: texts) = spoken [text] ++ spoken texts := spoken_append [text] texts

/-- Only the trimmed text counts. -/
theorem spoken_cons_congr {as bs : List Char} (h : Text.trim as = Text.trim bs)
    (texts : List (List Char)) : spoken (as :: texts) = spoken (bs :: texts) := by
  unfold spoken
  rw [List.map_cons, List.map_cons, h]

/-- The text of the first line, which is empty when there is none. -/
def firstBody : List RawLine → List Char
  | [] => []
  | l :: _ => l.body

/-- The first line of no lines would be empty, and that does not speak. -/
theorem spoken_firstBody_cons (ls : List RawLine) :
    spoken (firstBody ls :: ls.tail.map RawLine.body) = spoken (ls.map RawLine.body) := by
  cases ls <;> rfl

/-- A line end character opens a new line. A line feed that it takes into its line end was an empty
line before. -/
theorem prepend_of_isLineEnd {c : Char} (h : isLineEnd c = true) (ls : List RawLine) :
    firstBody (RawLine.prepend c ls) = []
      ∧ spoken ((RawLine.prepend c ls).tail.map RawLine.body) = spoken (ls.map RawLine.body) := by
  unfold RawLine.prepend
  by_cases hlf : c = '\n'
  · rw [if_pos hlf]
    exact ⟨rfl, rfl⟩
  · have hcr : c = '\r' := by simpa [isLineEnd, hlf] using h
    rw [if_neg hlf, if_pos hcr]
    split
    · exact ⟨rfl, rfl⟩
    · exact ⟨rfl, rfl⟩

/-- Any other character goes to the front of the first line. -/
theorem prepend_of_not_isLineEnd {c : Char} (h : isLineEnd c = false) (ls : List RawLine) :
    firstBody (RawLine.prepend c ls) = c :: firstBody ls
      ∧ (RawLine.prepend c ls).tail = ls.tail := by
  have hends : ¬ c = '\n' ∧ ¬ c = '\r' := by simpa [isLineEnd] using h
  unfold RawLine.prepend
  rw [if_neg hends.1, if_neg hends.2]
  cases ls <;> exact ⟨rfl, rfl⟩

/-- The first piece of a text is its first line, and what speaks in the others is what speaks in the
other lines. -/
theorem splitOnP_isLineEnd (text : List Char) :
    ∃ rest, text.splitOnP isLineEnd = firstBody (rawLines text) :: rest
      ∧ spoken rest = spoken ((rawLines text).tail.map RawLine.body) := by
  induction text with
  | nil => exact ⟨[], rfl, rfl⟩
  | cons c text ih =>
    obtain ⟨rest, hsplit, hrest⟩ := ih
    rw [rawLines_cons]
    cases hc : isLineEnd c with
    | true =>
      obtain ⟨hfirst, htail⟩ := prepend_of_isLineEnd hc (rawLines text)
      refine ⟨text.splitOnP isLineEnd, ?_, ?_⟩
      · rw [hfirst, List.splitOnP_cons_eq_if_modifyHead, if_pos hc]
      · rw [htail, hsplit, spoken_cons, hrest, ← spoken_cons, spoken_firstBody_cons]
    | false =>
      obtain ⟨hfirst, htail⟩ := prepend_of_not_isLineEnd hc (rawLines text)
      refine ⟨rest, ?_, ?_⟩
      · rw [hfirst, List.splitOnP_cons_eq_if_modifyHead, if_neg (by simp [hc]), hsplit]
        rfl
      · rw [htail, hrest]

theorem map_text_placeLines (ls : List RawLine) :
    ∀ offset, (placeLines offset ls).map SourceLine.text
      = (ls.map RawLine.body).map Text.trim := by
  induction ls with
  | nil => intro offset; rfl
  | cons l ls ih =>
    intro offset
    rw [placeLines, List.map_cons, ih]
    rfl

/-- **What speaks in the lines of a source is what speaks between its line end characters.** -/
theorem spokenLines_eq_spokenIn (source : String) :
    spokenLines source = spokenIn source.toList := by
  obtain ⟨rest, hsplit, hrest⟩ := splitOnP_isLineEnd source.toList
  unfold spokenIn
  rw [hsplit, spoken_cons, hrest, ← spoken_cons, spoken_firstBody_cons]
  unfold spokenLines lines linesAt
  rw [map_text_placeLines]
  rfl

/-! ## Two pieces of a text, put together at a line end -/

theorem spokenIn_nil : spokenIn [] = [] := rfl

theorem spokenIn_append_cons {c : Char} (h : isLineEnd c = true) (as bs : List Char) :
    spokenIn (as ++ c :: bs) = spokenIn as ++ spokenIn bs := by
  unfold spokenIn
  rw [List.splitOnP_append_cons as bs h, spoken_append]

/-- The text is empty or ends in a line end, so that a new line starts behind it. -/
def Ended (as : List Char) : Prop := ∀ c, as.getLast? = some c → isLineEnd c = true

/-- The text is empty or starts with a line end, so that the line before it is complete. -/
def Completing (bs : List Char) : Prop := ∀ c, bs.head? = some c → isLineEnd c = true

/-- A text put behind a complete line speaks for itself. -/
theorem spokenIn_append_of_ended {as : List Char} (h : Ended as) (bs : List Char) :
    spokenIn (as ++ bs) = spokenIn as ++ spokenIn bs := by
  induction as using List.reverseRecOn with
  | nil => rfl
  | append_singleton as c _ =>
    have hc : isLineEnd c = true := h c (by simp)
    rw [List.append_assoc, List.singleton_append, spokenIn_append_cons hc, spokenIn_append_cons hc,
      spokenIn_nil, List.append_nil]

/-- A text that starts with a line end speaks for itself, whatever it is put behind. -/
theorem spokenIn_append_of_completing (as : List Char) {bs : List Char} (h : Completing bs) :
    spokenIn (as ++ bs) = spokenIn as ++ spokenIn bs := by
  cases bs with
  | nil => rw [List.append_nil, spokenIn_nil, List.append_nil]
  | cons c bs =>
    have hc : isLineEnd c = true := h c rfl
    have hcons : spokenIn (c :: bs) = spokenIn bs := spokenIn_append_cons hc [] bs
    rw [spokenIn_append_cons hc, hcons]

/-- Which line end stands between two texts does not matter. -/
theorem spokenIn_append_chars {e : LineEnd} (he : e ≠ .none) (as bs : List Char) :
    spokenIn (as ++ e.chars ++ bs) = spokenIn as ++ spokenIn bs := by
  rw [List.append_assoc]
  cases e with
  | lf => exact spokenIn_append_cons rfl as bs
  | cr => exact spokenIn_append_cons rfl as bs
  | crlf =>
    exact (spokenIn_append_cons rfl as _).trans (congrArg _ (spokenIn_append_cons rfl [] bs))
  | none => exact absurd rfl he

/-! ## Blanks at the two ends of a line -/

theorem spokenIn_cons_of_blank {c : Char} (h : Text.isBlank c = true) (text : List Char) :
    spokenIn (c :: text) = spokenIn text := by
  cases hc : isLineEnd c with
  | true => exact spokenIn_append_cons hc [] text
  | false =>
    unfold spokenIn
    rw [List.splitOnP_cons_eq_if_modifyHead, if_neg (by simp [hc])]
    obtain ⟨rest, hsplit, -⟩ := splitOnP_isLineEnd text
    rw [hsplit]
    exact spoken_cons_congr (Text.trim_cons_of_blank h _) rest

/-- A character other than a line end, put behind a text, goes to the end of its last piece. -/
theorem splitOnP_concat {c : Char} (h : isLineEnd c = false) (as : List Char) :
    ∃ before last, as.splitOnP isLineEnd = before ++ [last]
      ∧ (as ++ [c]).splitOnP isLineEnd = before ++ [last ++ [c]] := by
  induction as with
  | nil =>
    refine ⟨[], [], rfl, ?_⟩
    rw [List.nil_append, List.splitOnP_cons_eq_if_modifyHead, if_neg (by simp [h])]
    rfl
  | cons a as ih =>
    obtain ⟨before, last, hsplit, hconcat⟩ := ih
    rw [List.cons_append, List.splitOnP_cons_eq_if_modifyHead, List.splitOnP_cons_eq_if_modifyHead,
      hsplit, hconcat]
    split
    · exact ⟨[] :: before, last, rfl, rfl⟩
    · -- the character goes to the first piece, which may be the last one too
      cases before with
      | nil => exact ⟨[], a :: last, rfl, rfl⟩
      | cons first before => exact ⟨(a :: first) :: before, last, rfl, rfl⟩

theorem spokenIn_concat_of_blank {c : Char} (h : Text.isBlank c = true) (as : List Char) :
    spokenIn (as ++ [c]) = spokenIn as := by
  cases hc : isLineEnd c with
  | true => rw [spokenIn_append_cons hc, spokenIn_nil, List.append_nil]
  | false =>
    obtain ⟨before, last, hsplit, hconcat⟩ := splitOnP_concat hc as
    have htrim : Text.trim (last ++ [c]) = Text.trim last := by
      rw [← Text.trim_trimEnd, Text.trimEnd_concat, if_pos h, Text.trim_trimEnd]
    unfold spokenIn
    rw [hsplit, hconcat, spoken_append, spoken_append, spoken_cons_congr htrim]

theorem spokenIn_append_of_blank_left {ws : List Char} (h : ∀ c ∈ ws, Text.isBlank c = true)
    (bs : List Char) : spokenIn (ws ++ bs) = spokenIn bs := by
  induction ws with
  | nil => rfl
  | cons c ws ih =>
    obtain ⟨hc, hws⟩ := List.forall_mem_cons.mp h
    rw [List.cons_append, spokenIn_cons_of_blank hc, ih hws]

theorem spokenIn_append_of_blank_right (as : List Char) {ws : List Char}
    (h : ∀ c ∈ ws, Text.isBlank c = true) : spokenIn (as ++ ws) = spokenIn as := by
  induction ws generalizing as with
  | nil => rw [List.append_nil]
  | cons c ws ih =>
    obtain ⟨hc, hws⟩ := List.forall_mem_cons.mp h
    rw [List.append_cons, ih (as ++ [c]) hws, spokenIn_concat_of_blank hc]

/-- A line that is blank or a comment does not speak. -/
theorem spokenIn_of_silent {body : List Char} (h : OneLine body)
    (hsilent : isSpoken (Text.trim body) = false) : spokenIn body = [] := by
  have hnone : ∀ c ∈ body, isLineEnd c = false := by
    intro c hc
    have hlf : c ≠ '\n' := fun heq => h.1 (heq ▸ hc)
    have hcr : c ≠ '\r' := fun heq => h.2 (heq ▸ hc)
    simp [isLineEnd, hlf, hcr]
  unfold spokenIn
  rw [List.splitOnP_eq_singleton hnone]
  simp [spoken, hsilent]

/-! ## Changes of the layout -/

/-- One change of how a text is laid out. -/
inductive Relaid : List Char → List Char → Prop
  /-- A line end takes the place of another. -/
  | lineEnd (as bs : List Char) {e e' : LineEnd} (he : e ≠ .none) (he' : e' ≠ .none) :
      Relaid (as ++ e.chars ++ bs) (as ++ e'.chars ++ bs)
  /-- The text gets a final line end. -/
  | final (as : List Char) (e : LineEnd) : Relaid as (as ++ e.chars)
  /-- The blanks in front of a line change. -/
  | indent {as ws ws' : List Char} (bs : List Char) (has : Ended as)
      (hws : ∀ c ∈ ws, Text.isBlank c = true) (hws' : ∀ c ∈ ws', Text.isBlank c = true) :
      Relaid (as ++ ws ++ bs) (as ++ ws' ++ bs)
  /-- The blanks behind a line change. -/
  | trail {ws ws' bs : List Char} (as : List Char) (hbs : Completing bs)
      (hws : ∀ c ∈ ws, Text.isBlank c = true) (hws' : ∀ c ∈ ws', Text.isBlank c = true) :
      Relaid (as ++ ws ++ bs) (as ++ ws' ++ bs)
  /-- A line comes in that is blank or a comment. Only the last line may do without a line end. -/
  | silent {as bs body : List Char} {e : LineEnd} (has : Ended as) (hbody : OneLine body)
      (hsilent : Text.trim body = [] ∨ (Text.trim body).head? = some '#')
      (he : e = .none → bs = []) :
      Relaid (as ++ bs) (as ++ (body ++ e.chars ++ bs))

/-- A change of the layout changes nothing in what speaks. -/
theorem Relaid.spokenIn_eq {as bs : List Char} (h : Relaid as bs) : spokenIn as = spokenIn bs := by
  cases h with
  | lineEnd as bs he he' => rw [spokenIn_append_chars he, spokenIn_append_chars he']
  | final as e =>
    by_cases he : e = .none
    · rw [he, LineEnd.chars, List.append_nil]
    · have h := spokenIn_append_chars he as []
      rw [List.append_nil, spokenIn_nil, List.append_nil] at h
      exact h.symm
  | indent bs has hws hws' =>
    rw [List.append_assoc, List.append_assoc, spokenIn_append_of_ended has,
      spokenIn_append_of_ended has, spokenIn_append_of_blank_left hws,
      spokenIn_append_of_blank_left hws']
  | trail as hbs hws hws' =>
    rw [spokenIn_append_of_completing _ hbs, spokenIn_append_of_completing _ hbs,
      spokenIn_append_of_blank_right as hws, spokenIn_append_of_blank_right as hws']
  | @silent as bs body e has hbody hsilent he =>
    have hbody : spokenIn body = [] :=
      spokenIn_of_silent hbody (by rcases hsilent with h | h <;> simp [isSpoken, h])
    rw [spokenIn_append_of_ended has, spokenIn_append_of_ended has]
    by_cases hnone : e = .none
    · rw [he hnone, hnone, LineEnd.chars, List.append_nil, List.append_nil, hbody, spokenIn_nil]
    · rw [spokenIn_append_chars hnone, hbody, List.nil_append]

/-- Nor do many changes, each made or undone. -/
theorem spokenIn_eq_of_eqvGen {as bs : List Char} (h : Relation.EqvGen Relaid as bs) :
    spokenIn as = spokenIn bs := by
  induction h with
  | rel as bs h => exact h.spokenIn_eq
  | refl as => rfl
  | symm as bs _ ih => exact ih.symm
  | trans as bs cs _ _ ih₁ ih₂ => exact ih₁.trans ih₂

/-- **Layout does not matter.** Two sources with the same trimmed lines, but for blank lines and
comments, have the same entities and the same findings up to their spans. So do two of which one
comes from the other by changes of the layout. -/
theorem parse_lint_of_layout (source source' : String) :
    (spokenLines source = spokenLines source' →
      parse source = parse source'
        ∧ (lint source).map Finding.issue = (lint source').map Finding.issue)
    ∧ (Relation.EqvGen Relaid source.toList source'.toList →
      parse source = parse source'
        ∧ (lint source).map Finding.issue = (lint source').map Finding.issue) := by
  have hsame : spokenLines source = spokenLines source' →
      parse source = parse source'
        ∧ (lint source).map Finding.issue = (lint source').map Finding.issue := by
    intro h
    rw [parse_eq_ofTexts, parse_eq_ofTexts, map_issue_lint_eq_ofTexts, map_issue_lint_eq_ofTexts, h]
    exact ⟨rfl, rfl⟩
  refine ⟨hsame, fun h => hsame ?_⟩
  rw [spokenLines_eq_spokenIn, spokenLines_eq_spokenIn, spokenIn_eq_of_eqvGen h]

/-- A comment in front, other line ends, an indented field, and no line end behind the brace; and a
final line end. -/
theorem parse_lint_of_layout_relaid :
    (parse "entity A \x7b\na: string\n\x7d\n"
        = parse "# A.\r\nentity A \x7b\r  a: string \r\n\r\x7d"
      ∧ (lint "entity A \x7b\na: string\n\x7d\n").map Finding.issue
        = (lint "# A.\r\nentity A \x7b\r  a: string \r\n\r\x7d").map Finding.issue)
    ∧ parse "entity A" = parse "entity A\r\n"
    ∧ (lint "entity A").map Finding.issue = (lint "entity A\r\n").map Finding.issue := by
  have hfinal : Relaid "entity A".toList "entity A\r\n".toList := by
    rw [show "entity A\r\n".toList = "entity A".toList ++ LineEnd.crlf.chars by decide]
    exact .final _ _
  exact ⟨(parse_lint_of_layout _ _).1 (by decide +kernel),
    (parse_lint_of_layout _ _).2 (.rel _ _ hfinal)⟩

end EntitySchema
