import EntitySchema.Proofs.Lines

/-!
# What the pass takes no notice of

Two things in a text go by without a trace: a line that is blank or a comment leaves the state of
the pass as it is (`Scan.feedAll_filter_speaks`), and the place of a line goes into the findings
about the line and nowhere else (`Scan.feedAll_mapSpan`).
-/

namespace EntitySchema

/-! ## Silent lines -/

/-- Whether the line is more than a blank or a comment. -/
def Line.speaks : Line → Bool
  | .blank => false
  | .comment => false
  | _ => true

/-- Whether the line is more than a blank or a comment. -/
def SourceLine.speaks (l : SourceLine) : Bool := l.shape.speaks

/-- A trimmed line speaks if it has some text that does not start with the sign of a comment. -/
theorem Line.speaks_classify (text : List Char) :
    (classify text).speaks = !(text.isEmpty || text.head? == some '#') := by
  unfold classify
  by_cases hempty : text.isEmpty = true
  · simp [hempty, speaks]
  by_cases hcomment : text.head? = some '#'
  · simp [hempty, hcomment, speaks]
  have htext : (!(text.isEmpty || text.head? == some '#')) = true := by simp [hempty, hcomment]
  rw [if_neg hempty, if_neg hcomment, htext]
  -- each of the other shapes speaks
  split
  · unfold splitHeader
    split <;> rfl
  · split
    · rfl
    · split <;> rfl

namespace Scan

/-- A silent line leaves everything as it is. -/
theorem feed_of_silent {l : SourceLine} (h : l.speaks = false) (s : Scan) : s.feed l = s := by
  rw [feed_eq]
  unfold SourceLine.speaks at h
  cases hshape : l.shape with
  | blank => exact report_nil s l.span
  | comment => exact report_nil s l.span
  | _ =>
    rw [hshape] at h
    cases h

/-- **Silent lines can be left out anywhere.** -/
theorem feedAll_filter_speaks (s : Scan) (ls : List SourceLine) :
    s.feedAll (ls.filter SourceLine.speaks) = s.feedAll ls := by
  induction ls generalizing s with
  | nil => rfl
  | cons l ls ih =>
    cases hl : l.speaks with
    | true => rw [List.filter_cons_of_pos hl, feedAll_cons, feedAll_cons, ih]
    | false => rw [List.filter_cons_of_neg (by simp [hl]), feedAll_cons, feed_of_silent hl, ih]

end Scan

/-! ## Where lines stand -/

section MapSpan

variable (move : Span → Span)

/-- The line at another span. -/
def SourceLine.mapSpan (l : SourceLine) : SourceLine := ⟨l.text, move l.span⟩

/-- The same finding about a line at another span. -/
def Finding.mapSpan (x : Finding) : Finding := ⟨x.issue, move x.span⟩

/-- The state with every finding at another span. -/
def Scan.mapSpan (s : Scan) : Scan := { s with findings := s.findings.map (Finding.mapSpan move) }

@[simp] theorem Scan.entities_mapSpan (s : Scan) : (s.mapSpan move).entities = s.entities := rfl

@[simp] theorem Scan.findings_mapSpan (s : Scan) :
    (s.mapSpan move).findings = s.findings.map (Finding.mapSpan move) := rfl

@[simp] theorem Scan.mapSpan_start : Scan.start.mapSpan move = Scan.start := rfl

theorem Scan.mapSpan_report (s : Scan) (span : Span) (is : List Issue) :
    (s.report span is).mapSpan move = (s.mapSpan move).report (move span) is := by
  simp [Scan.mapSpan, Scan.report, Finding.mapSpan, Function.comp_def]

theorem Scan.mapSpan_advance (s : Scan) (l : Line) :
    (s.advance l).mapSpan move = (s.mapSpan move).advance l := by
  cases l <;> rfl

/-- What is to say about a line does not depend on what was said before. -/
theorem Scan.issues_mapSpan (s : Scan) (text : String) (l : Line) :
    (s.mapSpan move).issues text l = s.issues text l := by
  cases l <;> rfl

theorem Scan.feed_mapSpan (s : Scan) (l : SourceLine) :
    (s.mapSpan move).feed (l.mapSpan move) = (s.feed l).mapSpan move := by
  rw [feed_eq, feed_eq, mapSpan_report, mapSpan_advance, issues_mapSpan]
  rfl

/-- **Lines at other places are read in the same way, and the findings are at those places.** -/
theorem Scan.feedAll_mapSpan (s : Scan) (ls : List SourceLine) :
    (s.mapSpan move).feedAll (ls.map (SourceLine.mapSpan move)) = (s.feedAll ls).mapSpan move := by
  induction ls generalizing s with
  | nil => rfl
  | cons l ls ih => rw [List.map_cons, feedAll_cons, feed_mapSpan, ih, feedAll_cons]

end MapSpan

end EntitySchema
