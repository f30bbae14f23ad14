import EntitySchema.Proofs.History
import EntitySchema.Proofs.JsonForms
import EntitySchema.Proofs.Tiling
import EntitySchema.SchemaFile

/-!
# Findings point at their lines

A finding is made while a line is read, and it stands at the span of that line. The line is not
blank, so the span is not empty, and what the finding quotes is the text of the line
(`exists_isAbout_of_mem_lint`). Findings come in the order of their lines (`pairwise_lint`). A
diagnostic gives the place as an offset and a length, the findings in JSON give it as two ends; as
the lines tile the source, all of them stand for the same piece of it (`lines_tile_lint_points`).
-/

namespace EntitySchema

open Text

/-! ## What a finding is about -/

/-- The line that the issue quotes, if it quotes one. -/
def Issue.quoted? : Issue → Option String
  | .fieldOutsideEntity text => some text
  | .missingSeparator _ text => some text
  | .unrecognizedLine text => some text
  | _ => none

/-- The finding stands at the line, which is no empty one, and quotes nothing else. -/
structure Finding.IsAbout (f : Finding) (l : SourceLine) : Prop where
  span : f.span = l.span
  text : l.text ≠ []
  quoted : ∀ text, f.issue.quoted? = some text → text.toList = l.text

/-- What is said about a header does not quote it. -/
theorem quoted?_of_mem_headerIssuesAfter {before : List Line} {name : String} {hasBrace : Bool}
    {issue : Issue} (h : issue ∈ headerIssuesAfter before name hasBrace) :
    issue.quoted? = none := by
  simp only [headerIssuesAfter, List.mem_append, List.mem_ite_nil_right, List.mem_ite_nil_left,
    List.mem_singleton] at h
  rcases h with (⟨-, rfl⟩ | ⟨-, rfl⟩) | ⟨-, rfl⟩ <;> rfl

/-- What is said about a field of an entity does not quote its line. -/
theorem quoted?_of_mem_fieldIssuesAfter {entity : String} {since : List Line} {f : FieldLine}
    {issue : Issue} (h : issue ∈ fieldIssuesAfter entity since f) : issue.quoted? = none := by
  simp only [fieldIssuesAfter, List.mem_append, List.mem_ite_nil_right, List.mem_singleton] at h
  rcases h with ((⟨-, rfl⟩ | h) | ⟨-, rfl⟩) | ⟨-, rfl⟩
  · rfl
  · split at h
    · rw [List.mem_singleton.mp h]
      rfl
    · obtain ⟨-, h⟩ := List.mem_ite_nil_right.mp h
      rw [List.mem_singleton.mp h]
      rfl
  · rfl
  · rfl

/-- Nothing is said about a blank line, and what is said about another quotes nothing else. -/
theorem quoted?_of_mem_issuesAfter {before : List Line} {text : String} {l : Line} {issue : Issue}
    (h : issue ∈ issuesAfter before text l) :
    l ≠ .blank ∧ ∀ quoted, issue.quoted? = some quoted → quoted = text := by
  cases l with
  | blank => exact absurd h List.not_mem_nil
  | comment => exact absurd h List.not_mem_nil
  | header name hasBrace =>
    rw [quoted?_of_mem_headerIssuesAfter h]
    exact ⟨by simp, by simp⟩
  | close =>
    obtain ⟨-, hissue⟩ := List.mem_ite_nil_right.mp h
    rw [List.mem_singleton.mp hissue]
    exact ⟨by simp, by simp [Issue.quoted?]⟩
  | field f =>
    refine ⟨by simp, ?_⟩
    simp only [issuesAfter] at h
    split at h
    · rw [List.mem_singleton.mp h]
      simp [Issue.quoted?]
    · rw [quoted?_of_mem_fieldIssuesAfter h]
      simp
  | other =>
    refine ⟨by simp, ?_⟩
    simp only [issuesAfter] at h
    split at h
    · rw [List.mem_singleton.mp h]
      simp [Issue.quoted?]
    · rw [List.mem_singleton.mp h]
      simp [Issue.quoted?]

theorem isAbout_of_mem_findingsAfter {before : List SourceLine} {l : SourceLine} {f : Finding}
    (h : f ∈ findingsAfter before l) : f.IsAbout l := by
  obtain ⟨issue, hissue, rfl⟩ := List.mem_map.mp h
  obtain ⟨hblank, hquoted⟩ := quoted?_of_mem_issuesAfter hissue
  refine ⟨rfl, ?_, ?_⟩
  · intro hnil
    refine hblank ?_
    unfold SourceLine.shape
    rw [hnil]
    rfl
  · intro text htext
    rw [hquoted text htext, String.toList_ofList]

theorem exists_isAbout_of_mem_lint {source : String} {f : Finding} (h : f ∈ lint source) :
    ∃ l ∈ lines source.toList, f.IsAbout l := by
  rw [lint_eq_findingsAfter] at h
  obtain ⟨⟨before, l⟩, hpair, hf⟩ := List.mem_flatMap.mp h
  exact ⟨l, (List.of_mem_zip hpair).2, isAbout_of_mem_findingsAfter hf⟩

/-- **Findings come in the order of their places.** -/
theorem pairwise_lint (source : String) :
    (lint source).Pairwise fun a b => a.span.start ≤ b.span.start := by
  have htiles := tiles_lines source.toList
  -- each line is held against those before it, and the lines come in order
  have hzip : ((lines source.toList).inits.zip (lines source.toList)).map Prod.snd
      = lines source.toList := List.map_snd_zip (by simp)
  have hordered := htiles.ordered
  rw [← hzip, List.pairwise_map] at hordered
  rw [lint_eq_findingsAfter, List.pairwise_flatMap]
  refine ⟨?_, ?_⟩
  · intro x _
    refine List.pairwise_of_forall_mem_list ?_
    intro a ha b hb
    rw [(isAbout_of_mem_findingsAfter ha).span, (isAbout_of_mem_findingsAfter hb).span]
  · refine hordered.imp_of_mem ?_
    intro x y hx _ hlt a ha b hb
    obtain ⟨before, after, -, -, hstop⟩ :=
      slice?_eq_some_iff.mp (htiles.slice x.2 (List.of_mem_zip hx).2)
    rw [(isAbout_of_mem_findingsAfter ha).span, (isAbout_of_mem_findingsAfter hb).span]
    omega

/-! ## Where a finding is shown -/

/-- The place that a diagnostic shows. -/
def Diagnostic.span (d : Diagnostic) : Span := ⟨d.offset, d.offset + d.length⟩

/-- The place that a finding in JSON names. -/
def Json.span? (j : Json) : Option Span :=
  match j.member? "start", j.member? "end" with
  | some (.int (.ofNat start)), some (.int (.ofNat stop)) => some ⟨start, stop⟩
  | _, _ => none

/-- The finding points at the line of the text. -/
structure Finding.PointsAt (f : Finding) (cs : List Char) (l : SourceLine) : Prop where
  span : f.span = l.span
  isEmpty : f.span.isEmpty = false
  slice : slice? cs f.span = some l.text
  /-- A text that the finding quotes is the text at its span. -/
  quoted : ∀ text, f.issue.quoted? = some text → slice? cs f.span = some text.toList
  /-- A diagnostic of the finding points at the same text. -/
  diagnostic : ∀ file strict, slice? cs (Diagnostic.ofFinding file strict f).span = some l.text

theorem Finding.IsAbout.pointsAt {f : Finding} {l : SourceLine} {cs : List Char}
    (h : f.IsAbout l) (hslice : slice? cs l.span = some l.text) : f.PointsAt cs l := by
  have hstop : l.span.stop = l.span.start + byteSize l.text := by
    obtain ⟨before, after, -, -, hstop⟩ := slice?_eq_some_iff.mp hslice
    exact hstop
  have hpos : byteSize l.text ≠ 0 := fun hzero => h.text (byteSize_eq_zero_iff.mp hzero)
  have hlength : f.span.length = byteSize l.text := by
    rw [h.span]
    unfold Span.length
    omega
  have hself : slice? cs f.span = some l.text := by rw [h.span, hslice]
  refine ⟨h.span, ?_, hself, ?_, ?_⟩
  · unfold Span.isEmpty
    rw [hlength]
    exact beq_false_of_ne hpos
  · intro text htext
    rw [hself, h.quoted text htext]
  · intro file strict
    have hplace : (Diagnostic.ofFinding file strict f).span = l.span := by
      show (⟨f.span.start, f.span.start + f.span.length⟩ : Span) = l.span
      rw [hlength, h.span, ← hstop]
    rw [hplace, hslice]

/-- The findings of a file in JSON name the places of the findings. -/
theorem findingsJson_spans (file : SchemaFile) :
    ∃ items, file.findingsJson = .arr items
      ∧ items.map Json.span? = file.findings.map fun f => some f.span := by
  refine ⟨_, rfl, ?_⟩
  rw [List.map_map]
  rfl

/-- **Lines tile the source, and findings point at their lines.** -/
theorem lines_tile_lint_points (source : String) :
    Tiles source.toList (lines source.toList)
      ∧ (Ended source.toList → (lines source.toList).length = lineEnds source.toList)
      ∧ (¬ Ended source.toList → (lines source.toList).length = lineEnds source.toList + 1)
      ∧ (∀ f ∈ lint source, ∃ l ∈ lines source.toList, f.PointsAt source.toList l)
      ∧ ((lint source).Pairwise fun a b => a.span.start ≤ b.span.start)
      ∧ ∀ path, ∃ items, (SchemaFile.mk path (read source)).findingsJson = .arr items
          ∧ items.map Json.span? = (lint source).map fun f => some f.span := by
  have htiles := tiles_lines source.toList
  obtain ⟨hended, hopen⟩ := length_rawLines source.toList
  rw [length_lines]
  refine ⟨htiles, hended, hopen, ?_, pairwise_lint source, ?_⟩
  · intro f hf
    obtain ⟨l, hl, habout⟩ := exists_isAbout_of_mem_lint hf
    exact ⟨l, hl, habout.pointsAt (htiles.slice l hl)⟩
  · intro path
    exact findingsJson_spans ⟨path, read source⟩

end EntitySchema
