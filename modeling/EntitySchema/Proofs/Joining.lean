import EntitySchema.Proofs.Layout
import EntitySchema.Proofs.PathText

/-!
# Two texts, one behind the other

A text behind a complete line is read as if it stood alone, if it opens an entity before it does
anything else: the header ends whatever the text before it has left open. Two things have to be
seen for that. The lines of the two texts together are those of the first and, further down, those
of the second, except that a carriage return at the seam takes a line feed that follows it into its
line end; this makes one empty line less (`filter_speaks_linesAt_append`). And from its first header
on, a pass that has read something before goes along with one that has not: it has the same open
entity, and what it has finished and found comes behind what was there (`Scan.Behind`). The one
thing that it says differently is which names of entities are taken.
-/

namespace EntitySchema

/-! ## The lines of two texts -/

/-- A character in front of some lines, put in front of the first, leaves the end of the last one
open. -/
theorem RawLine.prepend_concat (c : Char) (before : List RawLine) (body : List Char) :
    ∃ before' body', ∀ e : LineEnd, e ≠ .lf →
      prepend c (before ++ [⟨body, e⟩]) = before' ++ [⟨body', e⟩] := by
  cases before with
  | cons l ls =>
    refine ⟨prepend c (l :: ls), body, fun e _ => ?_⟩
    exact prepend_append c (List.cons_ne_nil l ls) _
  | nil =>
    by_cases hlf : c = '\n'
    · refine ⟨[⟨[], .lf⟩], body, fun e _ => ?_⟩
      unfold prepend
      rw [if_pos hlf]
      rfl
    · by_cases hcr : c = '\r'
      · refine ⟨[⟨[], .cr⟩], body, fun e he => ?_⟩
        unfold prepend
        rw [if_neg hlf, if_pos hcr]
        split
        · next heq => exact absurd (congrArg RawLine.ending (List.cons.inj heq).1) he
        · rfl
      · exact ⟨[], c :: body, fun e _ => prepend_of_not_end hlf hcr _ _⟩

/-- **The lines of a text behind a complete line.** They follow those before them, or the first of
them is a line feed that goes into the line end before it. -/
theorem rawLines_append_of_ended {as : List Char} (h : Ended as) (bs : List Char) :
    rawLines (as ++ bs) = rawLines as ++ rawLines bs
      ∨ ∃ before body rest, rawLines as = before ++ [⟨body, .cr⟩]
        ∧ rawLines bs = ⟨[], .lf⟩ :: rest
        ∧ rawLines (as ++ bs) = before ++ [⟨body, .crlf⟩] ++ rest := by
  induction as with
  | nil => exact .inl rfl
  | cons a as ih =>
    cases as with
    | nil =>
      have ha : isLineEnd a = true := h a rfl
      by_cases hlf : a = '\n'
      · rw [hlf]
        exact .inl rfl
      · obtain rfl : a = '\r' := by simpa [isLineEnd, hlf] using ha
        rw [List.singleton_append, rawLines_cons '\r' bs]
        generalize rawLines bs = ls
        unfold RawLine.prepend
        rw [if_neg (by decide), if_pos rfl]
        split
        · next rest => exact .inr ⟨[], [], rest, rfl, rfl, rfl⟩
        · exact .inl rfl
    | cons b as =>
      have hrest : Ended (b :: as) := fun c hc => h c (by simpa using hc)
      rw [List.cons_append, rawLines_cons, rawLines_cons]
      obtain hjoined | ⟨before, body, rest, has, hbs, hjoined⟩ := ih hrest
      · left
        rw [hjoined, RawLine.prepend_append a (rawLines_ne_nil (List.cons_ne_nil b as))]
      · right
        obtain ⟨before', body', hprepend⟩ := RawLine.prepend_concat a before body
        refine ⟨before', body', rest, ?_, hbs, ?_⟩
        · rw [has, hprepend .cr (by decide)]
        · rw [hjoined, RawLine.prepend_append a (by simp), hprepend .crlf (by decide)]

/-- The lines of a text further down. -/
theorem placeLines_shift (n : Nat) (ls : List RawLine) :
    ∀ offset, placeLines (n + offset) ls
      = (placeLines offset ls).map (SourceLine.mapSpan (Span.shift n)) := by
  induction ls with
  | nil => intro offset; rfl
  | cons l ls ih =>
    intro offset
    have hfirst : SourceLine.ofRaw (n + offset) l.body
        = (SourceLine.ofRaw offset l.body).mapSpan (Span.shift n) := by
      unfold SourceLine.ofRaw SourceLine.mapSpan Span.shift
      simp only [Nat.add_assoc]
    rw [placeLines, placeLines, List.map_cons, hfirst, Nat.add_assoc, ih]

/-- Where lines stand, what ends the last one of them makes no difference. -/
theorem placeLines_concat (offset : Nat) (before : List RawLine) (body : List Char)
    (e e' : LineEnd) :
    placeLines offset (before ++ [⟨body, e⟩]) = placeLines offset (before ++ [⟨body, e'⟩]) := by
  rw [placeLines_append, placeLines_append]
  rfl

/-- **The lines that speak in two texts**, one behind the other. -/
theorem filter_speaks_linesAt_append {as : List Char} (h : Ended as) (offset : Nat)
    (bs : List Char) :
    (linesAt offset (as ++ bs)).filter SourceLine.speaks
      = (linesAt offset as).filter SourceLine.speaks
        ++ (linesAt (offset + Text.byteSize as) bs).filter SourceLine.speaks := by
  have hsize := congrArg Text.byteSize (flatMap_chars_rawLines as)
  unfold linesAt
  obtain hjoined | ⟨before, body, rest, has, hbs, hjoined⟩ := rawLines_append_of_ended h bs
  · rw [hjoined, placeLines_append, hsize, List.filter_append]
  · -- the line feed at the seam counts as a byte on both sides, and as an empty line on one
    have hseam : Text.byteSize ((before ++ [(⟨body, .crlf⟩ : RawLine)]).flatMap RawLine.chars)
        = Text.byteSize as + 1 := by
      rw [has] at hsize
      rw [← hsize]
      simp only [List.flatMap_append, List.flatMap_singleton, Text.byteSize_append,
        RawLine.byteSize_chars, RawLine.byteSize, LineEnd.byteSize, Nat.add_assoc]
    have hempty (at_ : Nat) : (SourceLine.ofRaw at_ []).speaks = false := rfl
    rw [hjoined, hbs, has, placeLines_append, hseam, List.filter_append,
      placeLines_concat offset before body .crlf .cr, placeLines,
      List.filter_cons_of_neg (by simp [hempty]), Nat.add_assoc]
    rfl

/-! ## A pass behind another one -/

/-- Whether the finding is about something else than the name of an earlier entity. -/
def Issue.isLocal : Issue → Bool
  | .duplicateEntityName _ => false
  | _ => true

/-- Whether the finding is about something else than the name of an earlier entity. -/
def Finding.isLocal (x : Finding) : Bool := x.issue.isLocal

namespace Scan

/-- The pass `s'` has read what `before` had read, and then what `s` has read on its own. -/
structure Behind (before s s' : Scan) : Prop where
  /-- What was read before is finished. -/
  finished : s'.finished = before.entities ++ s.finished
  current : s'.current = s.current
  findings : s'.findings.filter Finding.isLocal
    = before.findings.filter Finding.isLocal ++ s.findings.filter Finding.isLocal

variable {before s s' : Scan}

theorem Behind.entities (h : Behind before s s') : s'.entities = before.entities ++ s.entities := by
  unfold Scan.entities
  rw [h.finished, h.current, List.append_assoc]
  rfl

/-- What is to say about a header, but for a name that is taken, does not depend on what was
read. -/
theorem filter_isLocal_headerIssues (s s' : Scan) (name : String) (hasBrace : Bool) :
    (s.headerIssues name hasBrace).filter Issue.isLocal
      = (s'.headerIssues name hasBrace).filter Issue.isLocal := by
  have htaken (s : Scan) : (if s.entityNames.contains name then [Issue.duplicateEntityName name]
      else []).filter Issue.isLocal = [] := by split <;> rfl
  unfold headerIssues
  simp only [List.filter_append, htaken]

/-- What is to say about any other line depends on the open entity alone. -/
theorem filter_isLocal_issues (h : s'.current = s.current) (text : String) (l : Line) :
    (s'.issues text l).filter Issue.isLocal = (s.issues text l).filter Issue.isLocal := by
  cases l with
  | header name hasBrace => exact filter_isLocal_headerIssues s' s _ hasBrace
  | close => simp only [issues, h]
  | field f => simp only [issues, h]
  | other => simp only [issues, h]
  | blank => rfl
  | comment => rfl

theorem filter_isLocal_feed (s : Scan) (l : SourceLine) :
    (s.feed l).findings.filter Finding.isLocal
      = s.findings.filter Finding.isLocal
        ++ ((s.issues (String.ofList l.text) l.shape).filter Issue.isLocal).map
          fun issue => ⟨issue, l.span⟩ := by
  rw [feed_findings, List.filter_append, List.filter_map]
  rfl

/-- A header opens the same entity in every state. -/
theorem behind_header (before : Scan) {l : SourceLine} (h : l.shape.isHeader = true) :
    Behind before (start.feed l) (before.feed l) := by
  obtain ⟨name, hasBrace, hshape⟩ : ∃ name hasBrace, l.shape = .header name hasBrace := by
    cases hl : l.shape with
    | header name hasBrace => exact ⟨name, hasBrace, rfl⟩
    | _ =>
      rw [hl] at h
      cases h
  refine ⟨?_, ?_, ?_⟩
  · rw [feed_eq, feed_eq, hshape]
    exact (List.append_nil before.entities).symm
  · rw [feed_eq, feed_eq, hshape]
    rfl
  · rw [filter_isLocal_feed, filter_isLocal_feed, hshape]
    unfold issues
    dsimp only
    rw [filter_isLocal_headerIssues before start]
    rfl

/-- **Every line keeps the two passes together.** -/
theorem Behind.feed (h : Behind before s s') (l : SourceLine) :
    Behind before (s.feed l) (s'.feed l) := by
  refine ⟨?_, ?_, ?_⟩
  · have hentities := h.entities
    rw [feed_eq, feed_eq, report_finished, report_finished]
    cases l.shape with
    | header name hasBrace => exact hentities
    | _ => exact h.finished
  · rw [feed_eq, feed_eq, report_current, report_current]
    cases l.shape with
    | header name hasBrace => rfl
    | close => exact congrArg (Option.map _) h.current
    | field f => exact congrArg (Option.map _) h.current
    | _ => exact h.current
  · rw [filter_isLocal_feed, filter_isLocal_feed, h.findings, filter_isLocal_issues h.current,
      List.append_assoc]

theorem Behind.feedAll (h : Behind before s s') (ls : List SourceLine) :
    Behind before (s.feedAll ls) (s'.feedAll ls) := by
  induction ls generalizing s s' with
  | nil => exact h
  | cons l ls ih => exact ih (h.feed l)

end Scan

/-! ## The texts -/

/-- The first line of the text that is neither blank nor a comment, if there is one, is a header. -/
def Opens (source : String) : Prop :=
  ∀ l, (shapes source).find? Line.speaks = some l → l.isHeader = true

/-- The lines that speak start with a header, if there are any. -/
theorem Opens.header {source : String} (h : Opens source) {l : SourceLine} {ls : List SourceLine}
    (hlines : (lines source.toList).filter SourceLine.speaks = l :: ls) :
    l.shape.isHeader = true := by
  refine h l.shape ?_
  have hfind : (lines source.toList).find? SourceLine.speaks = some l := by
    rw [← List.head?_filter, hlines]
    rfl
  unfold shapes
  rw [List.find?_map]
  exact (congrArg (Option.map SourceLine.shape) hfind).trans rfl

/-- What a pass over two texts has read: what the first one says, and then what the second one says
by itself, further down. -/
theorem behind_append {source next : String} (hended : Ended source.toList) (hopens : Opens next) :
    ((Scan.start.feedAll (lines (source ++ next).toList)).entities = parse source ++ parse next)
    ∧ (Scan.start.feedAll (lines (source ++ next).toList)).findings.filter Finding.isLocal
      = (lint source).filter Finding.isLocal
        ++ ((lint next).map (Finding.mapSpan (Span.shift source.utf8ByteSize))).filter
          Finding.isLocal := by
  let before := Scan.start.feedAll (lines source.toList)
  let move := SourceLine.mapSpan (Span.shift source.utf8ByteSize)
  let further := ((lines next.toList).map move).filter SourceLine.speaks
  -- the pass over the two texts goes on behind the first one
  have hrun : Scan.start.feedAll (lines (source ++ next).toList) = before.feedAll further := by
    have hplace : linesAt (0 + Text.byteSize source.toList) next.toList
        = (lines next.toList).map move := by
      rw [Text.byteSize_toList, Nat.add_comm]
      exact placeLines_shift _ _ 0
    rw [← Scan.feedAll_filter_speaks, String.toList_append]
    unfold lines
    rw [filter_speaks_linesAt_append hended, hplace, Scan.feedAll_append]
    exact congrArg (fun s : Scan => s.feedAll further) (Scan.feedAll_filter_speaks Scan.start _)
  -- the pass over the second text alone, at the same places
  have halone : Scan.start.feedAll further
      = (Scan.start.feedAll (lines next.toList)).mapSpan (Span.shift source.utf8ByteSize) := by
    rw [Scan.feedAll_filter_speaks, ← Scan.feedAll_mapSpan, Scan.mapSpan_start]
  have hsplit : (before.feedAll further).entities
        = before.entities ++ (Scan.start.feedAll further).entities
      ∧ (before.feedAll further).findings.filter Finding.isLocal
        = before.findings.filter Finding.isLocal
          ++ (Scan.start.feedAll further).findings.filter Finding.isLocal := by
    have hfurther : further = ((lines next.toList).filter SourceLine.speaks).map move :=
      List.filter_map ..
    cases hspeak : (lines next.toList).filter SourceLine.speaks with
    | nil =>
      rw [hfurther, hspeak]
      exact ⟨(List.append_nil _).symm, (List.append_nil _).symm⟩
    | cons l ls =>
      have hheader : l.shape.isHeader = true := hopens.header hspeak
      have hfirst : before.Behind (Scan.start.feed (move l)) (before.feed (move l)) :=
        before.behind_header hheader
      have hbehind : before.Behind (Scan.start.feedAll further) (before.feedAll further) := by
        rw [hfurther, hspeak]
        exact hfirst.feedAll (ls.map move)
      exact ⟨hbehind.entities, hbehind.findings⟩
  rw [hrun, hsplit.1, hsplit.2, halone, parse_eq, parse_eq, lint_eq, lint_eq]
  exact ⟨rfl, rfl⟩

theorem parse_append {source next : String} (hended : Ended source.toList) (hopens : Opens next) :
    parse (source ++ next) = parse source ++ parse next :=
  (parse_eq _).trans (behind_append hended hopens).1

theorem filter_isLocal_lint_append {source next : String} (hended : Ended source.toList)
    (hopens : Opens next) :
    (lint (source ++ next)).filter Finding.isLocal
      = (lint source ++ (lint next).map
          (Finding.mapSpan (Span.shift source.utf8ByteSize))).filter Finding.isLocal := by
  rw [List.filter_append, lint_eq (source ++ next)]
  exact (behind_append hended hopens).2

end EntitySchema
