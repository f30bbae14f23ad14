import EntitySchema.Proofs.Clean

/-!
# Lines out of order

Some findings are about what a line declares, and the others about the line itself: it stands
where no such line may stand, or it is no line of a schema at all. An issue of the second kind does
not depend on any name. A line has one exactly if it may not stand where it stands
(`any_concernsOrder_issues`), and so a text has one exactly if its lines are not in order
(`any_concernsOrder_lint`), tidy or not.
-/

namespace EntitySchema

/-- Whether the issue is about the place or the kind of a line and not about what it declares. -/
def Issue.concernsOrder : Issue → Bool
  | fieldOutsideEntity _ | missingSeparator _ _ | unrecognizedLine _ | missingOpenBrace _
  | fieldAfterClose _ _ => true
  | emptyEntityName | emptyFieldName _ | emptyFieldType _ _ | bareAnnotationSign _
  | duplicateEntityName _ | duplicateFieldName _ _ => false

/-- Whether the finding is about the place or the kind of its line. -/
def Finding.concernsOrder (f : Finding) : Bool := f.issue.concernsOrder

/-! ## One line -/

/-- A field of an open entity is out of order exactly if the entity has been closed. -/
theorem OpenEntity.any_concernsOrder_issues (o : OpenEntity) (f : Field) :
    (o.issues f).any Issue.concernsOrder = o.closed := by
  unfold OpenEntity.issues
  simp only [List.any_append, apply_ite (List.any · Issue.concernsOrder), List.any_cons,
    List.any_nil, Issue.concernsOrder, Bool.or_false, ite_self]
  cases o.closed <;> rfl

namespace Scan

/-- A header is out of order exactly if it has no brace. -/
theorem any_concernsOrder_headerIssues (s : Scan) (name : String) (hasBrace : Bool) :
    (s.headerIssues name hasBrace).any Issue.concernsOrder = !hasBrace := by
  unfold headerIssues
  simp only [List.any_append, apply_ite (List.any · Issue.concernsOrder), List.any_cons,
    List.any_nil, Issue.concernsOrder, Bool.or_false, ite_self]
  cases hasBrace <;> rfl

/-- **When a line is out of order.** It has such an issue exactly if it may not stand where it
stands, whatever the state holds besides. -/
theorem any_concernsOrder_issues (s : Scan) (text : String) (l : Line) :
    (s.issues text l).any Issue.concernsOrder = (s.place.next? l).isNone := by
  cases l with
  | header name hasBrace =>
      show (s.headerIssues _ _).any _ = _
      rw [any_concernsOrder_headerIssues]
      cases hasBrace <;> cases s.place <;> rfl
  | field f =>
      cases hc : s.current with
      | none => simp [issues, hc, Line.Place.next?, place, Issue.concernsOrder]
      | some o =>
          simp only [issues, hc, OpenEntity.any_concernsOrder_issues]
          cases hclosed : o.closed <;> simp [Line.Place.next?, place, hc, hclosed]
  | close =>
      cases hc : s.current with
      | none => simp [issues, hc, Line.Place.next?, place, Issue.concernsOrder]
      | some o => cases hclosed : o.closed <;> simp [issues, hc, Line.Place.next?, place, hclosed]
  | other => cases hc : s.current <;> simp [issues, hc, Line.Place.next?, Issue.concernsOrder]
  | blank => rfl
  | comment => rfl

/-! ## Whole texts -/

theorem any_concernsOrder_feed (s : Scan) (l : SourceLine) :
    (s.feed l).findings.any Finding.concernsOrder
      = (s.findings.any Finding.concernsOrder || (s.place.next? l.shape).isNone) := by
  rw [feed_findings, List.any_append, List.any_map, ← any_concernsOrder_issues]
  rfl

theorem place_feed {s : Scan} {l : SourceLine} {p : Line.Place}
    (h : s.place.next? l.shape = some p) : (s.feed l).place = p := by
  rw [feed_eq]
  exact place_advance h

/-- What is out of order after some more lines was so before, or comes from them. -/
theorem any_concernsOrder_feedAll (ls : List SourceLine) :
    ∀ s : Scan, (s.feedAll ls).findings.any Finding.concernsOrder
      = (s.findings.any Finding.concernsOrder
          || !inOrder s.place (ls.map SourceLine.shape)) := by
  induction ls with
  | nil => intro s; simp [inOrder]
  | cons l ls ih =>
    intro s
    rw [feedAll_cons, ih, any_concernsOrder_feed, List.map_cons, inOrder, Bool.or_assoc]
    cases hnext : s.place.next? l.shape with
    | none => simp
    | some p => simp [place_feed hnext]

end Scan

/-- **When a text has lines out of order.** -/
theorem any_concernsOrder_lint (source : String) :
    (lint source).any Finding.concernsOrder = !inOrder .outside (shapes source) := by
  rw [lint_eq]
  exact Scan.any_concernsOrder_feedAll (lines source.toList) Scan.start

end EntitySchema
