import Mathlib.Data.List.Nodup
import EntitySchema.Proofs.State

/-!
# Clean texts

A text is clean if the reader finds nothing in it. That has two sides (`lint_eq_nil_iff`). The
lines are in order: every header has its brace, fields stand only between a header and its closing
brace, and there is nothing else. And what the lines declare is tidy: names are there and appear
once, types are there, and no annotation is a bare sign.

The order of the lines is a matter of their kinds and of nothing else, so it is followed by
`Line.Place`, which knows no names. What is tidy is a matter of the entities alone. One line is
accepted without a word exactly if it may stand where it stands and leaves the entities tidy
(`Scan.issues_eq_nil_iff`), and this goes over to the whole text since entities only grow.
-/

namespace EntitySchema

/-! ## The order of lines -/

/-- Where a line stands: before the first header, in the braces of an entity, or behind them. -/
inductive Line.Place
  | outside
  | inside
  | behind
  deriving DecidableEq, Repr

/-- Where the next line stands, if a line of this shape may stand here. -/
def Line.Place.next? (p : Line.Place) : Line → Option Line.Place
  | .blank => some p
  | .comment => some p
  | .header _ hasBrace => if hasBrace then some .inside else none
  | .field _ => if p = .inside then some .inside else none
  | .close => if p = .outside then none else some .behind
  | .other => none

/-- Whether lines of these shapes may follow each other from here on. -/
def inOrder : Line.Place → List Line → Bool
  | _, [] => true
  | p, l :: ls =>
    match p.next? l with
    | some p' => inOrder p' ls
    | none => false

/-- The place of the next line. -/
def Scan.place (s : Scan) : Line.Place :=
  match s.current with
  | none => .outside
  | some o => if o.closed then .behind else .inside

/-! ## Tidy entities -/

/-- The field lacks nothing. -/
structure Field.Tidy (f : Field) : Prop where
  name : f.name ≠ ""
  type : f.typeName ≠ ""
  /-- No annotation is a bare sign. -/
  annotations : f.annotations.any Annotation.isEmpty = false

/-- The entity lacks nothing, and no two fields have one name. -/
structure Entity.Tidy (e : Entity) : Prop where
  name : e.name ≠ ""
  fields : ∀ f ∈ e.fields, f.Tidy
  distinct : e.fieldNames.Nodup

/-- Each of the entities is tidy, and no two have one name. -/
structure Tidy (es : List Entity) : Prop where
  entities : ∀ e ∈ es, e.Tidy
  distinct : (es.map Entity.name).Nodup

theorem tidy_nil : Tidy [] := ⟨by simp, by simp⟩

theorem nodup_concat_iff {l : List String} {n : String} :
    (l ++ [n]).Nodup ↔ l.Nodup ∧ n ∉ l := by
  rw [← List.concat_eq_append, List.nodup_concat, and_comm]

/-- What a header has to have for the entities to stay tidy. -/
theorem tidy_concat_ofName {es : List Entity} {name : String} :
    Tidy (es ++ [⟨name, []⟩]) ↔ Tidy es ∧ name ≠ "" ∧ name ∉ es.map Entity.name := by
  constructor
  · intro hparts
    obtain ⟨hall, hdistinct⟩ := hparts
    obtain ⟨hes, hlast⟩ := List.forall_mem_append.mp hall
    rw [List.map_append] at hdistinct
    obtain ⟨hnames, hnew⟩ := nodup_concat_iff.mp hdistinct
    exact ⟨⟨hes, hnames⟩, (hlast _ List.mem_cons_self).name, hnew⟩
  · intro hparts
    obtain ⟨⟨hes, hnames⟩, hne, hnew⟩ := hparts
    refine ⟨List.forall_mem_append.mpr ⟨hes, ?_⟩, ?_⟩
    · intro e he
      obtain rfl := List.mem_singleton.mp he
      exact ⟨hne, by simp, by simp [Entity.fieldNames]⟩
    · rw [List.map_append]
      exact nodup_concat_iff.mpr ⟨hnames, hnew⟩

theorem Entity.tidy_addField {e : Entity} {f : Field} :
    (e.addField f).Tidy ↔ e.Tidy ∧ f.Tidy ∧ f.name ∉ e.fieldNames := by
  have hnames := Entity.fieldNames_addField e f
  constructor
  · intro hparts
    obtain ⟨hname, hfields, hdistinct⟩ := hparts
    obtain ⟨hfs, hlast⟩ := List.forall_mem_append.mp hfields
    obtain ⟨hold, hnew⟩ := nodup_concat_iff.mp (hnames ▸ hdistinct)
    exact ⟨⟨hname, hfs, hold⟩, hlast f List.mem_cons_self, hnew⟩
  · intro hparts
    obtain ⟨⟨hname, hfs, hold⟩, hf, hnew⟩ := hparts
    refine ⟨hname, List.forall_mem_append.mpr ⟨hfs, ?_⟩, ?_⟩
    · intro f' hf'
      obtain rfl := List.mem_singleton.mp hf'
      exact hf
    · rw [hnames]
      exact nodup_concat_iff.mpr ⟨hold, hnew⟩

/-- What a field has to have for the entities to stay tidy. -/
theorem tidy_concat_addField {es : List Entity} {e : Entity} {f : Field} :
    Tidy (es ++ [e.addField f]) ↔ Tidy (es ++ [e]) ∧ f.Tidy ∧ f.name ∉ e.fieldNames := by
  have hnames : (es ++ [e.addField f]).map Entity.name = (es ++ [e]).map Entity.name := by
    rw [List.map_append, List.map_append]
    rfl
  have hall (e' : Entity) : (∀ x ∈ es ++ [e'], x.Tidy) ↔ (∀ x ∈ es, x.Tidy) ∧ e'.Tidy := by
    rw [List.forall_mem_append, List.forall_mem_singleton]
  constructor
  · intro hparts
    obtain ⟨htidy, hdistinct⟩ := hparts
    obtain ⟨hes, hlast⟩ := (hall _).mp htidy
    obtain ⟨he, hf, hnew⟩ := Entity.tidy_addField.mp hlast
    exact ⟨⟨(hall e).mpr ⟨hes, he⟩, hnames ▸ hdistinct⟩, hf, hnew⟩
  · intro hparts
    obtain ⟨⟨htidy, hdistinct⟩, hf, hnew⟩ := hparts
    obtain ⟨hes, he⟩ := (hall e).mp htidy
    refine ⟨(hall _).mpr ⟨hes, Entity.tidy_addField.mpr ⟨he, hf, hnew⟩⟩, ?_⟩
    rw [hnames]
    exact hdistinct

/-! ## One line -/

theorem OpenEntity.issues_eq_nil_iff (o : OpenEntity) (f : Field) :
    o.issues f = [] ↔ o.closed = false ∧ f.Tidy ∧ f.name ∉ o.fieldNames := by
  have htidy : f.Tidy
      ↔ f.name ≠ "" ∧ f.typeName ≠ "" ∧ f.annotations.any Annotation.isEmpty = false :=
    ⟨fun h => ⟨h.name, h.type, h.annotations⟩, fun h => ⟨h.1, h.2.1, h.2.2⟩⟩
  rw [htidy]
  unfold OpenEntity.issues
  by_cases hname : f.name = ""
  · simp [hname]
  · simp only [List.append_eq_nil_iff, String.isEmpty_iff, hname, if_false, ite_eq_right_iff,
      List.cons_ne_self, imp_false, Bool.not_eq_true, List.contains_iff_mem]
    tauto

namespace Scan

variable {s : Scan}

theorem headerIssues_eq_nil_iff (s : Scan) (name : String) (hasBrace : Bool) :
    s.headerIssues name hasBrace = []
      ↔ hasBrace = true ∧ name ≠ "" ∧ name ∉ s.entityNames := by
  unfold headerIssues
  simp only [List.append_eq_nil_iff, ite_eq_right_iff, ite_eq_left_iff, List.cons_ne_self,
    imp_false, String.isEmpty_iff, List.contains_iff_mem, Bool.not_eq_true, Bool.not_eq_false]
  tauto

/-- Inside is where an entity is open and not closed. -/
theorem place_eq_inside_iff :
    s.place = .inside ↔ ∃ o, s.current = some o ∧ o.closed = false := by
  unfold place
  cases s.current with
  | none => simp
  | some o => cases hclosed : o.closed <;> simp [hclosed]

theorem place_eq_outside_iff : s.place = .outside ↔ s.current = none := by
  unfold place
  cases s.current with
  | none => simp
  | some o => cases hclosed : o.closed <;> simp [hclosed]

/-- A line that may stand where it stands leads to the place of the next line. -/
theorem place_advance {l : Line} {p : Line.Place} (h : s.place.next? l = some p) :
    (s.advance l).place = p := by
  cases l with
  | header name hasBrace =>
      cases hasBrace with
      | true => exact Option.some.inj h
      | false => exact absurd h (by simp [Line.Place.next?])
  | close =>
      cases hc : s.current with
      | none => exact absurd h (by simp [Line.Place.next?, place_eq_outside_iff.mpr hc])
      | some o =>
          have hplace : s.place ≠ .outside := by rw [Ne, place_eq_outside_iff, hc]; simp
          have hp : some Line.Place.behind = some p := by rw [← h]; exact (if_neg hplace).symm
          rw [← Option.some.inj hp]
          simp [place, advance, hc, OpenEntity.close]
  | field f =>
      by_cases hplace : s.place = .inside
      · obtain ⟨o, ho, hopen⟩ := place_eq_inside_iff.mp hplace
        have hp : some Line.Place.inside = some p := by rw [← h]; exact (if_pos hplace).symm
        rw [← Option.some.inj hp, place_eq_inside_iff]
        exact ⟨o.addField f.toField, by simp [advance, ho], hopen⟩
      · exact absurd h (by simp [Line.Place.next?, hplace])
  | blank => exact Option.some.inj h
  | comment => exact Option.some.inj h
  | other => exact absurd h (by simp [Line.Place.next?])

/-- Entities only grow, and what is missing in them stays missing. -/
theorem tidy_of_advance {l : Line} (h : Tidy (s.advance l).entities) : Tidy s.entities := by
  cases l with
  | header name hasBrace =>
      rw [advance_header_entities] at h
      exact (tidy_concat_ofName.mp h).1
  | close => rw [advance_close_entities] at h; exact h
  | field f =>
      cases hc : s.current with
      | none => rw [advance_field_of_none hc] at h; exact h
      | some o =>
          rw [advance_field_entities hc] at h
          rw [entities_of_current hc]
          exact (tidy_concat_addField.mp h).1
  | blank => exact h
  | comment => exact h
  | other => exact h

/-- **When a line is accepted without a word.** It may stand where it stands, and it leaves the
entities tidy. -/
theorem issues_eq_nil_iff (h : Consistent s) (htidy : Tidy s.entities) (text : String) (l : Line) :
    s.issues text l = []
      ↔ (s.place.next? l).isSome = true ∧ Tidy (s.advance l).entities := by
  cases l with
  | header name hasBrace =>
      rw [advance_header_entities, tidy_concat_ofName, ← h.entityNames]
      have hplace : (s.place.next? (.header name hasBrace)).isSome = hasBrace := by
        cases hasBrace <;> cases s.place <;> rfl
      rw [hplace]
      show s.headerIssues _ _ = [] ↔ _
      rw [headerIssues_eq_nil_iff]
      exact ⟨fun ⟨hb, hne, hnew⟩ => ⟨hb, htidy, hne, hnew⟩,
        fun ⟨hb, _, hne, hnew⟩ => ⟨hb, hne, hnew⟩⟩
  | close =>
      rw [advance_close_entities]
      cases hc : s.current with
      | none => simp [issues, hc, Line.Place.next?, place_eq_outside_iff.mpr hc]
      | some o =>
          have hplace : s.place ≠ .outside := by rw [Ne, place_eq_outside_iff, hc]; simp
          simp [issues, hc, Line.Place.next?, hplace, htidy]
  | field f =>
      cases hc : s.current with
      | none => simp [issues, hc, Line.Place.next?, place_eq_outside_iff.mpr hc]
      | some o =>
          -- the name of the field is new to the reader if it is new among the fields
          have hnew : f.toField.Tidy →
              (f.toField.name ∉ o.fieldNames ↔ f.toField.name ∉ o.entity.fieldNames) := by
            intro hf
            rw [h.fieldNames o hc]
            simp [hf.name]
          have hplace : ((s.place.next? (.field f)).isSome = true) ↔ o.closed = false := by
            cases hclosed : o.closed <;> simp [Line.Place.next?, place, hc, hclosed]
          rw [entities_of_current hc] at htidy
          rw [advance_field_entities hc, tidy_concat_addField, hplace]
          simp only [issues, hc, OpenEntity.issues_eq_nil_iff]
          constructor
          · intro hparts
            obtain ⟨hopen, hf, hname⟩ := hparts
            exact ⟨hopen, htidy, hf, (hnew hf).mp hname⟩
          · intro hparts
            obtain ⟨hopen, -, hf, hname⟩ := hparts
            exact ⟨hopen, hf, (hnew hf).mpr hname⟩
  | other => cases hc : s.current <;> simp [issues, hc, Line.Place.next?]
  | blank => simp [issues, advance, Line.Place.next?, htidy]
  | comment => simp [issues, advance, Line.Place.next?, htidy]

/-! ## Whole texts -/

/-- Findings are never taken back. -/
theorem findings_prefix_feedAll (ls : List SourceLine) :
    ∀ s : Scan, s.findings <+: (s.feedAll ls).findings := by
  induction ls with
  | nil => intro s; exact List.prefix_rfl
  | cons l ls ih =>
    intro s
    refine List.IsPrefix.trans ?_ (ih (s.feed l))
    rw [feed_findings]
    exact List.prefix_append _ _

/-- Nothing is found in some lines if nothing is found in the first and in the others. -/
theorem findings_feedAll_cons (s : Scan) (l : SourceLine) (ls : List SourceLine) :
    (s.feedAll (l :: ls)).findings = s.findings
      ↔ s.issues (String.ofList l.text) l.shape = []
        ∧ ((s.feed l).feedAll ls).findings = (s.feed l).findings := by
  rw [feedAll_cons]
  have hstep := feed_findings s l
  constructor
  · intro h
    -- what the first line adds stays to the end, so there is no room for anything
    have hlen := (findings_prefix_feedAll ls (s.feed l)).length_le
    rw [h, hstep, List.length_append, List.length_map] at hlen
    have hl : s.issues (String.ofList l.text) l.shape = [] :=
      List.length_eq_zero_iff.mp (by omega)
    refine ⟨hl, ?_⟩
    rw [h, hstep, hl, List.map_nil, List.append_nil]
  · intro hparts
    obtain ⟨hl, hls⟩ := hparts
    rw [hls, hstep, hl, List.map_nil, List.append_nil]

theorem tidy_of_feedAll (ls : List SourceLine) :
    ∀ s : Scan, Tidy (s.feedAll ls).entities → Tidy s.entities := by
  -- from the last line back to the first
  induction ls with
  | nil => intro s h; exact h
  | cons l ls ih =>
    intro s h
    have hstep : Tidy (s.feed l).entities := ih (s.feed l) h
    rw [feed_eq, report_entities] at hstep
    exact tidy_of_advance hstep

/-- **When nothing is found in some more lines.** They are in order from here on, and they leave
the entities tidy. -/
theorem findings_feedAll_iff (ls : List SourceLine) :
    ∀ s : Scan, Consistent s → Tidy s.entities →
      ((s.feedAll ls).findings = s.findings
        ↔ inOrder s.place (ls.map SourceLine.shape) = true ∧ Tidy (s.feedAll ls).entities) := by
  -- on the lines, for every consistent and tidy state: an accepted line keeps it so
  induction ls with
  | nil => intro s h htidy; simp [inOrder, htidy]
  | cons l ls ih =>
    intro s h htidy
    have hentities : (s.feed l).entities = (s.advance l.shape).entities := by
      rw [feed_eq, report_entities]
    have hplace : (s.feed l).place = (s.advance l.shape).place := by
      rw [feed_eq]
      rfl
    have hih := ih (s.feed l) (consistent_feed h l)
    rw [findings_feedAll_cons, issues_eq_nil_iff h htidy, feedAll_cons, List.map_cons]
    cases hnext : s.place.next? l.shape with
    | none => simp [inOrder, hnext]
    | some p =>
        rw [hentities, hplace, place_advance hnext] at hih
        simp only [inOrder, hnext, Option.isSome_some, true_and]
        constructor
        · intro hparts
          obtain ⟨hl, hls⟩ := hparts
          exact (hih hl).mp hls
        · intro hls
          have hl : Tidy (s.advance l.shape).entities := by
            rw [← hentities]
            exact tidy_of_feedAll ls (s.feed l) hls.2
          exact ⟨hl, (hih hl).mpr hls⟩

end Scan

/-- **When a text is clean.** Its lines are in order, and what it declares is tidy. -/
theorem lint_eq_nil_iff (source : String) :
    lint source = [] ↔ inOrder .outside (shapes source) = true ∧ Tidy (parse source) := by
  rw [lint_eq, parse_eq]
  exact Scan.findings_feedAll_iff (lines source.toList) Scan.start Scan.consistent_start tidy_nil

end EntitySchema
