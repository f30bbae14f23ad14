import EntitySchema.Proofs.Clean
import EntitySchema.Proofs.History

/-!
# What the parser keeps

Beside the entities a parser stores at which of them it is, whether that one has been closed, and
the names that are taken. All of this could be told from the lines that it was fed, and `Kept` says
that it is as the lines tell, whatever lines come in whatever order (`Parser.kept_feedAll`). So the
position is never past the entities, and it only moves when a header adds one. What has been found,
and an entity that is not at the position, are never touched again.

The invariant is carried by the scan of the parser, in which no field says what another one says.
-/

namespace EntitySchema

namespace Scan

variable {s : Scan}

/-! ## The state after some lines -/

/-- Lines keep the names consistent and the state in line with what has been read. -/
theorem tracks_feedAll (ls : List SourceLine) :
    ∀ (before : List Line) (s : Scan), Tracks before s → Consistent s →
      Tracks (before ++ ls.map SourceLine.shape) (s.feedAll ls) ∧ Consistent (s.feedAll ls) := by
  -- on the lines, for all lines before: each step moves one shape over to them
  induction ls with
  | nil => intro before s h hs; simpa using ⟨h, hs⟩
  | cons l ls ih =>
    intro before s h hs
    have hrun := ih (before ++ [l.shape]) (s.feed l) (tracks_feed h l) (consistent_feed hs l)
    rwa [List.append_assoc] at hrun

/-- What has been read from the start is what the lines declare. -/
theorem entities_feedAll_start (ls : List SourceLine) :
    (start.feedAll ls).entities = segmentation (ls.map SourceLine.shape) := by
  rw [entities_feedAll]
  rfl

/-! ## What is never touched again -/

/-- A header finishes the open entity, and no other line finishes one. -/
theorem finished_prefix_advance (s : Scan) (l : Line) :
    s.finished <+: (s.advance l).finished := by
  cases l with
  | header name hasBrace => exact List.prefix_append _ _
  | _ => exact List.prefix_rfl

/-- Finished entities stay as they are. -/
theorem finished_prefix_feedAll (ls : List SourceLine) :
    ∀ s : Scan, s.finished <+: (s.feedAll ls).finished := by
  induction ls with
  | nil => intro s; exact List.prefix_rfl
  | cons l ls ih =>
    intro s
    have hstep : s.finished <+: (s.feed l).finished := by
      rw [feed_eq, report_finished]
      exact finished_prefix_advance s l.shape
    exact hstep.trans (ih (s.feed l))

theorem getElem?_entities_of_finished {fs : List Entity} (h : fs <+: s.finished) {i : Nat}
    (hi : i < fs.length) : s.entities[i]? = fs[i]? := by
  obtain ⟨rest, hrest⟩ := h
  unfold entities
  rw [← hrest, List.append_assoc, List.getElem?_append_left hi]

end Scan

namespace Parser

/-- What a parser stores is what these lines, fed to a new one, tell. -/
structure Kept (before : List Line) (p : Parser) : Prop where
  /-- There is one entity for each header, with the fields up to the next. -/
  entities : p.entities = segmentation before
  /-- The parser is at an entity once there is a header. -/
  begun : p.current.isSome ↔ ∃ l ∈ before, l.isHeader = true
  /-- It is at none exactly as long as there is no entity. -/
  away : p.current = none ↔ p.entities = []
  /-- It is at the last entity. -/
  atLast : ∀ i, p.current = some i → i + 1 = p.entities.length
  /-- The names that are taken are those of all entities. -/
  entityNames : ∀ n, n ∈ p.entityNames ↔ ∃ e ∈ p.entities, e.name = n
  /-- The names of fields that are taken are those in the entity at which the parser is, but for the
  empty one. -/
  fieldNames : ∀ n, n ∈ p.fieldNames ↔ n ≠ "" ∧ ∃ i e, p.current = some i
    ∧ p.entities[i]? = some e ∧ ∃ f ∈ e.fields, f.name = n
  /-- That entity is closed once a closing brace has followed the latest header. -/
  closed : p.closed = true ↔ (∃ l ∈ before, l.isHeader = true) ∧ Line.close ∈ sinceHeader before

variable {before : List Line} {p : Parser} {s : Scan}

/-! ## The parser and its scan -/

/-- A parser is at an entity where its scan has one open. -/
theorem Scans.current_eq_some_iff (h : p.Scans s) {i : Nat} :
    p.current = some i ↔ (∃ o, s.current = some o) ∧ s.finished.length = i := by
  rw [h.current]
  cases s.current <;> simp

/-- There is an open entity once there is a header. -/
theorem exists_header_iff (ht : s.Tracks before) (hs : s.Consistent) :
    (∃ l ∈ before, l.isHeader = true) ↔ ∃ o, s.current = some o := by
  have hlatest := ht.latest hs
  have hnone : latestHeader? before = none ↔ ¬ ∃ l ∈ before, l.isHeader = true := by
    unfold latestHeader?
    rw [List.getLast?_eq_none_iff, List.filterMap_eq_nil_iff]
    simp [Line.isHeader]
  rw [← not_iff_not, ← hnone, hlatest, Option.map_eq_none_iff]
  cases s.current <;> simp

/-- **A scan that is in line with the lines keeps its parser so.** -/
theorem Scans.kept (h : p.Scans s) (ht : s.Tracks before) (hs : s.Consistent)
    (hentities : s.entities = segmentation before) : p.Kept before where
  entities := h.entities.trans hentities
  begun := by
    rw [exists_header_iff ht hs, h.current]
    cases s.current <;> simp
  away := by
    rw [h.current, Option.map_eq_none_iff, h.entities]
    cases hc : s.current with
    | none =>
      have hnone : s.entities = [] := by
        unfold Scan.entities
        rw [hs.started hc, hc]
        rfl
      exact iff_of_true rfl hnone
    | some o => exact iff_of_false (by simp) (by rw [Scan.entities_of_current hc]; simp)
  atLast := by
    intro i hi
    obtain ⟨⟨o, hc⟩, rfl⟩ := h.current_eq_some_iff.mp hi
    rw [h.entities, Scan.entities_of_current hc, List.length_append, List.length_singleton]
  entityNames := by
    intro n
    rw [h.entityNames, hs.entityNames, List.mem_map, h.entities]
  fieldNames := by
    intro n
    rw [h.fieldNames]
    constructor
    · rintro ⟨o, hc, hn⟩
      obtain ⟨hne, hmem⟩ := (hs.fieldNames o hc n).mp hn
      exact ⟨hne, _, _, h.current_eq_some_iff.mpr ⟨⟨o, hc⟩, rfl⟩, h.getElem?_entities hc,
        List.mem_map.mp hmem⟩
    · rintro ⟨hne, i, e, hi, he, hmem⟩
      obtain ⟨⟨o, hc⟩, rfl⟩ := h.current_eq_some_iff.mp hi
      obtain rfl := Option.some.inj ((h.getElem?_entities hc).symm.trans he)
      exact ⟨o, hc, (hs.fieldNames o hc n).mpr ⟨hne, List.mem_map.mpr hmem⟩⟩
  closed := by
    rw [exists_header_iff ht hs, h.closed]
    cases hc : s.current with
    | none => simp
    | some o => simpa using ht.closed o hc

/-! ## All lines -/

/-- The scan of a parser that was fed these lines. -/
theorem scans_feedAll (ls : List SourceLine) :
    (new.feedAll ls).Scans (Scan.start.feedAll ls) := scans_new.feedAll ls

/-- **What a parser stores is kept by every sequence of lines.** -/
theorem kept_feedAll (ls : List SourceLine) :
    (new.feedAll ls).Kept (ls.map SourceLine.shape) := by
  obtain ⟨ht, hs⟩ := Scan.tracks_feedAll ls [] .start Scan.tracks_start Scan.consistent_start
  exact (scans_feedAll ls).kept ht hs (Scan.entities_feedAll_start ls)

/-- A field goes to the entity at which the parser is. -/
theorem entities_feed_field {i : Nat} (hcurrent : p.current = some i) {l : SourceLine}
    {f : FieldLine} (hl : l.shape = .field f) :
    (p.feed l).entities = p.entities.modify i (·.addField f.toField) := by
  have hfeed : p.feed l = p.addField f.toField (String.ofList l.text) l.span := by
    unfold feed
    rw [show Line.classify l.text = .field f from hl]
  rw [hfeed]
  simp only [addField, hcurrent, reportIf_eq, takeFieldName_eq]

/-- **An entity at which the parser is not stays as it is**, whatever lines come. -/
theorem Scans.getElem?_entities_feedAll (h : p.Scans s) (ls : List SourceLine) {i : Nat}
    (hi : i < p.entities.length) (hcurrent : p.current ≠ some i) :
    (p.feedAll ls).entities[i]? = p.entities[i]? := by
  have hfinished : i < s.finished.length := by
    rw [h.entities] at hi
    cases hc : s.current with
    | none =>
      have hnone : s.entities = s.finished := by
        unfold Scan.entities
        rw [hc]
        exact List.append_nil _
      rw [hnone] at hi
      exact hi
    | some o =>
      rw [Scan.entities_of_current hc, List.length_append, List.length_singleton] at hi
      have hne : s.finished.length ≠ i := fun heq =>
        hcurrent (h.current_eq_some_iff.mpr ⟨⟨o, hc⟩, heq⟩)
      omega
  rw [(h.feedAll ls).entities, h.entities,
    Scan.getElem?_entities_of_finished (Scan.finished_prefix_feedAll ls s) hfinished,
    Scan.getElem?_entities_of_finished List.prefix_rfl hfinished]

/-- **What a parser keeps, whatever lines it is fed.** After any lines it stores what the lines
tell: the entities, its position at the last of them, the names that are taken, and whether the
entity there is closed. A field goes to that entity. More lines add to what has been found, and
leave every other entity as it is. -/
theorem invariant_feedAll (ls more : List SourceLine) :
    (new.feedAll ls).Kept (ls.map SourceLine.shape)
      ∧ (∀ i l f, (new.feedAll ls).current = some i → l.shape = .field f →
        ((new.feedAll ls).feed l).entities
          = (new.feedAll ls).entities.modify i (·.addField f.toField))
      ∧ (new.feedAll ls).findings <+: (new.feedAll (ls ++ more)).findings
      ∧ ∀ i, i < (new.feedAll ls).entities.length → (new.feedAll ls).current ≠ some i →
        (new.feedAll (ls ++ more)).entities[i]? = (new.feedAll ls).entities[i]? := by
  refine ⟨kept_feedAll ls, ?_, ?_, ?_⟩
  · intro i l f hcurrent hl
    exact entities_feed_field hcurrent hl
  · rw [(scans_feedAll ls).findings, (scans_feedAll (ls ++ more)).findings, Scan.feedAll_append]
    exact Scan.findings_prefix_feedAll more (Scan.start.feedAll ls)
  · intro i hi hcurrent
    rw [feedAll_append]
    exact (scans_feedAll ls).getElem?_entities_feedAll more hi hcurrent

/-- A field after the headers of two entities goes to the second, which has been closed, and the
first one stays as it is. -/
theorem invariant_feedAll_second :
    let ls := lines "entity A \x7b\nentity B \x7b\n\x7d".toList
    let field := (⟨"b: long".toList, ⟨24, 31⟩⟩ : SourceLine)
    (new.feedAll ls).current = some 1 ∧ (new.feedAll ls).closed = true
      ∧ ((new.feedAll ls).feed field).entities = [⟨"A", []⟩, ⟨"B", [⟨"b", "long", []⟩]⟩]
      ∧ (new.feedAll (ls ++ [field])).entities[0]? = some ⟨"A", []⟩ := by
  intro ls field
  have hcurrent : (new.feedAll ls).current = some 1 := by decide +kernel
  have hentities : (new.feedAll ls).entities = [⟨"A", []⟩, ⟨"B", []⟩] := by decide +kernel
  have hshape : field.shape = .field ⟨"b".toList, "long".toList, []⟩ := by decide +kernel
  obtain ⟨hkept, hfield, -, hothers⟩ := invariant_feedAll ls [field]
  refine ⟨hcurrent, hkept.closed.mpr (by decide +kernel), ?_, ?_⟩
  · rw [hfield 1 field _ hcurrent hshape, hentities]
    rfl
  · have hfirst := hothers 0 (by rw [hentities]; decide) (by rw [hcurrent]; decide)
    rw [hfirst, hentities]
    rfl

end Parser

end EntitySchema
