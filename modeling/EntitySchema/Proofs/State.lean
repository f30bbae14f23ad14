import EntitySchema.Proofs.Feed

/-!
# The names that the reader keeps

To notice a name that is used twice the reader keeps names next to what it reads: those of the
entities, and those of the fields of the open entity. `Consistent` says that these are the names
of what it has read, at any moment and whatever the lines were. The empty name of a field is the
one exception: it is missing, and a missing name is not used twice.
-/

namespace EntitySchema

namespace Scan

/-- The names that the state keeps are those of what has been read. -/
structure Consistent (s : Scan) : Prop where
  /-- No entity is finished before one has been opened. -/
  started : s.current = none → s.finished = []
  /-- The names of entities are those of all entities. -/
  entityNames : ∀ n, n ∈ s.entityNames ↔ n ∈ s.entities.map Entity.name
  /-- The names of fields are those of the open entity, the empty one left out. -/
  fieldNames : ∀ o, s.current = some o →
    ∀ n, n ∈ o.fieldNames ↔ n ≠ "" ∧ n ∈ o.entity.fieldNames

theorem consistent_start : Consistent start where
  started := fun _ => rfl
  entityNames := by intro n; simp [start, entities]
  fieldNames := by intro o h; simp [start] at h

variable {s : Scan}

theorem consistent_header (h : Consistent s) (name : List Char) (hasBrace : Bool) :
    Consistent (s.advance (.header name hasBrace)) where
  started := by intro hnone; exact absurd hnone (by simp [advance, openEntity])
  entityNames := by
    intro n
    rw [advance_header_entities, List.map_append, List.mem_append, ← h.entityNames n]
    simp [advance, openEntity, or_comm]
  fieldNames := by
    intro o ho n
    obtain rfl : OpenEntity.ofName (String.ofList name) = o := Option.some.inj ho
    simp [OpenEntity.ofName, Entity.fieldNames]

theorem consistent_close (h : Consistent s) : Consistent (s.advance .close) where
  started := by intro hnone; exact h.started (Option.map_eq_none_iff.mp hnone)
  entityNames := by rw [advance_close_entities]; exact h.entityNames
  fieldNames := by
    intro o ho
    obtain ⟨o', ho', rfl⟩ := Option.map_eq_some_iff.mp ho
    exact h.fieldNames o' ho'

theorem consistent_field (h : Consistent s) (f : FieldLine) :
    Consistent (s.advance (.field f)) where
  started := by intro hnone; exact h.started (Option.map_eq_none_iff.mp hnone)
  entityNames := by rw [advance_field_names]; exact h.entityNames
  fieldNames := by
    intro o ho n
    obtain ⟨o', ho', rfl⟩ := Option.map_eq_some_iff.mp ho
    have hentity : (o'.addField f.toField).entity = o'.entity.addField f.toField := rfl
    rw [OpenEntity.mem_fieldNames_addField, h.fieldNames o' ho', ← and_or_left, hentity,
      Entity.fieldNames_addField, List.mem_append, List.mem_singleton]

/-- **Every step keeps the names consistent.** -/
theorem consistent_step (h : Consistent s) (l : Line) : Consistent (s.advance l) := by
  cases l with
  | header name hasBrace => exact consistent_header h name hasBrace
  | close => exact consistent_close h
  | field f => exact consistent_field h f
  | blank => exact h
  | comment => exact h
  | other => exact h

/-- The findings do not enter into what the state keeps. -/
theorem Consistent.report (h : Consistent s) (span : Span) (is : List Issue) :
    Consistent (s.report span is) := ⟨h.started, h.entityNames, h.fieldNames⟩

theorem consistent_feed (h : Consistent s) (l : SourceLine) : Consistent (s.feed l) := by
  rw [feed_eq]
  exact (consistent_step h l.shape).report _ _

end Scan

end EntitySchema
