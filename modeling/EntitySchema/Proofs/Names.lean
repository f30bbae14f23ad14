import EntitySchema.Proofs.Checks
import EntitySchema.Proofs.Clean
import EntitySchema.Proofs.Strictness

/-!
# Names, found and checked

Whether names are there and whether they appear once is looked at twice: by the reader, line by
line and with the names that it has kept, and by the check of a schema, entity by entity. The reader
says nothing about names exactly if the entities are `Named` (`any_concernsNames_lint`), and that is
all that the check asks for besides plain file names. What is left for the check of several clean
files is what none of them can tell alone: a name that is a path, and a name in two of the files.
-/

namespace EntitySchema

/-- Whether the issue is about a name of an entity or of a field that is missing or appears twice.
-/
def Issue.concernsNames : Issue → Bool
  | emptyEntityName | emptyFieldName _ | duplicateEntityName _ | duplicateFieldName _ _ => true
  | fieldOutsideEntity _ | missingSeparator _ _ | unrecognizedLine _ | missingOpenBrace _
  | emptyFieldType _ _ | bareAnnotationSign _ | fieldAfterClose _ _ => false

/-- Whether the finding is about a name. -/
def Finding.concernsNames (f : Finding) : Bool := f.issue.concernsNames

/-! ## Entities with names -/

/-- The entity and its fields have names, and no two fields have the same. -/
structure Entity.Named (e : Entity) : Prop where
  name : e.name ≠ ""
  fields : ∀ f ∈ e.fields, f.name ≠ ""
  distinct : e.fieldNames.Nodup

/-- All entities have names, and no two have the same. -/
structure Named (es : List Entity) : Prop where
  entities : ∀ e ∈ es, e.Named
  distinct : (es.map Entity.name).Nodup

theorem named_nil : Named [] := ⟨by simp, by simp⟩

/-- What a header has to have for the entities to stay named. -/
theorem named_concat_ofName {es : List Entity} {name : String} :
    Named (es ++ [⟨name, []⟩]) ↔ Named es ∧ name ≠ "" ∧ name ∉ es.map Entity.name := by
  have hlone : Entity.Named ⟨name, []⟩ ↔ name ≠ "" :=
    ⟨fun h => h.name, fun h => ⟨h, by simp, by simp [Entity.fieldNames]⟩⟩
  constructor
  · rintro ⟨hall, hdistinct⟩
    obtain ⟨hes, hlast⟩ := List.forall_mem_append.mp hall
    rw [List.map_append] at hdistinct
    obtain ⟨hnames, hnew⟩ := nodup_concat_iff.mp hdistinct
    exact ⟨⟨hes, hnames⟩, hlone.mp (List.forall_mem_singleton.mp hlast), hnew⟩
  · rintro ⟨⟨hes, hnames⟩, hne, hnew⟩
    refine ⟨List.forall_mem_append.mpr ⟨hes, List.forall_mem_singleton.mpr (hlone.mpr hne)⟩, ?_⟩
    rw [List.map_append]
    exact nodup_concat_iff.mpr ⟨hnames, hnew⟩

theorem Entity.named_addField {e : Entity} {f : Field} :
    (e.addField f).Named ↔ e.Named ∧ f.name ≠ "" ∧ f.name ∉ e.fieldNames := by
  have hnames := Entity.fieldNames_addField e f
  constructor
  · rintro ⟨hname, hfields, hdistinct⟩
    obtain ⟨hfs, hlast⟩ := List.forall_mem_append.mp hfields
    obtain ⟨hold, hnew⟩ := nodup_concat_iff.mp (hnames ▸ hdistinct)
    exact ⟨⟨hname, hfs, hold⟩, hlast f List.mem_cons_self, hnew⟩
  · rintro ⟨⟨hname, hfs, hold⟩, hf, hnew⟩
    refine ⟨hname, List.forall_mem_append.mpr ⟨hfs, by simpa using hf⟩, ?_⟩
    rw [hnames]
    exact nodup_concat_iff.mpr ⟨hold, hnew⟩

/-- What a field has to have for the entities to stay named. -/
theorem named_concat_addField {es : List Entity} {e : Entity} {f : Field} :
    Named (es ++ [e.addField f])
      ↔ Named (es ++ [e]) ∧ f.name ≠ "" ∧ f.name ∉ e.fieldNames := by
  have hnames : (es ++ [e.addField f]).map Entity.name = (es ++ [e]).map Entity.name := by
    rw [List.map_append, List.map_append]
    rfl
  have hall (e' : Entity) : (∀ x ∈ es ++ [e'], x.Named) ↔ (∀ x ∈ es, x.Named) ∧ e'.Named := by
    rw [List.forall_mem_append, List.forall_mem_singleton]
  constructor
  · rintro ⟨hnamed, hdistinct⟩
    obtain ⟨hes, hlast⟩ := (hall _).mp hnamed
    obtain ⟨he, hf⟩ := Entity.named_addField.mp hlast
    exact ⟨⟨(hall e).mpr ⟨hes, he⟩, hnames ▸ hdistinct⟩, hf⟩
  · rintro ⟨⟨hnamed, hdistinct⟩, hf⟩
    obtain ⟨hes, he⟩ := (hall e).mp hnamed
    refine ⟨(hall _).mpr ⟨hes, Entity.named_addField.mpr ⟨he, hf⟩⟩, ?_⟩
    rw [hnames]
    exact hdistinct

/-! ## What the reader says about names -/

namespace Scan

variable {s : Scan}

theorem any_concernsNames_headerIssues (s : Scan) (name : String) (hasBrace : Bool) :
    (s.headerIssues name hasBrace).any Issue.concernsNames = false
      ↔ name ≠ "" ∧ name ∉ s.entityNames := by
  unfold headerIssues
  simp only [List.any_append, apply_ite (List.any · Issue.concernsNames), List.any_cons,
    List.any_nil, Issue.concernsNames, Bool.or_false, ite_self]
  simp

/-- **What one line does to the names.** The entities are named after a line exactly if they were
before and the line gives no reason to speak of names. -/
theorem named_advance_iff (h : Consistent s) (text : String) (l : Line) :
    Named (s.advance l).entities
      ↔ Named s.entities ∧ (s.issues text l).any Issue.concernsNames = false := by
  cases l with
  | header name hasBrace =>
    rw [advance_header_entities, named_concat_ofName, ← h.entityNames,
      ← s.any_concernsNames_headerIssues _ hasBrace]
    rfl
  | field f =>
    cases hc : s.current with
    | none => simp [advance_field_of_none hc, issues, hc, Issue.concernsNames]
    | some o =>
      have hissues : (o.issues f.toField).any Issue.concernsNames = false
          ↔ f.toField.name ≠ "" ∧ f.toField.name ∉ o.fieldNames := by
        unfold OpenEntity.issues
        by_cases hempty : f.toField.name = ""
        · simp [hempty, Issue.concernsNames]
        · simp only [String.isEmpty_iff, hempty, if_false, List.any_append,
            apply_ite (List.any · Issue.concernsNames), List.any_cons, List.any_nil,
            Issue.concernsNames, Bool.or_false, ite_self]
          simp [hempty]
      -- a name that is there is new to the reader if it is new among the fields
      have hnew : f.toField.name ≠ "" ∧ f.toField.name ∉ o.fieldNames
          ↔ f.toField.name ≠ "" ∧ f.toField.name ∉ o.entity.fieldNames := by
        refine and_congr_right fun hne => not_congr ?_
        rw [h.fieldNames o hc]
        exact and_iff_right hne
      simp only [issues, hc]
      rw [advance_field_entities hc, named_concat_addField, ← entities_of_current hc, hissues, hnew]
  | close =>
    rw [advance_close_entities]
    cases hc : s.current <;> simp [issues, hc, Issue.concernsNames]
  | other => cases hc : s.current <;> simp [advance, issues, hc, Issue.concernsNames]
  | blank => simp [advance, issues]
  | comment => simp [advance, issues]

theorem any_concernsNames_feed (s : Scan) (l : SourceLine) :
    (s.feed l).findings.any Finding.concernsNames
      = (s.findings.any Finding.concernsNames
        || (s.issues (String.ofList l.text) l.shape).any Issue.concernsNames) := by
  rw [feed_findings, List.any_append, List.any_map]
  rfl

/-- **The findings about names follow the entities.** If the two agree at some moment, they agree
after any further lines. -/
theorem any_concernsNames_feedAll (ls : List SourceLine) :
    ∀ s : Scan, Consistent s →
      (s.findings.any Finding.concernsNames = false ↔ Named s.entities) →
      ((s.feedAll ls).findings.any Finding.concernsNames = false
        ↔ Named (s.feedAll ls).entities) := by
  induction ls with
  | nil => exact fun s _ hs => hs
  | cons l ls ih =>
    intro s h hs
    refine ih (s.feed l) (consistent_feed h l) ?_
    rw [any_concernsNames_feed, Bool.or_eq_false_iff, hs, feed_eq, report_entities,
      named_advance_iff h]

end Scan

/-- **When nothing is found about names.** -/
theorem any_concernsNames_lint (source : String) :
    (lint source).any Finding.concernsNames = false ↔ Named (parse source) := by
  rw [lint_eq, parse_eq]
  exact Scan.any_concernsNames_feedAll (lines source.toList) Scan.start Scan.consistent_start
    (iff_of_true rfl named_nil)

/-! ## What the check of a schema asks for -/

theorem Entity.fault?_eq_none_iff_named {e : Entity} :
    e.fault? = none ↔ e.Named ∧ Name.isPlainFileName e.name = true := by
  have hname : e.nameFault? = none ↔ e.name ≠ "" ∧ Name.isPlainFileName e.name = true := by
    rw [nameFault?_eq_none_iff, isPlainFileName_iff]
    exact (and_iff_right_of_imp PlainName.ne_empty).symm
  rw [fault?_eq_none_iff, hname]
  constructor
  · rintro ⟨⟨hne, hplain⟩, hfields, hdistinct⟩
    exact ⟨⟨hne, hfields, hdistinct⟩, hplain⟩
  · rintro ⟨⟨hne, hfields, hdistinct⟩, hplain⟩
    exact ⟨⟨hne, hplain⟩, hfields, hdistinct⟩

theorem checkSchema_eq_ok_iff_named {es : List Entity} :
    checkSchema es = .ok () ↔ Named es ∧ ∀ e ∈ es, Name.isPlainFileName e.name = true := by
  simp only [checkSchema_eq_ok_iff, Entity.fault?_eq_none_iff_named]
  constructor
  · rintro ⟨hall, hdistinct⟩
    exact ⟨⟨fun e he => (hall e he).1, hdistinct⟩, fun e he => (hall e he).2⟩
  · rintro ⟨hnamed, hplain⟩
    exact ⟨fun e he => ⟨hnamed.entities e he, hplain e he⟩, hnamed.distinct⟩

/-- A named entity has one fault at most, its name. -/
theorem Entity.Named.fault_eq {e : Entity} (h : e.Named) {fault : SchemaFault}
    (hfault : e.fault? = some fault) :
    fault = .invalidEntityName e.name ∧ Name.isPlainFileName e.name = false := by
  have hfields : fieldsFault? e.name [] e.fields = none :=
    fieldsFault?_eq_none_iff.mpr ⟨h.fields, h.distinct, by simp⟩
  unfold fault? nameFault? at hfault
  rw [hfields, if_neg (by simpa using h.name)] at hfault
  cases hplain : Name.isPlainFileName e.name with
  | true => simp [hplain] at hfault
  | false =>
    simp only [hplain, Bool.false_eq_true, if_false] at hfault
    exact ⟨(Option.some.inj hfault).symm, rfl⟩

/-- The fault of several entities is that of one of them, or the name of one appears among those
before it. -/
theorem Entity.exists_of_schemaFault? {seen : List String} {es : List Entity} {fault : SchemaFault}
    (h : schemaFault? seen es = some fault) :
    ∃ before e after, es = before ++ e :: after
      ∧ (e.fault? = some fault
        ∨ fault = .duplicateEntityName e.name
          ∧ (e.name ∈ seen ∨ e.name ∈ before.map Entity.name)) := by
  induction es generalizing seen with
  | nil => exact nomatch h
  | cons e es ih =>
    unfold schemaFault? at h
    split at h
    · next fault' hfault =>
      cases h
      exact ⟨[], e, es, rfl, .inl hfault⟩
    · split at h
      · next hseen =>
        cases h
        exact ⟨[], e, es, rfl, .inr ⟨rfl, .inl (by simpa using hseen)⟩⟩
      · obtain ⟨before, e', after, rfl, hcause⟩ := ih h
        refine ⟨e :: before, e', after, rfl, hcause.imp_right ?_⟩
        rintro ⟨hdup, hmem⟩
        refine ⟨hdup, ?_⟩
        rw [List.map_cons, List.mem_cons]
        rcases hmem with hmem | hmem
        · -- the name of the first entity is one of those seen by the others
          rcases List.mem_cons.mp hmem with hfirst | hseen
          · exact .inr (.inl hfirst)
          · exact .inl hseen
        · exact .inr (.inr hmem)

/-! ## Several files -/

namespace SchemaFile

/-- The file has been read from some disk. -/
def Loaded (f : SchemaFile) : Prop :=
  ∃ (path : Path) (d : Disk), ((load path : StateM Disk _).run d).1 = .ok f

/-- The names of the entities of the file. -/
def names (f : SchemaFile) : List String := f.entities.map Entity.name

/-- The entities of a loaded file without findings are named. -/
theorem Loaded.named {f : SchemaFile} (h : f.Loaded) (hclean : f.findings = []) :
    Named f.entities := by
  obtain ⟨path, d, hload⟩ := h
  obtain ⟨text, -, rfl⟩ := load_eq_ok_iff.mp hload
  have hlint : lint text = [] := hclean
  show Named (parse text)
  exact (any_concernsNames_lint text).mp (by rw [hlint]; rfl)

end SchemaFile

/-- Two of the files declare an entity with this name. -/
def DeclaredTwice (files : List SchemaFile) (name : String) : Prop :=
  ∃ (i j : Nat) (f f' : SchemaFile), i < j ∧ files[i]? = some f ∧ files[j]? = some f'
    ∧ name ∈ f.names ∧ name ∈ f'.names

/-- An entity in the files has this name, and it is no plain file name. -/
def DeclaredAsPath (files : List SchemaFile) (name : String) : Prop :=
  (∃ f ∈ files, name ∈ f.names) ∧ Name.isPlainFileName name = false

theorem map_name_allEntities (files : List SchemaFile) :
    (allEntities files).map Entity.name = files.flatMap SchemaFile.names := by
  unfold allEntities SchemaFile.names
  rw [List.map_flatMap]

theorem DeclaredTwice.cons {files : List SchemaFile} {name : String} (h : DeclaredTwice files name)
    (f : SchemaFile) : DeclaredTwice (f :: files) name := by
  obtain ⟨i, j, g, g', hlt, hi, hj, hg, hg'⟩ := h
  exact ⟨i + 1, j + 1, g, g', Nat.add_lt_add_right hlt 1, hi, hj, hg, hg'⟩

/-- A name that appears twice and not twice in one file is in two of them. -/
theorem declaredTwice_of_count {files : List SchemaFile} {name : String}
    (hfiles : ∀ f ∈ files, f.names.Nodup) (h : 2 ≤ (files.flatMap SchemaFile.names).count name) :
    DeclaredTwice files name := by
  induction files with
  | nil => simp at h
  | cons f files ih =>
    obtain ⟨hf, hrest⟩ := List.forall_mem_cons.mp hfiles
    rw [List.flatMap_cons, List.count_append] at h
    have hone : f.names.count name ≤ 1 := List.nodup_iff_count_le_one.mp hf name
    by_cases htwo : 2 ≤ (files.flatMap SchemaFile.names).count name
    · exact (ih hrest htwo).cons f
    · have hfirst : name ∈ f.names := List.count_pos_iff.mp (by omega)
      have hlater : name ∈ files.flatMap SchemaFile.names := List.count_pos_iff.mp (by omega)
      obtain ⟨f', hf', hname⟩ := List.mem_flatMap.mp hlater
      obtain ⟨j, hj⟩ := List.getElem?_of_mem hf'
      exact ⟨0, j + 1, f, f', Nat.succ_pos j, rfl, hj, hfirst, hname⟩

/-- A name in two of the files appears twice. -/
theorem not_nodup_of_declaredTwice {files : List SchemaFile} {name : String}
    (h : DeclaredTwice files name) : ¬ (files.flatMap SchemaFile.names).Nodup := by
  obtain ⟨i, j, f, f', hlt, hi, hj, hf, hf'⟩ := h
  intro hnodup
  obtain ⟨hile, rfl⟩ := List.getElem?_eq_some_iff.mp hi
  obtain ⟨hjle, rfl⟩ := List.getElem?_eq_some_iff.mp hj
  have hdisjoint := (List.nodup_flatMap.mp hnodup).2
  exact List.pairwise_iff_getElem.mp hdisjoint i j hile hjle hlt hf hf'

theorem enforceStrict_of_clean {files : List SchemaFile} (hclean : ∀ f ∈ files, f.findings = []) :
    enforceStrict files = (checkSchema (allEntities files)).mapError .invalidSchema := by
  have hnone : (files.filter fun f => !f.findings.isEmpty) = [] := by simpa using hclean
  unfold enforceStrict
  rw [hnone]

theorem exists_schemaFault?_of_error {es : List Entity} {failure : Failure}
    (h : (checkSchema es).mapError Failure.invalidSchema = .error failure) :
    ∃ fault, Entity.schemaFault? [] es = some fault ∧ failure = .invalidSchema fault := by
  unfold checkSchema at h
  cases hfault : Entity.schemaFault? [] es with
  | none => rw [hfault] at h; exact nomatch h
  | some fault =>
    rw [hfault] at h
    exact ⟨fault, rfl, (Except.error.inj h).symm⟩

/-- **What files without findings are turned away for.** -/
theorem enforceStrict_of_clean_error {files : List SchemaFile} (hloaded : ∀ f ∈ files, f.Loaded)
    (hclean : ∀ f ∈ files, f.findings = []) {failure : Failure}
    (h : enforceStrict files = .error failure) :
    (∃ name, failure = .invalidSchema (.invalidEntityName name) ∧ DeclaredAsPath files name)
      ∨ ∃ name, failure = .invalidSchema (.duplicateEntityName name)
        ∧ DeclaredTwice files name := by
  have hnamed : ∀ f ∈ files, Named f.entities := fun f hf => (hloaded f hf).named (hclean f hf)
  rw [enforceStrict_of_clean hclean] at h
  obtain ⟨fault, hfault, rfl⟩ := exists_schemaFault?_of_error h
  obtain ⟨before, e, after, hsplit, hcause⟩ := Entity.exists_of_schemaFault? hfault
  have hmem : e ∈ allEntities files := by
    rw [hsplit]
    exact List.mem_append_right _ List.mem_cons_self
  obtain ⟨f, hf, he⟩ := List.mem_flatMap.mp hmem
  rcases hcause with hown | ⟨rfl, hearlier⟩
  · obtain ⟨rfl, hpath⟩ := ((hnamed f hf).entities e he).fault_eq hown
    exact .inl ⟨e.name, rfl, ⟨f, hf, List.mem_map_of_mem he⟩, hpath⟩
  · refine .inr ⟨e.name, rfl, declaredTwice_of_count (fun f hf => (hnamed f hf).distinct) ?_⟩
    have hbefore : e.name ∈ before.map Entity.name := hearlier.resolve_left (by simp)
    have hcount := List.count_pos_iff.mpr hbefore
    rw [← map_name_allEntities, hsplit, List.map_append, List.map_cons, List.count_append,
      List.count_cons_self]
    omega

theorem enforceStrict_of_clean_ne_ok {files : List SchemaFile} {name : String}
    (hclean : ∀ f ∈ files, f.findings = [])
    (h : DeclaredAsPath files name ∨ DeclaredTwice files name) :
    ∃ failure, enforceStrict files = .error failure := by
  have hfails : checkSchema (allEntities files) ≠ .ok () := by
    rw [Ne, checkSchema_eq_ok_iff_named]
    rintro ⟨hnamed, hplain⟩
    rcases h with ⟨⟨f, hf, hname⟩, hpath⟩ | htwice
    · obtain ⟨e, he, rfl⟩ := List.mem_map.mp hname
      rw [hplain e (List.mem_flatMap.mpr ⟨f, hf, he⟩)] at hpath
      exact nomatch hpath
    · exact not_nodup_of_declaredTwice htwice (map_name_allEntities files ▸ hnamed.distinct)
  rw [enforceStrict_of_clean hclean]
  cases hcheck : checkSchema (allEntities files) with
  | ok u => exact absurd hcheck hfails
  | error fault => exact ⟨_, rfl⟩

/-- **The reader and the check agree about names.** If all names of a text that are there are plain
file names, the check takes its entities exactly if the reader finds nothing about names. Files
without findings are turned away together for a name that is a path or that two of them declare,
and for nothing else. -/
theorem lint_agrees_with_check :
    (∀ source : String,
      (∀ e ∈ parse source, e.name ≠ "" → Name.isPlainFileName e.name = true) →
      (checkSchema (parse source) = .ok () ↔ ∀ f ∈ lint source, f.concernsNames = false))
    ∧ ∀ files : List SchemaFile, (∀ f ∈ files, f.Loaded) → (∀ f ∈ files, f.findings = []) →
      (∀ failure, enforceStrict files = .error failure →
        (∃ name, failure = .invalidSchema (.invalidEntityName name) ∧ DeclaredAsPath files name)
        ∨ ∃ name, failure = .invalidSchema (.duplicateEntityName name)
          ∧ DeclaredTwice files name)
      ∧ ∀ name, DeclaredAsPath files name ∨ DeclaredTwice files name →
        ∃ failure, enforceStrict files = .error failure := by
  constructor
  · intro source hplain
    have hnone : (∀ f ∈ lint source, f.concernsNames = false)
        ↔ (lint source).any Finding.concernsNames = false := by
      simp
    rw [hnone, any_concernsNames_lint, checkSchema_eq_ok_iff_named]
    exact and_iff_left_of_imp fun hnamed e he => hplain e he (hnamed.entities e he).name
  · intro files hloaded hclean
    exact ⟨fun failure => enforceStrict_of_clean_error hloaded hclean,
      fun name => enforceStrict_of_clean_ne_ok hclean⟩

/-- A field that appears twice is found and is a fault. An entity that appears in two files is a
fault, and in neither of them anything is found. -/
theorem lint_agrees_with_check_of_twice :
    let twice := "entity A \x7b\nb: long\nb: string\n\x7d"
    let once := "entity A \x7b\n\x7d"
    let files : List SchemaFile := [⟨⟨"a.dsl"⟩, read once⟩, ⟨⟨"b.dsl"⟩, read once⟩]
    checkSchema (parse twice) ≠ .ok ()
      ∧ (∀ f ∈ files, f.findings = []) ∧ ∃ failure, enforceStrict files = .error failure := by
  intro twice once files
  have hplain : ∀ e ∈ parse twice, e.name ≠ "" → Name.isPlainFileName e.name = true := by
    decide +kernel
  have hclean : ∀ f ∈ files, f.findings = [] := by decide +kernel
  have hloaded : ∀ f ∈ files, f.Loaded := by
    let d : Disk := ⟨[(["a.dsl"], .file once.toUTF8), (["b.dsl"], .file once.toUTF8)], []⟩
    have ha : SchemaFile.Loaded ⟨⟨"a.dsl"⟩, read once⟩ := ⟨_, d, SchemaFile.load_of_read rfl⟩
    have hb : SchemaFile.Loaded ⟨⟨"b.dsl"⟩, read once⟩ := ⟨_, d, SchemaFile.load_of_read rfl⟩
    exact List.forall_mem_cons.mpr ⟨ha, List.forall_mem_singleton.mpr hb⟩
  have htwo : DeclaredTwice files "A" :=
    ⟨0, 1, _, _, Nat.one_pos, rfl, rfl, by decide +kernel, by decide +kernel⟩
  refine ⟨?_, hclean, (lint_agrees_with_check.2 files hloaded hclean).2 "A" (.inr htwo)⟩
  rw [Ne, lint_agrees_with_check.1 twice hplain]
  decide +kernel

end EntitySchema
