import EntitySchema.Java.Class

/-!
# What the checks of entities come to

An entity without a fault has a plain file name, and its fields have names, no two the same
(`Entity.fault?_eq_none_iff`). Entities can be generated side by side if none has a fault and no
two have the same name (`checkSchema_eq_ok_iff`). A class asks for less: fields may share a name
(`Java.exists_render_iff`). Where it has room, a machine makes the class that there is
(`Java.textIn_eq_ite`).
-/

namespace EntitySchema

/-- A name that leads to one entry of the directory that it is joined to, and never out of it. -/
structure PlainName (name : String) : Prop where
  ne_empty : name ≠ ""
  noSlash : '/' ∉ name.toList
  noBackslash : '\\' ∉ name.toList
  ne_here : name ≠ "."
  ne_up : name ≠ ".."

theorem isPlainFileName_iff {name : String} :
    Name.isPlainFileName name = true ↔ PlainName name := by
  have hslashes : (∀ c ∈ name.toList, c ≠ '/' ∧ c ≠ '\\')
      ↔ '/' ∉ name.toList ∧ '\\' ∉ name.toList := by
    simp only [forall_and, ne_eq]
    exact and_congr List.forall_mem_ne' List.forall_mem_ne'
  unfold Name.isPlainFileName
  simp only [Bool.and_eq_true, List.all_eq_true, bne_iff_ne, hslashes, Bool.not_eq_true',
    String.isEmpty_eq_false_iff]
  constructor
  · rintro ⟨⟨⟨hempty, hslash, hback⟩, hhere⟩, hup⟩
    exact ⟨hempty, hslash, hback, hhere, hup⟩
  · intro h
    exact ⟨⟨⟨h.ne_empty, h.noSlash, h.noBackslash⟩, h.ne_here⟩, h.ne_up⟩

namespace Entity

/-- The name of an entity has no fault exactly if it is plain. -/
theorem nameFault?_eq_none_iff {e : Entity} : e.nameFault? = none ↔ PlainName e.name := by
  have hchecks : e.nameFault? = none ↔ e.name ≠ "" ∧ Name.isPlainFileName e.name = true := by
    unfold nameFault?
    by_cases hempty : e.name = "" <;> simp [hempty]
  rw [hchecks, isPlainFileName_iff]
  exact and_iff_right_of_imp PlainName.ne_empty

/-- Fields have no fault if each has a name, which no other has and none of those before. -/
theorem fieldsFault?_eq_none_iff {entity : String} {seen : List String} {fs : List Field} :
    fieldsFault? entity seen fs = none
      ↔ (∀ f ∈ fs, f.name ≠ "") ∧ (fs.map Field.name).Nodup
        ∧ ∀ f ∈ fs, f.name ∉ seen := by
  induction fs generalizing seen with
  | nil => simp [fieldsFault?]
  | cons f fs ih =>
    unfold fieldsFault?
    by_cases hempty : f.name = ""
    · simp [hempty]
    · by_cases hseen : f.name ∈ seen
      · simp [hempty, hseen]
      · -- the name is one of those before for all fields that follow
        rw [if_neg (by simpa using hempty), if_neg (by simpa using hseen), ih]
        simp only [List.map_cons, List.nodup_cons, List.mem_map, List.mem_cons]
        grind

/-- An entity has no fault if neither its name nor its fields have one. -/
theorem fault?_eq_none_iff {e : Entity} :
    e.fault? = none ↔ e.nameFault? = none
      ∧ (∀ f ∈ e.fields, f.name ≠ "") ∧ e.fieldNames.Nodup := by
  unfold fault? fieldNames
  rw [Option.orElse_eq_orElse, Option.orElse_eq_or, Option.or_eq_none_iff, fieldsFault?_eq_none_iff]
  simp

theorem check_eq_ok_iff {e : Entity} : e.check = .ok () ↔ e.fault? = none := by
  unfold check
  cases e.fault? <;> simp

/-- Entities have no fault if none of them has one, and each has a name that no other has and none
of those before. -/
theorem schemaFault?_eq_none_iff {seen : List String} {es : List Entity} :
    schemaFault? seen es = none
      ↔ (∀ e ∈ es, e.fault? = none) ∧ (es.map Entity.name).Nodup ∧ ∀ e ∈ es, e.name ∉ seen := by
  induction es generalizing seen with
  | nil => simp [schemaFault?]
  | cons e es ih =>
    unfold schemaFault?
    cases hfault : e.fault? with
    | some fault => simp [hfault]
    | none =>
      dsimp only
      by_cases hseen : e.name ∈ seen
      · simp [hseen]
      · rw [if_neg (by simpa using hseen), ih]
        simp only [List.map_cons, List.nodup_cons, List.mem_map, List.mem_cons]
        grind

end Entity

/-- **Entities can be generated side by side exactly if none has a fault and no two have the same
name.** -/
theorem checkSchema_eq_ok_iff {es : List Entity} :
    checkSchema es = .ok () ↔ (∀ e ∈ es, e.fault? = none) ∧ (es.map Entity.name).Nodup := by
  have hnone : checkSchema es = .ok () ↔ Entity.schemaFault? [] es = none := by
    unfold checkSchema
    cases Entity.schemaFault? [] es <;> simp
  rw [hnone, Entity.schemaFault?_eq_none_iff]
  simp

namespace Java

/-- Fields have members exactly if each has a name. -/
theorem exists_mapM_ofField?_iff {fs : List Field} :
    (∃ members, fs.mapM Member.ofField? = some members) ↔ ∀ f ∈ fs, f.name ≠ "" := by
  induction fs with
  | nil => simp
  | cons f fs ih =>
    rw [List.forall_mem_cons, ← ih]
    by_cases hempty : f.name = ""
    · simp [List.mapM_cons, Member.ofField?, Name.capitalized?, hempty]
    · cases hmembers : fs.mapM Member.ofField? <;>
        simp [List.mapM_cons, Member.ofField?, Name.capitalized?, hempty, hmembers]

/-- An entity has a class with these members if its name is a plain file name, and they are the
members of its fields. -/
theorem membersOf_eq_ok_iff {e : Entity} {ms : List Member} :
    membersOf e = .ok ms ↔ e.nameFault? = none ∧ e.fields.mapM Member.ofField? = some ms := by
  unfold membersOf
  cases e.nameFault? with
  | some fault => simp
  | none => cases e.fields.mapM Member.ofField? <;> simp

theorem render_eq_ok_iff {o : Options} {e : Entity} {code : String} :
    render o e = .ok code ↔ ∃ ms, membersOf e = .ok ms ∧ fileText o e ms = code := by
  unfold render
  cases membersOf e <;> simp [Except.map]

/-- Why an entity has no class is not up to the options. -/
theorem render_eq_error_iff_membersOf {o : Options} {e : Entity} {fault : SchemaFault} :
    render o e = .error fault ↔ membersOf e = .error fault := by
  unfold render
  cases membersOf e <;> simp [Except.map]

/-- A class is made of the members of the fields. -/
theorem exists_members_of_render {o : Options} {e : Entity} {code : String}
    (h : render o e = .ok code) :
    ∃ ms, e.fields.mapM Member.ofField? = some ms
      ∧ code = packagePart o.package ++ importPart e.fields
        ++ classPart (String.ofList (List.replicate o.indent.toNat ' ')) e.name ms := by
  obtain ⟨ms, hms, rfl⟩ := render_eq_ok_iff.mp h
  exact ⟨ms, (membersOf_eq_ok_iff.mp hms).2, rfl⟩

/-- **An entity has a class exactly if its name is a plain file name and each of its fields has a
name.** -/
theorem exists_render_iff {o : Options} {e : Entity} :
    (∃ code, render o e = .ok code)
      ↔ e.nameFault? = none ∧ ∀ f ∈ e.fields, f.name ≠ "" := by
  simp only [render_eq_ok_iff, membersOf_eq_ok_iff, ← exists_mapM_ofField?_iff, exists_comm,
    exists_and_left, exists_eq', and_true]

/-- An entity without a fault has a class. -/
theorem exists_render_of_fault? {e : Entity} (h : e.fault? = none) (o : Options) :
    ∃ code, render o e = .ok code :=
  have ⟨hname, hfields, _⟩ := Entity.fault?_eq_none_iff.mp h
  exists_render_iff.mpr ⟨hname, hfields⟩

/-! ## Room for a class -/

/-- The class of an entity, if there is one, is a text that a machine can hold. -/
def HasRoom (o : Options) (e : Entity) : Prop :=
  ∀ code, render o e = .ok code → code.utf8ByteSize ≤ Text.maxSize

instance (o : Options) (e : Entity) : Decidable (HasRoom o e) :=
  match h : render o e with
  | .ok code =>
    decidable_of_iff (code.utf8ByteSize ≤ Text.maxSize)
      ⟨fun hsize _ hcode => Except.ok.inj (h.symm.trans hcode) ▸ hsize, fun hroom => hroom code h⟩
  | .error _ => isTrue fun _ hcode => nomatch h.symm.trans hcode

theorem HasRoom.fileText_le {o : Options} {e : Entity} {ms : List Member} (h : HasRoom o e)
    (hms : membersOf e = .ok ms) : (fileText o e ms).utf8ByteSize ≤ Text.maxSize :=
  h _ (render_eq_ok_iff.mpr ⟨ms, hms, rfl⟩)

theorem utf8ByteSize_spaces (n : Nat) :
    (String.ofList (List.replicate n ' ')).utf8ByteSize = n := by
  induction n with
  | zero => rfl
  | succ n ih =>
    rw [List.replicate_succ, String.ofList_cons, String.utf8ByteSize_append, ih]
    exact Nat.add_comm 1 n

/-- The constructor of a class stands behind its indentation. -/
theorem indent_le_fileText (o : Options) (e : Entity) (ms : List Member) :
    o.indent.toNat ≤ (fileText o e ms).utf8ByteSize := by
  unfold fileText classPart
  simp only [String.utf8ByteSize_append, utf8ByteSize_spaces]
  omega

end Java

end EntitySchema
