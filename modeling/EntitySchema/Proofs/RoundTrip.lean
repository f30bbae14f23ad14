import EntitySchema.Proofs.PrintedSchema

/-!
# Which schemas printing keeps

A printed schema is read back as it was exactly if it is `Printable`. In one direction that is
`parse_printAll_of_writable`, with nothing to lose at the ends of the lines. The other direction
needs no look at what ill-formed entities print as, which may be anything: whatever is read back
has been read, so it can be written (`writable_of_mem_parse`), and then it is known what printing
does to it.
-/

namespace EntitySchema

open Text

/-- Printing keeps the field. -/
structure Field.Printable (f : Field) : Prop where
  name : Token f.name.toList
  colon : ':' ∉ f.name.toList
  opens : Line.OpensField f.name.toList
  type : Token f.typeName.toList
  sign : '@' ∉ f.typeName.toList
  /-- A type at the end of its line does not end in a semicolon. -/
  semicolon : f.annotations = [] → f.typeName.toList.getLast? ≠ some ';'
  annotations : ∀ a ∈ f.annotations,
    ∃ cs, a.text.toList = '@' :: cs ∧ Token cs ∧ ' ' ∉ cs ∧ '@' ∉ cs
  /-- The last annotation is not a bare sign and does not end in a semicolon. -/
  last : ∀ a, f.annotations.getLast? = some a →
    ∃ cs, a.text.toList = '@' :: cs ∧ cs ≠ [] ∧ cs.getLast? ≠ some ';'

/-- Printing keeps the entity. -/
structure Entity.Printable (e : Entity) : Prop where
  name : Token e.name.toList
  fields : ∀ f ∈ e.fields, f.Printable

/-! ## Ends that stay as they are -/

/-- The end of a line stays if there is no blank and no semicolon at it. -/
theorem settle_eq_self_iff {cs : List Char} :
    settle cs = cs ↔ trimEnd cs = cs ∧ cs.getLast? ≠ some ';' := by
  constructor
  · intro h
    have htrim : trimEnd cs = cs := by
      rw [← h]
      exact trimEnd_idem _
    refine ⟨htrim, fun hlast => ?_⟩
    -- what is left of a text with a semicolon at its end is shorter
    obtain ⟨init, rfl⟩ := List.getLast?_eq_some_iff.mp hlast
    unfold settle at h
    rw [htrim, dropSemicolon_concat] at h
    have hlen := (trimEnd_isPrefix init).length_le
    rw [h, List.length_append, List.length_singleton] at hlen
    omega
  · intro hparts
    obtain ⟨htrim, hlast⟩ := hparts
    unfold settle
    rw [htrim, dropSemicolon_of_ne hlast, htrim]

/-- The text of an annotation ends as what follows its sign, unless nothing does. -/
theorem getLast?_sign_cons (cs : List Char) :
    ('@' :: cs).getLast? = some ';' ↔ cs.getLast? = some ';' := by
  cases cs with
  | nil => simp
  | cons c cs => rw [List.getLast?_cons_cons]

theorem mk_ofList_eq_iff {a : Annotation} {cs : List Char} :
    (⟨String.ofList cs⟩ : Annotation) = a ↔ cs = a.text.toList := by
  obtain ⟨text⟩ := a
  rw [ Annotation.mk.injEq, ← String.toList_inj, String.toList_ofList]

/-- What the end of the line leaves of the last annotation. -/
theorem rereadAnnotations_last {a : Annotation} {cs : List Char} (ha : a.text.toList = '@' :: cs) :
    rereadAnnotations [a] = [a]
      ↔ trimEnd cs = cs ∧ cs ≠ [] ∧ cs.getLast? ≠ some ';' := by
  have hkept : (⟨String.ofList ('@' :: settle cs)⟩ : Annotation) = a ↔ settle cs = cs := by
    rw [mk_ofList_eq_iff, ha]
    simp
  rw [rereadAnnotations_singleton ha]
  by_cases hnil : settle cs = []
  · rw [if_pos hnil]
    constructor
    · intro h; exact absurd h (by simp)
    · intro hparts
      obtain ⟨htrim, hne, hlast⟩ := hparts
      exact absurd ((settle_eq_self_iff.mpr ⟨htrim, hlast⟩).symm.trans hnil) hne
  · rw [if_neg hnil, List.cons.injEq, hkept, settle_eq_self_iff]
    constructor
    · intro hparts
      obtain ⟨⟨htrim, hlast⟩, -⟩ := hparts
      refine ⟨htrim, fun hcs => hnil ?_, hlast⟩
      rw [hcs]
      rfl
    · intro hparts
      obtain ⟨htrim, -, hlast⟩ := hparts
      exact ⟨⟨htrim, hlast⟩, rfl⟩

/-- **The annotations that stay as they are.** None ends in a blank, and the last one is neither a
bare sign nor ends in a semicolon. -/
theorem rereadAnnotations_eq_self_iff {as : List Annotation} (h : ∀ a ∈ as, a.Writable) :
    rereadAnnotations as = as
      ↔ (∀ a ∈ as, trimEnd a.text.toList = a.text.toList)
        ∧ ∀ a, as.getLast? = some a →
          ∃ cs, a.text.toList = '@' :: cs ∧ cs ≠ [] ∧ cs.getLast? ≠ some ';' := by
  induction as with
  | nil => simp [rereadAnnotations]
  | cons a as ih =>
    obtain ⟨⟨cs, hcs, -⟩, has⟩ := List.forall_mem_cons.mp h
    cases as with
    | nil =>
        have htrim : trimEnd a.text.toList = a.text.toList ↔ trimEnd cs = cs := by
          rw [trimEnd_sign hcs, hcs, List.cons.injEq]
          exact and_iff_right rfl
        rw [rereadAnnotations_last hcs, List.forall_mem_singleton, htrim]
        simp [hcs]
    | cons b more =>
        rw [rereadAnnotations, List.cons.injEq, mk_ofList_eq_iff, ih has,
          List.getLast?_cons_cons, List.forall_mem_cons (l := b :: more), and_assoc]

/-! ## What printing keeps -/

theorem Field.reread_eq_self_iff (f : Field) :
    f.reread = f
      ↔ (f.annotations = [] → settle f.typeName.toList = f.typeName.toList)
        ∧ rereadAnnotations f.annotations = f.annotations := by
  obtain ⟨name, typeName, annotations⟩ := f
  have htype : (if annotations = [] then String.ofList (settle typeName.toList) else typeName)
        = typeName
      ↔ (annotations = [] → settle typeName.toList = typeName.toList) := by
    split
    · next h =>
      rw [← String.toList_inj, String.toList_ofList]
      exact ⟨fun hs _ => hs, fun hs => hs h⟩
    · next h => exact ⟨fun _ hnil => absurd hnil h, fun _ => rfl⟩
  rw [Field.reread, Field.mk.injEq, htype]
  exact and_iff_right rfl

theorem Entity.reread_eq_self_iff (e : Entity) : e.reread = e ↔ ∀ f ∈ e.fields, f.reread = f := by
  obtain ⟨name, fields⟩ := e
  have hfields : fields.map Field.reread = fields ↔ ∀ f ∈ fields, f.reread = id f := by
    rw [← List.map_inj_left, List.map_id]
  rw [Entity.reread, Entity.mk.injEq, hfields]
  exact and_iff_right rfl

/-- Printing keeps exactly the fields that a line can declare and that stay as they are. -/
theorem Field.printable_iff {f : Field} : f.Printable ↔ f.Writable ∧ f.reread = f := by
  rw [Field.reread_eq_self_iff]
  constructor
  · intro h
    have hannotations (a : Annotation) (ha : a ∈ f.annotations) : a.Writable := by
      obtain ⟨cs, hcs, htoken, hspace, hsign⟩ := h.annotations a ha
      have hstart := (trim_eq_self_iff.mp htoken.trimmed).1
      exact ⟨cs, hcs, ⟨hstart, htoken.oneLine, hspace, hsign⟩⟩
    refine ⟨⟨h.name, h.colon, h.opens, h.type, h.sign, hannotations⟩, fun hnil => ?_, ?_⟩
    · exact settle_eq_self_iff.mpr
        ⟨(trim_eq_self_iff.mp h.type.trimmed).2, h.semicolon hnil⟩
    · refine (rereadAnnotations_eq_self_iff hannotations).mpr ⟨fun a ha => ?_, h.last⟩
      obtain ⟨cs, hcs, htoken, -⟩ := h.annotations a ha
      rw [trimEnd_sign hcs, (trim_eq_self_iff.mp htoken.trimmed).2, hcs]
  · intro hparts
    obtain ⟨hw, htype, hann⟩ := hparts
    obtain ⟨hends, hlast⟩ := (rereadAnnotations_eq_self_iff hw.annotations).mp hann
    exact {
      name := hw.name
      colon := hw.colon
      opens := hw.opens
      type := hw.type
      sign := hw.sign
      semicolon := fun hnil => (settle_eq_self_iff.mp (htype hnil)).2
      annotations := fun a ha => by
        obtain ⟨cs, hcs, htext⟩ := hw.annotations a ha
        have hend : trimEnd cs = cs := by
          have h := hends a ha
          rw [trimEnd_sign hcs, hcs] at h
          exact (List.cons.inj h).2
        exact ⟨cs, hcs, ⟨trim_eq_self_iff.mpr ⟨htext.start, hend⟩, htext.oneLine⟩, htext.space,
          htext.sign⟩
      last := hlast }

/-- Printing keeps exactly the entities that lines can declare and that stay as they are. -/
theorem Entity.printable_iff {e : Entity} : e.Printable ↔ e.Writable ∧ e.reread = e := by
  rw [Entity.reread_eq_self_iff]
  constructor
  · intro h
    exact ⟨⟨h.name, fun f hf => (Field.printable_iff.mp (h.fields f hf)).1⟩,
      fun f hf => (Field.printable_iff.mp (h.fields f hf)).2⟩
  · intro hparts
    obtain ⟨hw, hf⟩ := hparts
    exact ⟨hw.name, fun f hmem => Field.printable_iff.mpr ⟨hw.fields f hmem, hf f hmem⟩⟩

/-- Entities that can be written come back if each stays as it is when it is read again. -/
theorem parse_printAll_eq_self_iff {es : List Entity} (h : ∀ e ∈ es, e.Writable) :
    parse (printAll es) = es ↔ ∀ e ∈ es, e.reread = e := by
  have hid : es.map Entity.reread = es ↔ ∀ e ∈ es, e.reread = id e := by
    rw [← List.map_inj_left, List.map_id]
  rw [parse_printAll_of_writable h, hid]
  rfl

/-- **Which schemas printing keeps.** Entities from anywhere come back from their printed text
exactly if every one of them is printable. -/
theorem parse_printAll_eq_iff (es : List Entity) :
    parse (printAll es) = es ↔ ∀ e ∈ es, e.Printable := by
  constructor
  · intro h e he
    -- whatever comes back has been read
    have hw (e : Entity) (he : e ∈ es) : e.Writable := writable_of_mem_parse (h.symm ▸ he)
    exact Entity.printable_iff.mpr ⟨hw e he, (parse_printAll_eq_self_iff hw).mp h e he⟩
  · intro h
    have hw (e : Entity) (he : e ∈ es) : e.Writable := (Entity.printable_iff.mp (h e he)).1
    exact (parse_printAll_eq_self_iff hw).mpr fun e he => (Entity.printable_iff.mp (h e he)).2

end EntitySchema
