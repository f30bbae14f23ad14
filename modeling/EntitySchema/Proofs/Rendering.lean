import EntitySchema.Proofs.Checks
import EntitySchema.Proofs.Cutting
import EntitySchema.Proofs.Writable

/-!
# What a class tells of its entity

A class shows the name of its entity and, field by field, the name and the Java type, and it shows
nothing else. That two entities with the same class agree in these is read off the text from its
front (`Java.shown_of_render`). The import lines end where a line does not open with `import`, then
a line holds the name, and then each declaration holds a type, which has no blank in it, and the
name of a field.
-/

namespace EntitySchema

/-! ## Reading a text from its front -/

/-- Lines that all open with the same text. -/
def block (lead : List Char) (lines : List (List Char)) : List Char :=
  lines.flatMap fun line => lead ++ (line ++ ['\n'])

@[simp] theorem block_nil (lead : List Char) : block lead [] = [] := rfl

theorem block_cons_append (lead line : List Char) (lines : List (List Char)) (rest : List Char) :
    block lead (line :: lines) ++ rest = lead ++ (line ++ '\n' :: (block lead lines ++ rest)) := by
  simp [block]

/-- A block can be told from what follows it, as long as that opens otherwise. -/
theorem block_append_inj {lead : List Char} {lines lines' : List (List Char)}
    {rest rest' : List Char} (hlines : ∀ l ∈ lines, '\n' ∉ l) (hlines' : ∀ l ∈ lines', '\n' ∉ l)
    (hrest : ¬ lead <+: rest) (hrest' : ¬ lead <+: rest')
    (h : block lead lines ++ rest = block lead lines' ++ rest') :
    lines = lines' ∧ rest = rest' := by
  induction lines generalizing lines' with
  | nil =>
    cases lines' with
    | nil => exact ⟨rfl, h⟩
    | cons l' lines' =>
      rw [block_nil, List.nil_append, block_cons_append] at h
      exact absurd (h ▸ List.prefix_append _ _) hrest
  | cons l lines ih =>
    rw [block_cons_append] at h
    cases lines' with
    | nil =>
      rw [block_nil, List.nil_append] at h
      exact absurd (h ▸ List.prefix_append _ _) hrest'
    | cons l' lines' =>
      rw [block_cons_append] at h
      obtain ⟨hl, hlines⟩ := List.forall_mem_cons.mp hlines
      obtain ⟨hl', hlines'⟩ := List.forall_mem_cons.mp hlines'
      obtain ⟨hline, hmore⟩ := append_cons_inj hl hl' (List.append_cancel_left h)
      obtain ⟨hblock, hrest⟩ := ih hlines hlines' hmore
      exact ⟨by rw [hline, hblock], hrest⟩

/-! ## Types -/

namespace FieldType

/-- The word with its letters in lower case. -/
def lowered (token : String) : String := String.ofList (token.toList.map Char.toLower)

/-- The words that name a known type. -/
def knownWords : List String := ["long", "string", "integer", "datetime", "boolean"]

/-- The word that names the type, if it is a known one. -/
def word? : FieldType → Option String
  | .long => some "long"
  | .string => some "string"
  | .integer => some "integer"
  | .dateTime => some "datetime"
  | .boolean => some "boolean"
  | .other _ => none

theorem word?_ofToken (token : String) :
    (ofToken token).word? = if lowered token ∈ knownWords then some (lowered token) else none := by
  unfold ofToken
  split <;> simp_all [lowered, knownWords, word?]

end FieldType

namespace Java

/-- No Java type has a blank or a line feed in it. -/
theorem plain_typeName (t : FieldType) :
    ' ' ∉ (typeName t).toList ∧ '\n' ∉ (typeName t).toList := by
  cases t <;> simp [typeName]

/-- A Java type tells which known type it is for. -/
theorem typeName_eq_iff {t u : FieldType} : typeName t = typeName u ↔ t.word? = u.word? := by
  cases t <;> cases u <;> simp [typeName, FieldType.word?]

theorem typeName_ofToken_eq_iff (s t : String) :
    typeName (.ofToken s) = typeName (.ofToken t)
      ↔ FieldType.lowered s = FieldType.lowered t
        ∨ FieldType.lowered s ∉ FieldType.knownWords
          ∧ FieldType.lowered t ∉ FieldType.knownWords := by
  rw [typeName_eq_iff, FieldType.word?_ofToken, FieldType.word?_ofToken]
  split_ifs with hs ht ht
  · simp [hs]
  · have hne : FieldType.lowered s ≠ FieldType.lowered t := fun h => ht (h ▸ hs)
    simp [hne, hs]
  · have hne : FieldType.lowered s ≠ FieldType.lowered t := fun h => hs (h ▸ ht)
    simp [hne, ht]
  · simp [hs, ht]

/-- What a type imports is settled by its Java type. -/
theorem importOf_eq_of_typeName {t u : FieldType} (h : typeName t = typeName u) :
    importOf t = importOf u := by
  cases t <;> cases u <;> simp_all [typeName, importOf]

/-! ## What a class shows of a field -/

/-- The fields have the same name and the same Java type. -/
structure SameMember (f g : Field) : Prop where
  name : f.name = g.name
  type : typeName f.type = typeName g.type

theorem SameMember.ofField? {f g : Field} (h : SameMember f g) :
    Member.ofField? f = Member.ofField? g := by
  unfold Member.ofField?
  rw [h.name, h.type]

/-- The members of a class are those of its fields, one for each and in their order. -/
theorem forall₂_of_mapM {fs : List Field} {ms : List Member}
    (h : fs.mapM Member.ofField? = some ms) :
    List.Forall₂ (fun f m => m.name = f.name ∧ m.type = typeName f.type) fs ms := by
  induction fs generalizing ms with
  | nil => cases h; exact .nil
  | cons f fs ih =>
    simp only [List.mapM_cons, Option.bind_eq_bind, Option.bind_eq_some_iff] at h
    obtain ⟨m, hm, ms', hms, hout⟩ := h
    obtain ⟨accessor, -, rfl⟩ := Option.map_eq_some_iff.mp hm
    cases hout
    exact .cons ⟨rfl, rfl⟩ (ih hms)

section SameMembers

variable {fs gs : List Field}

theorem mapM_ofField?_eq (h : List.Forall₂ SameMember fs gs) :
    fs.mapM Member.ofField? = gs.mapM Member.ofField? := by
  induction h with
  | nil => rfl
  | cons hf _ ih => rw [List.mapM_cons, List.mapM_cons, hf.ofField?, ih]

theorem imports_eq (h : List.Forall₂ SameMember fs gs) : imports fs = imports gs := by
  have hnames :
      (fs.filterMap fun f => importOf f.type) = gs.filterMap fun f => importOf f.type := by
    induction h with
    | nil => rfl
    | cons hf _ ih =>
      rw [List.filterMap_cons, List.filterMap_cons, importOf_eq_of_typeName hf.type, ih]
  unfold imports
  rw [hnames]

end SameMembers

/-! ## The lines of a class -/

/-- What each import line opens with. -/
def importLead : List Char := "import ".toList

/-- What each line that declares a member opens with. -/
def memberLead (o : Options) : List Char := List.replicate o.indent.toNat ' ' ++ "private ".toList

/-- The import lines from what follows their opening. -/
def importLines (fs : List Field) : List (List Char) :=
  (imports fs).map fun name => name.toList ++ [';']

/-- The line that declares a member from what follows its opening. -/
def Member.line (m : Member) : List Char := m.type.toList ++ ' ' :: (m.name.toList ++ [';'])

theorem toList_importPart (fs : List Field) :
    (importPart fs).toList
      = block importLead (importLines fs) ++ if imports fs = [] then [] else ['\n'] := by
  unfold importPart importLines importLead block
  split
  · next h => simp [h]
  · next h =>
    rw [if_neg h]
    simp [List.flatMap_map]

theorem toList_declarations (o : Options) (ms : List Member) :
    (String.join (ms.map (·.declaration (String.ofList (List.replicate o.indent.toNat ' '))))).toList
      = block (memberLead o) (ms.map Member.line) := by
  unfold block memberLead Member.line Member.declaration
  simp [List.flatMap_map]

/-- What follows the declarations opens otherwise: with a line feed, or with a constructor. -/
theorem not_memberLead_opens (o : Options) (ms : List Member) (rest : List Char) :
    ¬ memberLead o <+: (if ms.isEmpty then "" else "\n").toList
      ++ (List.replicate o.indent.toNat ' ' ++ ("public ".toList ++ rest)) := by
  unfold memberLead
  split
  · intro h
    have hopen : "private ".toList <+: "public ".toList ++ rest :=
      (List.prefix_append_right_inj _).mp h
    simp at hopen
  · cases o.indent.toNat <;> simp [List.replicate_succ]

/-- A class in pieces: a line with the name of the entity, the lines that declare the members, and
a rest that does not open like one of these. -/
theorem exists_classPart (o : Options) (name : String) (ms : List Member) :
    ∃ rest, (classPart (String.ofList (List.replicate o.indent.toNat ' ')) name ms).toList
        = "/**\n * ".toList ++ (name.toList ++ " entity.".toList ++ '\n' ::
          (" */\npublic class ".toList ++ name.toList ++ " \x7b\n".toList
            ++ (block (memberLead o) (ms.map Member.line) ++ rest)))
      ∧ ¬ memberLead o <+: rest := by
  let indent := String.ofList (List.replicate o.indent.toNat ' ')
  let accessors := String.join (ms.map (·.accessors indent))
  refine ⟨_, ?_, not_memberLead_opens o ms
    (name ++ "() \x7b\x7d\n" ++ accessors ++ "\x7d\n").toList⟩
  unfold classPart
  simp only [String.toList_append, toList_declarations]
  simp [accessors, indent]

/-- A class from its front: the package, the import lines, then the class itself. -/
theorem exists_pieces {o : Options} {e : Entity} {code : String} (h : render o e = .ok code) :
    ∃ ms rest, e.fields.mapM Member.ofField? = some ms ∧ ¬ memberLead o <+: rest
      ∧ code.toList = (packagePart o.package).toList
        ++ (block importLead (importLines e.fields)
        ++ ((if imports e.fields = [] then [] else ['\n'])
        ++ ("/**\n * ".toList ++ (e.name.toList ++ " entity.".toList ++ '\n' ::
          (" */\npublic class ".toList ++ e.name.toList ++ " \x7b\n".toList
            ++ (block (memberLead o) (ms.map Member.line) ++ rest)))))) := by
  obtain ⟨ms, hms, rfl⟩ := exists_members_of_render h
  obtain ⟨rest, hclass, hrest⟩ := exists_classPart o e.name ms
  refine ⟨ms, rest, hms, hrest, ?_⟩
  rw [String.toList_append, String.toList_append, hclass, toList_importPart,
    List.append_assoc, List.append_assoc]

/-! ## Reading a class -/

theorem lineFeed_notMem_importLines (fs : List Field) : ∀ l ∈ importLines fs, '\n' ∉ l := by
  intro l hl
  obtain ⟨name, hname, rfl⟩ := List.mem_map.mp hl
  have himport : name ∈ fs.filterMap fun f => importOf f.type := by
    simpa [imports] using hname
  obtain ⟨f, -, hf⟩ := List.mem_filterMap.mp himport
  cases htype : f.type <;> simp [htype, importOf] at hf
  simp [← hf]

/-- What follows the import lines opens otherwise: with a line feed, or with the comment. -/
theorem not_importLead_opens (fs : List Field) (rest : List Char) :
    ¬ importLead <+: (if imports fs = [] then [] else ['\n']) ++ ("/**\n * ".toList ++ rest) := by
  unfold importLead
  split <;> simp

/-- The line that declares a member can be read back. -/
theorem Member.line_inj {m m' : Member} (hm : ' ' ∉ m.type.toList) (hm' : ' ' ∉ m'.type.toList)
    (h : m.line = m'.line) : m.name = m'.name ∧ m.type = m'.type := by
  obtain ⟨htype, hname⟩ := append_cons_inj hm hm' h
  exact ⟨String.toList_inj.mp (List.append_cancel_right hname), String.toList_inj.mp htype⟩

section Declarations

variable {fs gs : List Field} {ms ms' : List Member}

theorem lineFeed_notMem_line (hfs : ∀ f ∈ fs, '\n' ∉ f.name.toList)
    (hms : List.Forall₂ (fun f m => m.name = f.name ∧ m.type = typeName f.type) fs ms) :
    ∀ l ∈ ms.map Member.line, '\n' ∉ l := by
  induction hms with
  | nil => exact nofun
  | @cons f m fs ms hm _ ih =>
    obtain ⟨hf, hfs⟩ := List.forall_mem_cons.mp hfs
    refine List.forall_mem_cons.mpr ⟨?_, ih hfs⟩
    have htype := (plain_typeName f.type).2
    simp [Member.line, hm.1, hm.2, hf, htype]

/-- Fields have the same members if these are declared in the same lines. -/
theorem sameMembers_of_lines
    (hms : List.Forall₂ (fun f m => m.name = f.name ∧ m.type = typeName f.type) fs ms)
    (hms' : List.Forall₂ (fun f m => m.name = f.name ∧ m.type = typeName f.type) gs ms')
    (h : ms.map Member.line = ms'.map Member.line) : List.Forall₂ SameMember fs gs := by
  induction hms generalizing gs ms' with
  | nil =>
    cases hms' with
    | nil => exact .nil
    | cons => exact nomatch h
  | @cons f m fs ms hm _ ih =>
    cases hms' with
    | nil => exact nomatch h
    | @cons g m' gs ms' hm' hms' =>
      obtain ⟨hline, hlines⟩ := List.cons.inj h
      obtain ⟨hname, htype⟩ := Member.line_inj (hm.2 ▸ (plain_typeName f.type).1)
        (hm'.2 ▸ (plain_typeName g.type).1) hline
      refine .cons ⟨?_, ?_⟩ (ih hms' hlines)
      · rw [← hm.1, hname, hm'.1]
      · rw [← hm.2, htype, hm'.2]

end Declarations

end Java

/-- The names of the entity and of its fields hold no line feed. -/
structure Entity.Unbroken (e : Entity) : Prop where
  name : '\n' ∉ e.name.toList
  fields : ∀ f ∈ e.fields, '\n' ∉ f.name.toList

theorem Entity.Writable.unbroken {e : Entity} (h : e.Writable) : e.Unbroken where
  name := h.name.oneLine.1
  fields f hf := (h.fields f hf).name.oneLine.1

namespace Java

variable {o : Options} {e e' : Entity} {code : String}

/-- A class tells the name of its entity and the name and the Java type of each field. -/
theorem shown_of_render (he : e.Unbroken) (he' : e'.Unbroken) (h : render o e = .ok code)
    (h' : render o e' = .ok code) :
    e.name = e'.name ∧ List.Forall₂ SameMember e.fields e'.fields := by
  obtain ⟨ms, rest, hms, hrest, hcode⟩ := exists_pieces h
  obtain ⟨ms', rest', hms', hrest', hcode'⟩ := exists_pieces h'
  rw [hcode] at hcode'
  -- the imports of the two are the same, so the same comment opens after them
  obtain ⟨himports, hclass⟩ := block_append_inj (lineFeed_notMem_importLines e.fields)
    (lineFeed_notMem_importLines e'.fields) (not_importLead_opens _ _)
    (not_importLead_opens _ _) (List.append_cancel_left hcode')
  have hnil : imports e.fields = [] ↔ imports e'.fields = [] := by
    rw [← List.map_eq_nil_iff, ← List.map_eq_nil_iff (l := imports e'.fields)]
    exact iff_of_eq (congrArg (· = []) himports)
  simp only [hnil] at hclass
  have hheader := List.append_cancel_left (List.append_cancel_left hclass)
  obtain ⟨hname, hbody⟩ := append_cons_inj (by simpa using he.name) (by simpa using he'.name)
    hheader
  have hnames : e.name = e'.name := String.toList_inj.mp (List.append_cancel_right hname)
  rw [hnames] at hbody
  have hmembers := forall₂_of_mapM hms
  have hmembers' := forall₂_of_mapM hms'
  obtain ⟨hlines, -⟩ := block_append_inj (lineFeed_notMem_line he.fields hmembers)
    (lineFeed_notMem_line he'.fields hmembers') hrest hrest' (List.append_cancel_left hbody)
  exact ⟨hnames, sameMembers_of_lines hmembers hmembers' hlines⟩

/-- What a class does not show of an entity does not matter to it. -/
theorem render_eq_of_shown (hname : e.name = e'.name)
    (hfields : List.Forall₂ SameMember e.fields e'.fields) : render o e = render o e' := by
  unfold render membersOf fileText Entity.nameFault? importPart
  rw [hname, mapM_ofField?_eq hfields, imports_eq hfields]

/-- **Entities have the same class exactly if they agree in what a class shows.** They must have the
same name and, field by field, the same name and the same Java type, where no name holds a line
feed, and none does in a schema text. Of a word for a type, neither the case of its letters nor the
spelling of an unknown one is shown. -/
theorem render_inj_iff :
    (∀ (o : Options) (e e' : Entity) (code code' : String), e.Unbroken → e'.Unbroken →
      render o e = .ok code → render o e' = .ok code' →
      (code = code' ↔ e.name = e'.name ∧ List.Forall₂ SameMember e.fields e'.fields))
    ∧ (∀ source : String, ∀ e ∈ parse source, e.Unbroken)
    ∧ ∀ s t : String, typeName (.ofToken s) = typeName (.ofToken t)
      ↔ FieldType.lowered s = FieldType.lowered t
        ∨ FieldType.lowered s ∉ FieldType.knownWords
          ∧ FieldType.lowered t ∉ FieldType.knownWords := by
  refine ⟨?_, fun _ _ h => (writable_of_mem_parse h).unbroken, typeName_ofToken_eq_iff⟩
  intro o e e' code code' he he' h h'
  constructor
  · rintro rfl
    exact shown_of_render he he' h h'
  · rintro ⟨hname, hfields⟩
    rw [render_eq_of_shown hname hfields, h'] at h
    exact (Except.ok.inj h).symm

/-- The word for a type in other letters and an annotation do not show, and the order of two fields
does. -/
theorem render_inj_of_order :
    let e : Entity := ⟨"A", [⟨"b", "long", [⟨"@id"⟩]⟩, ⟨"c", "uuid", []⟩]⟩
    let restated : Entity := ⟨"A", [⟨"b", "LONG", []⟩, ⟨"c", "money", []⟩]⟩
    let turned : Entity := ⟨"A", [⟨"c", "uuid", []⟩, ⟨"b", "long", []⟩]⟩
    ∃ code, render {} e = .ok code ∧ render {} restated = .ok code
      ∧ render {} turned ≠ .ok code := by
  intro e restated turned
  obtain ⟨code, h⟩ : ∃ code, render {} e = .ok code := exists_render_iff.mpr (by decide +kernel)
  obtain ⟨code', h'⟩ : ∃ code', render {} restated = .ok code' :=
    exists_render_iff.mpr (by decide +kernel)
  have he : e.Unbroken := ⟨by decide, by decide⟩
  have hrestated : restated.Unbroken := ⟨by decide, by decide⟩
  have hturned : turned.Unbroken := ⟨by decide, by decide⟩
  have hcode : code = code' := (render_inj_iff.1 {} e restated code code' he hrestated h h').mpr
    ⟨rfl, .cons ⟨rfl, by decide⟩ (.cons ⟨rfl, by decide⟩ .nil)⟩
  refine ⟨code, h, hcode ▸ h', ?_⟩
  intro hturn
  have hsame := (render_inj_iff.1 {} e turned code code he hturned h hturn).mp rfl
  obtain - | ⟨hfirst, -⟩ := hsame.2
  exact absurd hfirst.name (by decide)

end Java

end EntitySchema
