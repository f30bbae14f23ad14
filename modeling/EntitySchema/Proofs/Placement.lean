import EntitySchema.Generator
import EntitySchema.Proofs.Checks
import EntitySchema.Proofs.Walking

/-!
# Where the files of entities go

A name without a slash is one segment more at the end of a path. File names are such names when the
extension has no slash, and two entities share one only if they share their name. So entities with
different names have different paths (`Generator.outputPath_inj`), and different files on any disk
(`Generator.name_eq_of_fileAt?`).
-/

namespace EntitySchema

/-! ## One segment more -/

/-- A name that is a segment of its own at the end of a path. -/
structure IsSegment (name : String) : Prop where
  ne_empty : name ≠ ""
  noSlash : '/' ∉ name.toList

theorem IsSegment.toList_ne_nil {name : String} (h : IsSegment name) : name.toList ≠ [] :=
  fun hnil => h.ne_empty (String.toList_eq_nil_iff.mp hnil)

/-- The segments of a text between slashes. -/
theorem segments_append_slash (cs : List Char) {name : String} (h : IsSegment name) :
    Path.segments ⟨String.ofList (cs ++ '/' :: name.toList)⟩
      = Path.segments ⟨String.ofList cs⟩ ++ [name] := by
  unfold Path.segments
  simp only [String.toList_ofList]
  rw [List.splitOn_append_cons_self, List.splitOn_eq_singleton h.noSlash, List.filter_append,
    List.map_append]
  simp [h.ne_empty]

namespace Path

variable {p : Path} {name : String}

/-- A name without a slash does not start at the root. -/
theorem isAbsolute_of_noSlash (h : '/' ∉ name.toList) : (Path.mk name).isAbsolute = false := by
  unfold isAbsolute
  cases hchars : name.toList with
  | nil => rfl
  | cons c cs =>
    have hc : c ≠ '/' := by
      intro hc
      refine h ?_
      rw [hchars, hc]
      exact List.mem_cons_self
    simpa using hc

/-- The path below another one is that path, a slash where one is needed, and the name. -/
theorem join_cases (h : IsSegment name) :
    (p.text.toList = [] ∧ p.join name = ⟨name⟩)
      ∨ (∃ cs, p.text.toList = cs ++ ['/']
        ∧ p.join name = ⟨String.ofList (cs ++ '/' :: name.toList)⟩)
      ∨ (p.text.toList ≠ [] ∧ p.endsInSlash = false
        ∧ p.join name = ⟨String.ofList (p.text.toList ++ '/' :: name.toList)⟩) := by
  unfold join
  rw [isAbsolute_of_noSlash h.noSlash, if_neg Bool.false_ne_true]
  by_cases hempty : p.text = ""
  · refine Or.inl ⟨by simp [hempty], ?_⟩
    simp [hempty]
  · have hne : p.text.toList ≠ [] := by
      intro hnil
      exact hempty (String.toList_eq_nil_iff.mp hnil)
    cases hslash : p.endsInSlash with
    | true =>
      have hlast : p.text.toList.getLast? = some '/' := by simpa [endsInSlash] using hslash
      obtain ⟨cs, hcs⟩ := List.getLast?_eq_some_iff.mp hlast
      refine Or.inr (Or.inl ⟨cs, hcs, ?_⟩)
      simp only [Bool.or_true, if_true]
      congr 1
      apply String.toList_inj.mp
      simp [hcs]
    | false =>
      refine Or.inr (Or.inr ⟨hne, rfl, ?_⟩)
      rw [if_neg (by simp [hempty])]
      congr 1
      apply String.toList_inj.mp
      simp

/-- **A path below another one has one segment more.** -/
theorem segments_join (h : IsSegment name) : (p.join name).segments = p.segments ++ [name] := by
  rcases join_cases (p := p) h with ⟨hnil, hjoin⟩ | ⟨cs, hcs, hjoin⟩ | ⟨-, -, hjoin⟩
  · rw [hjoin]
    unfold segments
    rw [hnil, List.splitOn_eq_singleton h.noSlash, List.splitOn_nil]
    simp [h.ne_empty]
  · rw [hjoin, segments_append_slash cs h]
    congr 1
    unfold segments
    rw [hcs, List.splitOn_append_cons_self, List.splitOn_nil]
    simp
  · rw [hjoin, segments_append_slash _ h, String.ofList_toList]

theorem isAbsolute_join (h : IsSegment name) : (p.join name).isAbsolute = p.isAbsolute := by
  rcases join_cases (p := p) h with ⟨hnil, hjoin⟩ | ⟨cs, hcs, hjoin⟩ | ⟨hne, -, hjoin⟩
  · rw [hjoin, isAbsolute_of_noSlash h.noSlash]
    simp [isAbsolute, hnil]
  · rw [hjoin]
    unfold isAbsolute
    rw [hcs, String.toList_ofList]
    cases cs <;> rfl
  · rw [hjoin]
    unfold isAbsolute
    rw [String.toList_ofList, List.head?_append, Option.or_of_isSome]
    exact List.isSome_head?.mpr hne

end Path

/-! ## File names -/

namespace Java.Options

variable {o : Options}

theorem toList_fileName (o : Options) (name : String) :
    (o.fileName name).toList
      = name.toList ++ if o.extension.isEmpty then [] else '.' :: o.extension.toList := by
  unfold fileName
  split <;> simp

/-- Entities share a file name only if they share their name. -/
theorem fileName_inj {a b : String} (h : o.fileName a = o.fileName b) : a = b := by
  have hchars := congrArg String.toList h
  rw [toList_fileName, toList_fileName] at hchars
  exact String.toList_inj.mp (List.append_cancel_right hchars)

/-- The file name of an entity that has a class is a single segment. -/
theorem isSegment_fileName (hext : '/' ∉ o.extension.toList) {e : Entity}
    (hname : e.nameFault? = none) : IsSegment (o.fileName e.name) := by
  have hplain := Entity.nameFault?_eq_none_iff.mp hname
  constructor
  · intro hfile
    have hchars := congrArg String.toList hfile
    rw [toList_fileName] at hchars
    exact hplain.ne_empty (String.toList_eq_nil_iff.mp (List.append_eq_nil_iff.mp hchars).1)
  · rw [toList_fileName, List.mem_append]
    rintro (hmem | hmem)
    · exact hplain.noSlash hmem
    · split at hmem
      · exact nomatch hmem
      · rcases List.mem_cons.mp hmem with hdot | hmem
        · exact absurd hdot (by decide)
        · exact hext hmem

end Java.Options

/-! ## Output paths -/

/-- An entry below a path stands in the directory that the path leads to. -/
theorem Disk.NamesEntry.of_join {d : Disk} {p : Path} {name last : String} {dir : Place}
    (hname : IsSegment name) (h : d.NamesEntry (p.join name) dir last) :
    last = name ∧ d.walk (if p.isAbsolute then [] else d.here) p.segments = .ok dir := by
  obtain ⟨start, hstart, hwalk⟩ := h.reached
  have hlast := h.last
  rw [Path.segments_join hname] at hwalk hlast
  rw [List.dropLast_concat] at hwalk
  obtain ⟨-, -, -, hbase⟩ := entrance_eq_ok_iff.mp hstart
  rw [Path.isAbsolute_join hname] at hbase
  rw [hbase]
  exact ⟨by simpa using hlast.symm, hwalk⟩

namespace Generator

variable {g : Generator} {e e' : Entity}

/-- **Entities with the same path have the same name.** -/
theorem outputPath_inj (hext : '/' ∉ g.options.extension.toList) (hname : e.nameFault? = none)
    (hname' : e'.nameFault? = none) (h : g.outputPath e = g.outputPath e') : e.name = e'.name := by
  have hsegments := congrArg Path.segments h
  unfold outputPath at hsegments
  rw [Path.segments_join (Java.Options.isSegment_fileName hext hname),
    Path.segments_join (Java.Options.isSegment_fileName hext hname')] at hsegments
  have hlast := List.append_cancel_left hsegments
  exact Java.Options.fileName_inj (List.singleton_inj.mp hlast)

/-- **Entities with the same file have the same name.** -/
theorem name_eq_of_fileAt? (hext : '/' ∉ g.options.extension.toList)
    (hname : e.nameFault? = none) (hname' : e'.nameFault? = none) {d : Disk} {q : Place}
    (h : d.fileAt? (g.outputPath e) = some q) (h' : d.fileAt? (g.outputPath e') = some q) :
    e.name = e'.name := by
  obtain ⟨dir, last, hentry, -, -, hq⟩ := Disk.fileAt?_eq_some_iff.mp h
  obtain ⟨dir', last', hentry', -, -, hq'⟩ := Disk.fileAt?_eq_some_iff.mp h'
  obtain ⟨hlast, hdir⟩ := hentry.of_join (Java.Options.isSegment_fileName hext hname)
  obtain ⟨hlast', hdir'⟩ := hentry'.of_join (Java.Options.isSegment_fileName hext hname')
  -- both files are in the directory that the output path leads to
  have hsame : dir = dir' := Except.ok.inj (hdir.symm.trans hdir')
  rw [hsame, hlast] at hq
  rw [hlast'] at hq'
  have hnames := List.append_cancel_left (hq.symm.trans hq')
  exact Java.Options.fileName_inj (List.singleton_inj.mp hnames)

end Generator

end EntitySchema
