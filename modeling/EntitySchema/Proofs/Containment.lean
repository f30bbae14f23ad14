import Mathlib.Data.List.TakeWhile
import EntitySchema.Proofs.Checks
import EntitySchema.Proofs.PathText

/-!
# Generated files stay below the output directory

A path below another one passes through that one first (`Path.components_join`), as long as what is
joined to it neither starts at the root nor with a dot. The file name of an entity with a plain name
does neither, and its first piece is no step up (`Java.Options.components_fileName`). An entity with
any other name has no class, so that its file is not even opened (`Generator.outputPath_contained`).
-/

namespace EntitySchema

namespace Path

variable {p : Path} {name : String}

/-! ## Paths below a path -/

/-- What the names in a path stand for. -/
def follow (names : List String) : List Component :=
  (names.filter (· != ".")).map Component.ofSegment

/-- What a path starts with before the first of its names. -/
def lead (p : Path) : List Component :=
  if p.isAbsolute then [.root] else if p.segments.head? = some "." then [.here] else []

theorem components_eq_lead (p : Path) : p.components = p.lead ++ follow p.segments := by
  unfold components lead follow
  split
  · rfl
  · split
    · next rest hrest => simp [hrest]
    · next hdot =>
      have hhead : p.segments.head? ≠ some "." := by
        intro hhead
        obtain ⟨rest, hrest⟩ := List.head?_eq_some_iff.mp hhead
        exact hdot rest hrest
      rw [if_neg hhead, List.nil_append]

/-- The names of a path below another one come after the names of that one. -/
theorem segments_join_of_relative (h : (Path.mk name).isAbsolute = false) (p : Path) :
    (p.join name).segments = p.segments ++ (Path.mk name).segments := by
  rw [segments_eq, toList_join h, ← namesIn_front p, segments_eq]
  by_cases hempty : p.text = ""
  · have hfront : p.front = [] := by simp [front, hempty]
    rw [hfront, List.nil_append]
    rfl
  · obtain ⟨cs, hcs⟩ := front_eq_concat hempty
    rw [hcs, List.append_assoc, List.singleton_append, namesIn_append_slash, namesIn_concat_slash]

theorem isAbsolute_join_of_relative (h : (Path.mk name).isAbsolute = false) (p : Path) :
    (p.join name).isAbsolute = p.isAbsolute := by
  by_cases hempty : p.text = ""
  · have hjoin : p.join name = ⟨name⟩ := by
      unfold join
      simp [h, hempty]
    rw [hjoin, h]
    simp [isAbsolute, hempty]
  · have hhead := head?_front hempty
    have hne : p.front ≠ [] := by
      obtain ⟨cs, hcs⟩ := front_eq_concat hempty
      simp [hcs]
    unfold isAbsolute
    rw [toList_join h, List.head?_append, Option.or_of_isSome (List.isSome_head?.mpr hne), hhead]

theorem prefix_front (p : Path) : p.text.toList <+: p.front := by
  unfold front
  split
  · exact List.prefix_rfl
  · exact List.prefix_append _ _

/-- **A path below another one passes through that one first.** -/
theorem components_join (h : (Path.mk name).isAbsolute = false)
    (hdot : (Path.mk name).segments.head? ≠ some ".") (p : Path) :
    (p.join name).components = p.components ++ follow (Path.mk name).segments := by
  have hlead : (p.join name).lead = p.lead := by
    unfold lead
    rw [isAbsolute_join_of_relative h, segments_join_of_relative h]
    cases hsegments : p.segments with
    | nil => simp [hdot]
    | cons s rest => rfl
  have hfollow (as bs : List String) : follow (as ++ bs) = follow as ++ follow bs := by
    simp [follow]
  rw [components_eq_lead, hlead, segments_join_of_relative h, hfollow, ← List.append_assoc,
    ← components_eq_lead]

end Path

/-! ## File names -/

namespace Java.Options

open EntitySchema.Path

/-- What stands behind the name of an entity in the name of its file. -/
def suffix (o : Options) : List Char :=
  if o.extension.isEmpty then [] else '.' :: o.extension.toList

/-- The part of the suffix that belongs to the file name itself. -/
def ending (o : Options) : List Char := o.suffix.takeWhile (· ≠ '/')

/-- The path that an extension with a slash in it leads on along, with its first slash. -/
def onward (o : Options) : Path := ⟨String.ofList (o.suffix.dropWhile (· ≠ '/'))⟩

/-- The name that the path for an entity has below the output directory. -/
def entryName (o : Options) (name : String) : String := String.ofList (name.toList ++ o.ending)

variable {o : Options} {name : String}

theorem toList_fileName_eq (o : Options) (name : String) :
    (o.fileName name).toList = (o.entryName name).toList ++ o.onward.text.toList := by
  have hsuffix : o.ending ++ o.suffix.dropWhile (· ≠ '/') = o.suffix :=
    List.takeWhile_append_dropWhile
  rw [toList_fileName, entryName, onward, String.toList_ofList, String.toList_ofList,
    List.append_assoc, hsuffix]
  rfl

theorem toList_onward (o : Options) :
    o.onward.text.toList = o.suffix.dropWhile (· ≠ '/') := String.toList_ofList

/-- What an extension leads on along starts with a slash, if it leads on at all. -/
theorem onward_cases (o : Options) :
    o.onward.text.toList = [] ∨ ∃ cs, o.onward.text.toList = '/' :: cs := by
  rw [toList_onward]
  cases hdrop : o.suffix.dropWhile (· ≠ '/') with
  | nil => exact .inl rfl
  | cons c cs =>
    have hhead := List.head?_dropWhile_not (· ≠ '/') o.suffix
    rw [hdrop] at hhead
    have hc : c = '/' := by simpa using hhead
    exact .inr ⟨cs, by rw [hc]⟩

theorem onward_of_noSlash (h : '/' ∉ o.extension.toList) : o.onward.text.toList = [] := by
  have hsuffix : '/' ∉ o.suffix := by
    unfold suffix
    split <;> simp [h]
  rcases o.onward_cases with hnone | ⟨cs, hcs⟩
  · exact hnone
  · have hmem : '/' ∈ o.onward.text.toList := hcs ▸ List.mem_cons_self
    rw [toList_onward] at hmem
    exact absurd ((List.dropWhile_suffix _).subset hmem) hsuffix

/-- A plain name makes the name of an entry, whatever the extension puts behind it. -/
theorem isSegment_entryName (h : PlainName name) : IsSegment (o.entryName name) where
  ne_empty := by
    intro hempty
    have hchars : name.toList ++ o.ending = [] := String.ofList_eq_empty_iff.mp hempty
    exact h.ne_empty (String.toList_eq_nil_iff.mp (List.append_eq_nil_iff.mp hchars).1)
  noSlash := by
    have hending : '/' ∉ o.ending := fun hmem => absurd (List.mem_takeWhile_imp hmem) (by simp)
    rw [entryName, String.toList_ofList, List.mem_append]
    exact fun hmem => hmem.elim h.noSlash hending

/-- What stands behind a name makes no dot name of one that is none itself. -/
theorem entryName_ne_dots (h : PlainName name) :
    o.entryName name ≠ "." ∧ o.entryName name ≠ ".." := by
  have hne : name.toList ≠ [] := fun hnil => h.ne_empty (String.toList_eq_nil_iff.mp hnil)
  have hhere : name.toList ≠ ['.'] := fun heq => h.ne_here (String.toList_inj.mp heq)
  have hup : name.toList ≠ ['.', '.'] := fun heq => h.ne_up (String.toList_inj.mp heq)
  have hchars : (o.entryName name).toList = name.toList ++ o.ending := String.toList_ofList
  constructor
  · intro hdot
    rw [hdot] at hchars
    rcases List.append_eq_singleton_iff.mp hchars.symm with ⟨hnil, -⟩ | ⟨heq, -⟩
    · exact hne hnil
    · exact hhere heq
  · intro hdots
    rw [hdots] at hchars
    rcases List.append_eq_cons_iff.mp hchars.symm with ⟨hnil, -⟩ | ⟨more, heq, hmore⟩
    · exact hne hnil
    · rcases List.append_eq_singleton_iff.mp hmore.symm with ⟨rfl, -⟩ | ⟨rfl, -⟩
      · exact hhere heq
      · exact hup heq

/-- **What the file name of an entity passes through**: one entry, and what the extension leads on
along. -/
theorem segments_fileName (h : PlainName name) :
    (Path.mk (o.fileName name)).isAbsolute = false
      ∧ (Path.mk (o.fileName name)).segments = o.entryName name :: o.onward.segments := by
  have hentry := isSegment_entryName (o := o) h
  constructor
  · obtain ⟨c, cs, hchars⟩ := List.exists_cons_of_ne_nil hentry.toList_ne_nil
    have hc : c ≠ '/' := by
      intro hc
      exact hentry.noSlash (by rw [hchars, hc]; exact List.mem_cons_self)
    unfold isAbsolute
    rw [toList_fileName_eq, hchars]
    simpa using hc
  · rw [segments_eq, segments_eq, toList_fileName_eq]
    rcases o.onward_cases with hnone | ⟨cs, hcs⟩
    · rw [hnone, List.append_nil, namesIn_segment hentry]
      rfl
    · have honward : namesIn ('/' :: cs) = namesIn cs := namesIn_append_slash [] cs
      rw [hcs, namesIn_append_slash, namesIn_segment hentry, honward, List.singleton_append]

theorem tail_components_onward (o : Options) :
    o.onward.components.tail = follow o.onward.segments := by
  rw [components_eq_lead]
  unfold lead isAbsolute
  rcases o.onward_cases with hnone | ⟨cs, hcs⟩
  · simp [segments, follow, hnone]
  · simp [hcs]

/-- What an extension leads on along is part of the extension. -/
theorem onward_isSuffix (o : Options) : o.onward.text.toList <:+ o.extension.toList := by
  rw [toList_onward]
  unfold suffix
  split
  · exact List.nil_suffix
  · -- the dot before the extension is no slash
    rw [List.dropWhile_cons_of_pos (by decide)]
    exact List.dropWhile_suffix _

end Java.Options

namespace Generator

/-- **An entity without a plain name has no file.** The file store is not asked for anything. -/
theorem writeEntity_of_not_plain {m : Type → Type} [Monad m] [FileStore m] (g : Generator)
    {e : Entity} (h : ¬ PlainName e.name) :
    (g.writeEntity e : m _)
      = pure (.error (.schema e.name
          (if e.name = "" then .emptyEntityName else .invalidEntityName e.name))) := by
  have hfault : e.nameFault?
      = some (if e.name = "" then .emptyEntityName else .invalidEntityName e.name) := by
    have hplain : Name.isPlainFileName e.name ≠ true := fun hp => h (isPlainFileName_iff.mp hp)
    unfold Entity.nameFault?
    by_cases hempty : e.name = "" <;> simp [hempty, hplain]
  unfold writeEntity Java.membersOf
  rw [hfault]

open EntitySchema.Path in
/-- **The path for an entity with a plain name passes through the output directory first**, then
through one entry, and then through what the extension leads on along. -/
theorem components_outputPath (g : Generator) {e : Entity} (h : PlainName e.name) :
    (g.outputPath e).components
      = g.outputDir.components
        ++ .name (g.options.entryName e.name) :: g.options.onward.components.tail := by
  obtain ⟨habs, hsegments⟩ := Java.Options.segments_fileName (o := g.options) h
  obtain ⟨hhere, hup⟩ := Java.Options.entryName_ne_dots (o := g.options) h
  have hdot : (Path.mk (g.options.fileName e.name)).segments.head? ≠ some "." := by
    rw [hsegments]
    simpa using hhere
  unfold outputPath
  rw [components_join habs hdot, hsegments, Java.Options.tail_components_onward]
  simp [follow, Component.ofSegment, hhere, hup]

/-- **No name takes a file out of the output directory.** A name that is empty, has a slash of
either kind or is a dot name fails before the file store is asked for anything. With any other name
the path goes on from the output directory through an entry that starts with the name, and only an
extension with a slash in it leads on from there. -/
theorem outputPath_contained (g : Generator) (e : Entity) :
    (¬ PlainName e.name →
      let fault : GenerationFault := .schema e.name
        (if e.name = "" then .emptyEntityName else .invalidEntityName e.name)
      (∀ (m : Type → Type) [Monad m] [FileStore m], (g.writeEntity e : m _) = pure (.error fault))
      ∧ ∀ d : Disk, (g.writeEntity e : StateM Disk _).run d = (.error fault, d))
    ∧ ((∃ code, Java.render g.options e = .ok code) →
      (g.outputPath e).components
          = g.outputDir.components
            ++ .name (g.options.entryName e.name) :: g.options.onward.components.tail
        ∧ e.name.toList <+: (g.options.entryName e.name).toList
        ∧ g.options.onward.text.toList <:+ g.options.extension.toList
        ∧ ('/' ∉ g.options.extension.toList → g.options.onward.components.tail = [])
        ∧ g.outputDir.text.toList <+: (g.outputPath e).text.toList) := by
  constructor
  · intro hname
    refine ⟨fun m _ _ => writeEntity_of_not_plain g hname, fun d => ?_⟩
    rw [writeEntity_of_not_plain g hname]
    rfl
  · intro hcode
    obtain ⟨hfault, -⟩ := Java.exists_render_iff.mp hcode
    have hname := Entity.nameFault?_eq_none_iff.mp hfault
    have hentry : (g.options.entryName e.name).toList = e.name.toList ++ g.options.ending :=
      String.toList_ofList
    refine ⟨components_outputPath g hname, ?_, g.options.onward_isSuffix, fun hext => ?_, ?_⟩
    · rw [hentry]
      exact List.prefix_append _ _
    · rw [Java.Options.tail_components_onward, Path.segments_eq,
        Java.Options.onward_of_noSlash hext]
      rfl
    · obtain ⟨habs, -⟩ := Java.Options.segments_fileName (o := g.options) hname
      unfold outputPath
      rw [Path.toList_join habs]
      exact (Path.prefix_front g.outputDir).trans (List.prefix_append _ _)

/-- A name that climbs fails, and only the extension leads on from the entry of the entity. -/
theorem outputPath_contained_of_climbing :
    let g : Generator := ⟨⟨"out"⟩, { extension := "x/../y" }⟩
    ¬ PlainName "../A"
      ∧ (∀ d : Disk, (g.writeEntity ⟨"../A", []⟩ : StateM Disk _).run d
        = (.error (.schema "../A" (.invalidEntityName "../A")), d))
      ∧ (∃ code, Java.render g.options ⟨"A", []⟩ = .ok code)
      ∧ (g.outputPath ⟨"A", []⟩).components
        = [.name "out", .name "A.x", .up, .name "y"] := by
  intro g
  have hclimbs : ¬ PlainName "../A" := fun h => h.noSlash (by decide)
  have hcode : ∃ code, Java.render g.options ⟨"A", []⟩ = .ok code :=
    Java.exists_render_iff.mpr (by decide +kernel)
  refine ⟨hclimbs, ((outputPath_contained g ⟨"../A", []⟩).1 hclimbs).2, hcode, ?_⟩
  rw [((outputPath_contained g ⟨"A", []⟩).2 hcode).1]
  decide +kernel

end Generator

end EntitySchema
