import EntitySchema.Proofs.Writing

/-!
# What a run over all entities leaves behind

A run that tries every entity decides about each of them by the disk on which it starts to write.
At each path that it reports as written stands the class of the last entity that could be written
there (`Generator.exists_last_of_file?`), and all else is as it was.
-/

namespace EntitySchema

/-! ## The last one of its kind -/

/-- The last member of a list of which something holds. -/
def IsLast {α : Type} (P : α → Prop) (l : List α) (a : α) : Prop :=
  ∃ before after, l = before ++ a :: after ∧ P a ∧ ∀ x ∈ after, ¬ P x

theorem exists_isLast {α : Type} {P : α → Prop} {l : List α} (h : ∃ a ∈ l, P a) :
    ∃ a, IsLast P l a := by
  induction l with
  | nil =>
    obtain ⟨a, ha, -⟩ := h
    exact nomatch ha
  | cons b l ih =>
    by_cases hrest : ∃ a ∈ l, P a
    · obtain ⟨a, before, after, hl, hP, hafter⟩ := ih hrest
      exact ⟨a, b :: before, after, congrArg (b :: ·) hl, hP, hafter⟩
    · -- nothing behind the head will do, so it is the head itself
      obtain ⟨a, ha, hP⟩ := h
      rcases List.mem_cons.mp ha with rfl | ha
      · exact ⟨a, [], l, rfl, hP, fun x hx hPx => hrest ⟨x, hx, hPx⟩⟩
      · exact absurd ⟨a, ha, hP⟩ hrest

theorem IsLast.mem {α : Type} {P : α → Prop} {l : List α} {a : α} (h : IsLast P l a) : a ∈ l := by
  obtain ⟨before, after, rfl, -, -⟩ := h
  exact List.mem_append_right _ List.mem_cons_self

theorem IsLast.holds {α : Type} {P : α → Prop} {l : List α} {a : α} (h : IsLast P l a) : P a := by
  obtain ⟨_, _, _, hP, _⟩ := h
  exact hP

theorem IsLast.congr {α : Type} {P Q : α → Prop} {l : List α} {a : α} (h : IsLast P l a)
    (hiff : ∀ x ∈ l, P x ↔ Q x) : IsLast Q l a := by
  obtain ⟨before, after, rfl, hP, hafter⟩ := h
  refine ⟨before, after, rfl, (hiff a ?_).mp hP, ?_⟩
  · exact List.mem_append_right _ List.mem_cons_self
  · intro x hx hQ
    have hmem : x ∈ before ++ a :: after :=
      List.mem_append_right _ (List.mem_cons_of_mem _ hx)
    exact hafter x hx ((hiff x hmem).mpr hQ)

namespace Generator

variable {g : Generator} {d d₀ : Disk} {e e' : Entity} {es : List Entity} {q : Place}
  {content : ByteArray}

/-! ## The files of a run -/

theorem mem_files {f : Place × ByteArray} :
    f ∈ g.files d es ↔ ∃ e ∈ es, g.file? d e = some f :=
  List.mem_filterMap

theorem root_of_mem_files : ∀ f ∈ g.files d es, f.1 ≠ [] := by
  intro f hf
  obtain ⟨e, -, hfile⟩ := mem_files.mp hf
  exact root_of_file? hfile

theorem exists_file?_of_canWrite (h : g.CanWrite d e) :
    ∃ q content, g.file? d e = some (q, content) := by
  obtain ⟨⟨q, content⟩, hfile⟩ := Option.isSome_iff_exists.mp (canWrite_iff_file?.mp h)
  exact ⟨q, content, hfile⟩

theorem canWrite_of_file? (h : g.file? d e = some (q, content)) : g.CanWrite d e := by
  refine canWrite_iff_file?.mpr ?_
  rw [h]
  rfl

theorem nameFault?_of_file? {f : Place × ByteArray} (h : g.file? d e = some f) :
    e.nameFault? = none := by
  obtain ⟨-, code, hcode, -⟩ := file?_eq_some_iff.mp h
  exact (Java.exists_render_iff.mp ⟨code, hcode⟩).1

/-- Files at one place are those of entities with one name. -/
theorem name_eq_of_file? (hext : '/' ∉ g.options.extension.toList) {content' : ByteArray}
    (h : g.file? d e = some (q, content)) (h' : g.file? d e' = some (q, content')) :
    e.name = e'.name :=
  name_eq_of_fileAt? hext (nameFault?_of_file? h) (nameFault?_of_file? h')
    (file?_eq_some_iff.mp h).1 (file?_eq_some_iff.mp h').1

theorem outputPath_eq_of_name (h : e.name = e'.name) : g.outputPath e = g.outputPath e' := by
  unfold outputPath
  rw [h]

/-- Entities with different names have files at different places. -/
theorem nodup_files (hext : '/' ∉ g.options.extension.toList)
    (hnames : (es.map Entity.name).Nodup) : ((g.files d es).map Prod.fst).Nodup := by
  have hpairs : es.Pairwise fun a b => a.name ≠ b.name := List.pairwise_map.mp hnames
  refine List.pairwise_map.mpr (List.pairwise_filterMap.mpr (hpairs.imp ?_))
  intro a b hne f hf f' hf' hplace
  obtain ⟨q, content⟩ := f
  obtain ⟨q', content'⟩ := f'
  cases hplace
  exact hne (name_eq_of_file? hext hf hf')

/-- **The last entity with a path has its class there.** -/
theorem node?_of_isLast (hext : '/' ∉ g.options.extension.toList)
    (hlast : IsLast (fun x => g.CanWrite d x ∧ g.outputPath x = g.outputPath e) es e)
    (hfile : g.file? d e = some (q, content)) :
    (d.putFiles (g.files d es)).node? q = some (.file content) := by
  obtain ⟨before, after, rfl, -, hafter⟩ := hlast
  have hfiles : g.files d (before ++ e :: after)
      = g.files d before ++ (q, content) :: g.files d after := by
    unfold files
    rw [List.filterMap_append, List.filterMap_cons_some hfile]
  rw [hfiles]
  refine Disk.node?_putFiles_last (root_of_file? hfile) root_of_mem_files ?_
  rintro ⟨q', content'⟩ hf hplace
  cases hplace
  obtain ⟨x, hx, hfile'⟩ := mem_files.mp hf
  -- a later file at this place would be that of a later entity with this path
  refine hafter x hx ⟨canWrite_of_file? hfile', ?_⟩
  exact outputPath_eq_of_name (name_eq_of_file? hext hfile' hfile)

/-- **The path of an entity that can be written leads to the class of the last such entity.** -/
theorem exists_last_of_file? (hext : '/' ∉ g.options.extension.toList) (he : e ∈ es)
    (hfile : g.file? d e = some (q, content)) :
    ∃ last code, IsLast (fun x => g.CanWrite d x ∧ g.outputPath x = g.outputPath e) es last
      ∧ Java.render g.options last = .ok code
      ∧ (d.putFiles (g.files d es)).node? q = some (.file code.toUTF8)
      ∧ (d.putFiles (g.files d es)).locate (g.outputPath e) = .ok q
      ∧ (d.putFiles (g.files d es)).read (g.outputPath e) = .ok code.toUTF8 := by
  obtain ⟨last, hlast⟩ := exists_isLast
    (P := fun x => g.CanWrite d x ∧ g.outputPath x = g.outputPath e)
    ⟨e, he, canWrite_of_file? hfile, rfl⟩
  obtain ⟨hcan', hpath⟩ := hlast.holds
  obtain ⟨q', content', hfile'⟩ := exists_file?_of_canWrite hcan'
  have hnode := node?_of_isLast hext (by rw [hpath]; exact hlast) hfile'
  obtain ⟨hq', code, hcode, rfl⟩ := file?_eq_some_iff.mp hfile'
  have hq := (file?_eq_some_iff.mp hfile).1
  rw [hpath, hq] at hq'
  cases hq'
  have hkept := (dirsKept_putFiles (g := g) (.refl d) (.refl d) es).1
  obtain ⟨hlocate, hread⟩ := Disk.locate_of_fileAt? hq hkept hnode
  exact ⟨last, code, hlast, hcode, hnode, hlocate, hread⟩

/-- **What changes while files are written** is where the path of an entity leads that has a
class, and that class stands there. -/
theorem exists_of_node?_putFiles_ne
    (hne : (d.putFiles (g.files d es)).node? q ≠ d.node? q) :
    ∃ e ∈ es, ∃ code, Java.render g.options e = .ok code
      ∧ (d.putFiles (g.files d es)).locate (g.outputPath e) = .ok q
      ∧ (d.putFiles (g.files d es)).node? q = some (.file code.toUTF8) := by
  have hsome : ∃ f ∈ g.files d es, f.1 = q := by
    refine Decidable.byContradiction fun hnone => hne ?_
    exact Disk.node?_putFiles_of_not_mem root_of_mem_files fun f hf h => hnone ⟨f, hf, h⟩
  -- of the files that were put there, the last one still stands there
  obtain ⟨⟨q', content⟩, hlast⟩ := exists_isLast hsome
  have hmem := hlast.mem
  obtain ⟨before, after, hfiles, rfl, hafter⟩ := hlast
  obtain ⟨e, he, hfile⟩ := mem_files.mp hmem
  obtain ⟨hq, code, hcode, rfl⟩ := file?_eq_some_iff.mp hfile
  have hnode : (d.putFiles (g.files d es)).node? q' = some (.file code.toUTF8) := by
    have hroot : ∀ f ∈ g.files d es, f.1 ≠ [] := root_of_mem_files
    rw [hfiles] at hroot ⊢
    refine Disk.node?_putFiles_last (root_of_file? hfile) ?_ hafter
    intro f hf
    exact hroot f (List.mem_append_right _ (List.mem_cons_of_mem _ hf))
  have hkept := (dirsKept_putFiles (g := g) (.refl d) (.refl d) es).1
  exact ⟨e, he, code, hcode, (Disk.locate_of_fileAt? hq hkept hnode).1, hnode⟩

/-! ## The whole run -/

theorem Fits.written?_eq_some_iff {o : Outcome} (h : g.Fits d e o) {path : Path} :
    o.written? = some path ↔ g.CanWrite d e ∧ g.outputPath e = path := by
  have hpath := h.2 path
  unfold Outcome.written?
  cases hresult : o.result with
  | error fault =>
    rw [hresult] at hpath
    constructor
    · exact nofun
    · rintro ⟨hcan, heq⟩
      exact nomatch hpath.mpr ⟨heq.symm, hcan⟩
  | ok p =>
    rw [hresult, Except.ok.injEq] at hpath
    rw [Option.some_inj, hpath]
    constructor
    · rintro ⟨heq, hcan⟩
      exact ⟨hcan, heq.symm⟩
    · rintro ⟨hcan, heq⟩
      exact ⟨heq.symm, hcan⟩

theorem mem_written_iff {os : List Outcome} (h : List.Forall₂ (g.Fits d) es os) {path : Path} :
    path ∈ (Report.mk os).written ↔ ∃ e ∈ es, g.CanWrite d e ∧ g.outputPath e = path := by
  unfold Report.written
  rw [List.mem_filterMap]
  induction h with
  | nil => simp
  | cons ho _ ih =>
    simp only [List.mem_cons, exists_eq_or_imp]
    rw [ih, ho.written?_eq_some_iff]

/-- **What a run that tries every entity leaves behind,** told from the disk on which it starts to
write. -/
theorem generateEach_final (hext : '/' ∉ g.options.extension.toList)
    (hdir : (FileStore.makeDirs g.outputDir : StateM Disk _).run d = (.ok (), d₀))
    (es : List Entity) :
    ∃ r d', (g.generateEach es : StateM Disk _).run d = (r, d')
      ∧ List.Forall₂ (fun e o => o.entity = e.name
          ∧ ∀ path, o.result = .ok path ↔ path = g.outputPath e ∧ g.CanWrite d₀ e) es r.outcomes
      ∧ (∀ path ∈ r.written, ∃ e code,
          IsLast (fun x => g.CanWrite d₀ x ∧ g.outputPath x = path) es e
          ∧ Java.render g.options e = .ok code ∧ d'.read path = .ok code.toUTF8)
      ∧ (∀ q, (∀ path ∈ r.written, d'.locate path ≠ .ok q) → d'.node? q = d₀.node? q)
      ∧ d'.here = d₀.here
      ∧ (∀ before e after, es = before ++ e :: after → ¬ g.CanWrite d₀ e →
          ((g.generateEach (before ++ after) : StateM Disk _).run d).2 = d')
      ∧ ((es.map Entity.name).Nodup → ∀ es', es.Perm es' →
          d'.Same ((g.generateEach es' : StateM Disk _).run d).2) := by
  -- a run puts the files of its entities on the disk on which it starts to write
  have hrun (es : List Entity) : ∃ os, (g.generateEach es : StateM Disk _).run d
        = (⟨os⟩, d₀.putFiles (g.files d₀ es)) ∧ List.Forall₂ (g.Fits d₀) es os := by
    obtain ⟨os, hos, hfits⟩ := outcomes_run (g := g) (.refl d₀) (.refl d₀) es
    refine ⟨os, ?_, hfits⟩
    rw [generateEach_eq hdir, hos]
  obtain ⟨os, hos, hfits⟩ := hrun es
  refine ⟨⟨os⟩, d₀.putFiles (g.files d₀ es), hos, hfits, ?_, ?_, Disk.here_putFiles _ _, ?_, ?_⟩
  · intro path hpath
    obtain ⟨e, he, hcan, rfl⟩ := (mem_written_iff hfits).mp hpath
    obtain ⟨q, content, hfile⟩ := exists_file?_of_canWrite hcan
    obtain ⟨last, code, hlast, hcode, -, -, hread⟩ := exists_last_of_file? hext he hfile
    exact ⟨last, code, hlast, hcode, hread⟩
  · intro q hq
    refine Disk.node?_putFiles_of_not_mem root_of_mem_files ?_
    rintro ⟨q', content⟩ hf hplace
    cases hplace
    obtain ⟨e, he, hfile⟩ := mem_files.mp hf
    have hcan : g.CanWrite d₀ e := canWrite_of_file? hfile
    -- the path of the entity is reported, and leads to the place of its file
    obtain ⟨last, code, -, -, -, hlocate, -⟩ := exists_last_of_file? hext he hfile
    exact hq _ ((mem_written_iff hfits).mpr ⟨e, he, hcan, rfl⟩) hlocate
  · rintro before e after rfl hfails
    obtain ⟨os', hos', -⟩ := hrun (before ++ after)
    -- an entity that can not be written has no file, so without it the files are the same
    have hnone : g.file? d₀ e = none := by
      rw [canWrite_iff_file?] at hfails
      simpa using hfails
    have hfiles : g.files d₀ (before ++ e :: after) = g.files d₀ (before ++ after) := by
      unfold files
      rw [List.filterMap_append, List.filterMap_cons_none hnone, List.filterMap_append]
    rw [hos', hfiles]
  · intro hnames es' hperm
    obtain ⟨os', hos', -⟩ := hrun es'
    rw [hos']
    exact Disk.same_putFiles_of_perm root_of_mem_files (nodup_files hext hnames)
      (hperm.filterMap _)

/-- Two entities that fail change nothing: one has a field without a name, and where the file of the
other one is to go stands a directory. -/
theorem generateEach_final_of_failures :
    let g : Generator := ⟨⟨"out"⟩, {}⟩
    let d : Disk := ⟨[(["out"], .directory), (["out", "Order.java"], .directory)], []⟩
    let user : Entity := ⟨"User", []⟩
    let nameless : Entity := ⟨"User", [⟨"", "long", []⟩]⟩
    let order : Entity := ⟨"Order", []⟩
    ((g.generateEach [user, nameless, order] : StateM Disk _).run d).2
        = ((g.generateEach [user, order] : StateM Disk _).run d).2
      ∧ ((g.generateEach [user, order] : StateM Disk _).run d).2.Same
        ((g.generateEach [order, user] : StateM Disk _).run d).2 := by
  intro g d user nameless order
  have hext : '/' ∉ g.options.extension.toList := by decide
  have hdir : (FileStore.makeDirs g.outputDir : StateM Disk _).run d = (.ok (), d) := by
    simp only [g, d]
    rfl
  constructor
  · obtain ⟨r, d', hrun, -, -, -, -, hfailed, -⟩ :=
      generateEach_final hext hdir [user, nameless, order]
    have hnameless : ¬ g.CanWrite d nameless := by
      rintro ⟨code, hcode, -⟩
      exact (Java.exists_render_iff.mp ⟨code, hcode⟩).2 _ List.mem_cons_self rfl
    rw [hrun]
    exact (hfailed [user] nameless [order] rfl hnameless).symm
  · obtain ⟨r, d', hrun, -, -, -, -, -, hperm⟩ := generateEach_final hext hdir [user, order]
    rw [hrun]
    exact hperm (by decide) _ (.swap order user [])

end Generator

end EntitySchema
