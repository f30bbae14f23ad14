import EntitySchema.Proofs.Discovering
import Mathlib.Data.List.Sort

/-!
# Listing the same paths in another way

Discovery takes a list of paths, and it does not matter in which order or how often a path is in it.
Every listed path stands for the same files wherever it is in the list, so the files that are found
together are the same (`Discovery.mem_filesAtAll_iff`), and putting them in order leaves one
strictly increasing list of what they pass through (`Discovery.map_components_inOrder`). Which
spelling of a path is left can differ, but all spellings that lead somewhere lead to the same file
(`Disk.read_of_components`), and so the same entities are loaded (`discover_relisted`).
-/

namespace EntitySchema

open SteadyStore

variable {p p' f : Path} {paths paths' files files' all : List Path}

namespace Discovery

/-! ## The files of a list of paths -/

section Listed

variable {σ : Type} [FileStore (StateM σ)] [SteadyStore σ] {s : σ}

/-- The path stands for the file. -/
def StandsFor (s : σ) (p f : Path) : Prop :=
  ∃ files, ((filesAt p : StateM σ _).run s).1 = .ok files ∧ f ∈ files

theorem filesAtAll_cons_eq_ok_iff :
    ((filesAtAll (p :: paths) : StateM σ _).run s).1 = .ok all
      ↔ ∃ files more, ((filesAt p : StateM σ _).run s).1 = .ok files
        ∧ ((filesAtAll paths : StateM σ _).run s).1 = .ok more ∧ all = files ++ more := by
  rw [filesAtAll, (keeps_filesAt p).run_bind]
  cases ((filesAt p : StateM σ _).run s).1 with
  | error failure => exact ⟨nofun, fun ⟨_, _, h, _⟩ => nomatch h⟩
  | ok files =>
    dsimp only
    rw [(keeps_filesAtAll paths).run_bind]
    cases ((filesAtAll paths : StateM σ _).run s).1 with
    | error failure => exact ⟨nofun, fun ⟨_, _, _, h, _⟩ => nomatch h⟩
    | ok more =>
      refine ⟨?_, ?_⟩
      · intro h
        exact ⟨files, more, rfl, rfl, (Except.ok.inj h).symm⟩
      · rintro ⟨_, _, hfiles, hmore, rfl⟩
        cases hfiles
        cases hmore
        rfl

/-- The paths stand for files together exactly if each of them does. -/
theorem exists_filesAtAll_iff :
    (∃ all, ((filesAtAll paths : StateM σ _).run s).1 = .ok all)
      ↔ ∀ p ∈ paths, ∃ files, ((filesAt p : StateM σ _).run s).1 = .ok files := by
  induction paths with
  | nil => exact ⟨fun _ => nofun, fun _ => ⟨[], rfl⟩⟩
  | cons p paths ih =>
    rw [List.forall_mem_cons, ← ih]
    refine ⟨?_, ?_⟩
    · rintro ⟨all, hall⟩
      obtain ⟨files, more, hfiles, hmore, -⟩ := filesAtAll_cons_eq_ok_iff.mp hall
      exact ⟨⟨files, hfiles⟩, more, hmore⟩
    · rintro ⟨⟨files, hfiles⟩, more, hmore⟩
      exact ⟨_, filesAtAll_cons_eq_ok_iff.mpr ⟨files, more, hfiles, hmore, rfl⟩⟩

/-- What the paths stand for together is what one of them stands for. -/
theorem mem_filesAtAll_iff (h : ((filesAtAll paths : StateM σ _).run s).1 = .ok all) :
    f ∈ all ↔ ∃ p ∈ paths, StandsFor s p f := by
  induction paths generalizing all with
  | nil =>
    obtain rfl : [] = all := Except.ok.inj h
    simp
  | cons p paths ih =>
    obtain ⟨files, more, hfiles, hmore, rfl⟩ := filesAtAll_cons_eq_ok_iff.mp h
    have hfirst : f ∈ files ↔ StandsFor s p f := by
      unfold StandsFor
      rw [hfiles]
      simp
    rw [List.mem_append, hfirst, ih hmore, List.exists_mem_cons_iff]

/-- A list with the same paths stands for the same files. -/
theorem exists_filesAtAll_relisted (hpaths : ∀ p, p ∈ paths ↔ p ∈ paths')
    (h : ((filesAtAll paths : StateM σ _).run s).1 = .ok all) :
    ∃ all', ((filesAtAll paths' : StateM σ _).run s).1 = .ok all' ∧ ∀ f, f ∈ all ↔ f ∈ all' := by
  have heach := exists_filesAtAll_iff.mp ⟨all, h⟩
  obtain ⟨all', h'⟩ := exists_filesAtAll_iff.mpr fun p hp => heach p ((hpaths p).mpr hp)
  refine ⟨all', h', ?_⟩
  intro f
  rw [mem_filesAtAll_iff h, mem_filesAtAll_iff h']
  simp only [hpaths]

end Listed

/-! ## Files in order -/

theorem mem_map_components_inOrder_iff {cs : List Path.Component} :
    cs ∈ (inOrder all).map Path.components ↔ cs ∈ all.map Path.components := by
  rw [List.mem_map, List.mem_map]
  refine ⟨?_, ?_⟩
  · rintro ⟨f, hf, rfl⟩
    exact ⟨f, mem_of_mem_inOrder hf, rfl⟩
  · rintro ⟨f, hf, rfl⟩
    exact exists_mem_inOrder hf

/-- The order of files does not depend on the order in which they were found. -/
theorem map_components_inOrder {all' : List Path} (h : ∀ f, f ∈ all ↔ f ∈ all') :
    (inOrder all).map Path.components = (inOrder all').map Path.components := by
  let Precedes (as bs : List Path.Component) : Prop := Path.compareComponents as bs = .lt
  have hirrefl : Std.Irrefl Precedes := ⟨fun _ h => Std.OrientedCmp.not_lt_of_lt h h⟩
  have hantisymm : Std.Antisymm Precedes :=
    ⟨fun _ _ h h' => absurd h' (Std.OrientedCmp.not_lt_of_lt h)⟩
  have hordered (all : List Path) : ((inOrder all).map Path.components).Pairwise Precedes :=
    List.pairwise_map.mpr (pairwise_inOrder all)
  refine (hordered all).eq_of_mem_iff (hordered all') ?_
  intro cs
  rw [mem_map_components_inOrder_iff, mem_map_components_inOrder_iff, List.mem_map, List.mem_map]
  simp only [h]

end Discovery

/-! ## What is discovered -/

section Discovered

variable {σ : Type} [FileStore (StateM σ)] [SteadyStore σ] {s : σ}

theorem discover_eq_ok_iff :
    ((discover paths : StateM σ _).run s).1 = .ok files
      ↔ ∃ all, ((Discovery.filesAtAll paths : StateM σ _).run s).1 = .ok all ∧ all ≠ []
        ∧ files = Discovery.inOrder all := by
  cases hfound : ((Discovery.filesAtAll paths : StateM σ _).run s).1 with
  | error failure =>
    unfold discover
    rw [(Discovery.keeps_filesAtAll paths).run_bind, hfound]
    exact ⟨nofun, fun ⟨_, h, _⟩ => nomatch h⟩
  | ok found =>
    rw [run_discover hfound]
    by_cases hnil : found = []
    · rw [if_pos hnil]
      refine ⟨nofun, ?_⟩
      rintro ⟨_, hall, hne, -⟩
      cases hall
      exact absurd hnil hne
    · rw [if_neg hnil]
      refine ⟨?_, ?_⟩
      · intro h
        exact ⟨found, rfl, hnil, (Except.ok.inj h).symm⟩
      · rintro ⟨_, hall, -, rfl⟩
        cases hall
        rfl

/-- **A list with the same paths leads to the same discovery,** up to the spelling of what is
found. -/
theorem exists_discover_relisted (hpaths : ∀ p, p ∈ paths ↔ p ∈ paths')
    (h : ((discover paths : StateM σ _).run s).1 = .ok files) :
    ∃ files', ((discover paths' : StateM σ _).run s).1 = .ok files'
      ∧ files.map Path.components = files'.map Path.components := by
  obtain ⟨all, hall, hne, rfl⟩ := discover_eq_ok_iff.mp h
  obtain ⟨all', hall', hmem⟩ := Discovery.exists_filesAtAll_relisted hpaths hall
  refine ⟨_, discover_eq_ok_iff.mpr ⟨all', hall', ?_, rfl⟩,
    Discovery.map_components_inOrder hmem⟩
  obtain ⟨f, hf⟩ := List.exists_mem_of_ne_nil all hne
  exact List.ne_nil_of_mem ((hmem f).mp hf)

/-- What the two lists lead to passes through the same components. -/
theorem map_components_of_discover (hpaths : ∀ p, p ∈ paths ↔ p ∈ paths')
    (h : ((discover paths : StateM σ _).run s).1 = .ok files)
    (h' : ((discover paths' : StateM σ _).run s).1 = .ok files') :
    files.map Path.components = files'.map Path.components := by
  obtain ⟨again, hagain, hsame⟩ := exists_discover_relisted hpaths h
  cases Except.ok.inj (hagain.symm.trans h')
  exact hsame

/-- What is discovered comes in strictly increasing order. -/
theorem pairwise_of_discover (h : ((discover paths : StateM σ _).run s).1 = .ok files) :
    files.Pairwise fun f g => f.compare g = .lt := by
  obtain ⟨all, -, -, rfl⟩ := discover_eq_ok_iff.mp h
  exact Discovery.pairwise_inOrder all

end Discovered

/-! ## What is loaded -/

/-- A file has the same content under every spelling of its path that leads somewhere. -/
theorem Disk.read_of_components {d : Disk} {content : ByteArray} (h : d.read p = .ok content)
    (hthere : (d.kind? p').isSome) (hsame : p.components = p'.components) :
    d.read p' = .ok content := by
  obtain ⟨q', n, hq', -, -⟩ := exists_locate hthere
  unfold read at h ⊢
  obtain ⟨q, hq, hnode⟩ := bind_eq_ok_iff.mp h
  rw [hq', ← locate_eq_of_components hq hq' hsame]
  exact hnode

namespace SchemaFile

/-- Files are loaded the same under every spelling of their paths, as long as all of them lead
somewhere. -/
theorem exists_loadAll_respelled {d : Disk} {loaded : List SchemaFile}
    (hsame : files.map Path.components = files'.map Path.components)
    (hthere : ∀ f ∈ files', (d.kind? f).isSome)
    (h : ((loadAll files : StateM Disk _).run d).1 = .ok loaded) :
    ∃ loaded', ((loadAll files' : StateM Disk _).run d).1 = .ok loaded'
      ∧ loaded.map schema = loaded'.map schema := by
  simp only [loadAll_eq_ok_iff] at h ⊢
  induction h generalizing files' with
  | nil =>
    obtain rfl : files' = [] := List.map_eq_nil_iff.mp hsame.symm
    exact ⟨[], .nil, rfl⟩
  | @cons p file files loaded hfile _ ih =>
    cases files' with
    | nil => exact nomatch hsame
    | cons p' files' =>
      obtain ⟨hp, hfiles⟩ := List.cons.inj hsame
      obtain ⟨hfirst, hrest⟩ := List.forall_mem_cons.mp hthere
      obtain ⟨text, hread, rfl⟩ := load_eq_ok_iff.mp hfile
      obtain ⟨loaded', hloaded, hschemas⟩ := ih hfiles hrest
      have hread' : d.read p' = .ok text.toUTF8 := Disk.read_of_components hread hfirst hp
      refine ⟨_, .cons (load_eq_ok_iff.mpr ⟨text, hread', rfl⟩) hloaded, ?_⟩
      rw [List.map_cons, List.map_cons, hschemas]

/-- What was loaded was there. -/
theorem isSome_kind?_of_loadAll {d : Disk} {loaded : List SchemaFile}
    (h : ((loadAll files : StateM Disk _).run d).1 = .ok loaded) :
    ∀ f ∈ files, (d.kind? f).isSome := by
  rw [loadAll_eq_ok_iff] at h
  induction h with
  | nil => exact nofun
  | cons hfile _ ih =>
    obtain ⟨text, hread, -⟩ := load_eq_ok_iff.mp hfile
    exact List.forall_mem_cons.mpr ⟨Disk.isSome_kind?_of_read hread, ih⟩

end SchemaFile

theorem allEntities_congr {loaded loaded' : List SchemaFile}
    (h : loaded.map SchemaFile.schema = loaded'.map SchemaFile.schema) :
    allEntities loaded = allEntities loaded' := by
  have hschemas (files : List SchemaFile) :
      allEntities files = (files.map SchemaFile.schema).flatMap Schema.entities := by
    rw [List.flatMap_map]
    rfl
  rw [hschemas, hschemas, h]

/-- **Discovery does not depend on the order or repetition of the listed paths.** In a store that
answers the same questions in the same way, it succeeds for both lists or for neither, and what it
finds passes through the same components, file by file, and comes in strictly increasing order. So
the same entities are loaded in the same order. Only a path that leads nowhere, such as one that is
too long to be asked for, can be loaded in one spelling and not in another. -/
theorem discover_relisted (hpaths : ∀ p, p ∈ paths ↔ p ∈ paths') :
    (∀ (σ : Type) [FileStore (StateM σ)] [SteadyStore σ] (s : σ),
      ((∃ files, ((discover paths : StateM σ _).run s).1 = .ok files)
        ↔ ∃ files', ((discover paths' : StateM σ _).run s).1 = .ok files')
      ∧ ∀ files files', ((discover paths : StateM σ _).run s).1 = .ok files →
        ((discover paths' : StateM σ _).run s).1 = .ok files' →
        files.map Path.components = files'.map Path.components
        ∧ (files.Pairwise fun f g => f.compare g = .lt)
        ∧ files'.Pairwise fun f g => f.compare g = .lt)
    ∧ ∀ (d : Disk) (files files' : List Path),
      ((discover paths : StateM Disk _).run d).1 = .ok files →
      ((discover paths' : StateM Disk _).run d).1 = .ok files' →
      let loaded := ((SchemaFile.loadFrom paths : StateM Disk _).run d).1
      let loaded' := ((SchemaFile.loadFrom paths' : StateM Disk _).run d).1
      (∀ all all', loaded = .ok all → loaded' = .ok all' → allEntities all = allEntities all')
      ∧ ((∀ f ∈ files ++ files', (d.kind? f).isSome) →
        ((∃ all, loaded = .ok all) ↔ ∃ all', loaded' = .ok all')) := by
  have hpaths' (p : Path) : p ∈ paths' ↔ p ∈ paths := (hpaths p).symm
  refine ⟨?_, ?_⟩
  · intro σ _ _ s
    refine ⟨⟨?_, ?_⟩, ?_⟩
    · rintro ⟨files, hfound⟩
      obtain ⟨files', hfound', -⟩ := exists_discover_relisted hpaths hfound
      exact ⟨files', hfound'⟩
    · rintro ⟨files', hfound'⟩
      obtain ⟨files, hfound, -⟩ := exists_discover_relisted hpaths' hfound'
      exact ⟨files, hfound⟩
    · intro files files' hfound hfound'
      exact ⟨map_components_of_discover hpaths hfound hfound', pairwise_of_discover hfound,
        pairwise_of_discover hfound'⟩
  · intro d files files' hfound hfound' loaded loaded'
    have hsame := map_components_of_discover hpaths hfound hfound'
    have hload : loaded = ((SchemaFile.loadAll files : StateM Disk _).run d).1 :=
      SchemaFile.loadFrom_of_discover hfound
    have hload' : loaded' = ((SchemaFile.loadAll files' : StateM Disk _).run d).1 :=
      SchemaFile.loadFrom_of_discover hfound'
    rw [hload, hload']
    refine ⟨?_, ?_⟩
    · intro all all' hall hall'
      -- what the second list loads was there to be loaded for the first one
      obtain ⟨again, hagain, hschemas⟩ :=
        SchemaFile.exists_loadAll_respelled hsame (SchemaFile.isSome_kind?_of_loadAll hall') hall
      cases Except.ok.inj (hagain.symm.trans hall')
      exact allEntities_congr hschemas
    · intro hthere
      obtain ⟨hfiles, hfiles'⟩ := List.forall_mem_append.mp hthere
      refine ⟨?_, ?_⟩
      · rintro ⟨all, hall⟩
        obtain ⟨all', hall', -⟩ := SchemaFile.exists_loadAll_respelled hsame hfiles' hall
        exact ⟨all', hall'⟩
      · rintro ⟨all', hall'⟩
        obtain ⟨all, hall, -⟩ := SchemaFile.exists_loadAll_respelled hsame.symm hfiles hall'
        exact ⟨all, hall⟩

/-- Two spellings of the path of one file: which of them is left depends on the list, and what it
passes through does not. -/
theorem discover_relisted_respelled :
    let d : Disk := ⟨[(["s"], .directory), (["s", "x.dsl"], .file ByteArray.empty)], []⟩
    let found (paths : List Path) := ((discover paths : StateM Disk _).run d).1
    found [⟨"s/x.dsl"⟩, ⟨"s//x.dsl"⟩] = .ok [⟨"s/x.dsl"⟩]
      ∧ found [⟨"s//x.dsl"⟩, ⟨"s/x.dsl"⟩, ⟨"s//x.dsl"⟩] = .ok [⟨"s//x.dsl"⟩]
      ∧ (Path.mk "s/x.dsl").components = (Path.mk "s//x.dsl").components := by
  intro d found
  have hfirst : found [⟨"s/x.dsl"⟩, ⟨"s//x.dsl"⟩] = .ok [⟨"s/x.dsl"⟩] := by
    refine discover_eq_ok_iff.mpr ⟨[⟨"s/x.dsl"⟩, ⟨"s//x.dsl"⟩], by decide +kernel, by decide, ?_⟩
    rw [Discovery.inOrder, List.mergeSort_of_pairwise (by decide)]
    decide +kernel
  have hsecond : found [⟨"s//x.dsl"⟩, ⟨"s/x.dsl"⟩, ⟨"s//x.dsl"⟩] = .ok [⟨"s//x.dsl"⟩] := by
    refine discover_eq_ok_iff.mpr
      ⟨[⟨"s//x.dsl"⟩, ⟨"s/x.dsl"⟩, ⟨"s//x.dsl"⟩], by decide +kernel, by decide, ?_⟩
    rw [Discovery.inOrder, List.mergeSort_of_pairwise (by decide)]
    decide +kernel
  have hpaths (p : Path) : p ∈ [(⟨"s/x.dsl"⟩ : Path), ⟨"s//x.dsl"⟩]
      ↔ p ∈ [(⟨"s//x.dsl"⟩ : Path), ⟨"s/x.dsl"⟩, ⟨"s//x.dsl"⟩] := by
    simp only [List.mem_cons, List.not_mem_nil]
    tauto
  obtain ⟨hsame, -⟩ := ((discover_relisted hpaths).1 Disk d).2 _ _ hfirst hsecond
  exact ⟨hfirst, hsecond, (List.cons.inj hsame).1⟩

end EntitySchema
