import EntitySchema.Proofs.Descent
import EntitySchema.Proofs.PathOrder
import Mathlib.Data.List.Pairwise

/-!
# What discovery finds

A file that is listed stands for itself, and a directory that is listed for what is below it with
the name of a schema file. `Discovery.Arrival` says at which places this ends and what the paths
pass through on the way there, and discovery finds a path for every arrival and no other paths
(`Discovery.discover_covers`), as long as it searches the listed directories in full. A directory
whose own path reads as a pattern is not searched so, and what is in it can be missed.
-/

namespace EntitySchema

open Glob

namespace Discovery

variable {d : Disk} {p : Path} {paths files : List Path}

/-! ## Arrivals -/

/-- The places at which listed paths arrive, and what is passed through on the way: a listed file
itself, and what is below a listed directory with the name of a schema file. -/
inductive Arrival (d : Disk) (paths : List Path) : Place → List Path.Component → Prop
  | listed {p : Path} {q : Place} : p ∈ paths → d.locate p = .ok q → d.kind? p = some .file →
      Arrival d paths q p.components
  | below {p : Path} {r above : Place} {name : String} : p ∈ paths → d.locate p = .ok r →
      (d.node? (r ++ above ++ [name])).isSome → IsSchemaName name →
      Arrival d paths (r ++ above ++ [name]) (p.course ++ (above ++ [name]).map .name)

/-- The paths are one for each of these places and ways to it. -/
structure Covers (d : Disk) (R : Place → List Path.Component → Prop) (files : List Path) :
    Prop where
  sound : ∀ f ∈ files, ∃ q, d.locate f = .ok q ∧ R q f.components
  complete : ∀ q cs, R q cs → ∃ f ∈ files, d.locate f = .ok q ∧ f.components = cs

theorem arrival_cons_iff {q : Place} {cs : List Path.Component} :
    Arrival d (p :: paths) q cs ↔ Arrival d [p] q cs ∨ Arrival d paths q cs := by
  constructor
  · intro h
    cases h with
    | listed hp hq hfile =>
      rcases List.mem_cons.mp hp with rfl | hp
      · exact .inl (.listed (List.mem_singleton_self _) hq hfile)
      · exact .inr (.listed hp hq hfile)
    | below hp hr hentry hname =>
      rcases List.mem_cons.mp hp with rfl | hp
      · exact .inl (.below (List.mem_singleton_self _) hr hentry hname)
      · exact .inr (.below hp hr hentry hname)
  · rintro (h | h)
    · cases h with
      | listed hp hq hfile =>
        exact .listed (List.mem_cons.mpr (.inl (List.mem_singleton.mp hp))) hq hfile
      | below hp hr hentry hname =>
        exact .below (List.mem_cons.mpr (.inl (List.mem_singleton.mp hp))) hr hentry hname
    · cases h with
      | listed hp hq hfile => exact .listed (List.mem_cons_of_mem _ hp) hq hfile
      | below hp hr hentry hname => exact .below (List.mem_cons_of_mem _ hp) hr hentry hname

/-- A listed file is the only arrival at it. -/
theorem covers_file (hd : d.Sound) (hfile : d.kind? p = some .file) :
    Covers d (Arrival d [p]) [p] := by
  obtain ⟨q, n, hq, hnode, hkind⟩ := Disk.exists_locate (by rw [hfile]; rfl)
  constructor
  · intro f hf
    cases List.mem_singleton.mp hf
    exact ⟨q, hq, .listed hf hq hfile⟩
  · intro place cs h
    cases h with
    | listed hp hlocate =>
      cases List.mem_singleton.mp hp
      exact ⟨_, hp, hlocate, rfl⟩
    | below hp hr hentry =>
      -- nothing is below a file
      cases List.mem_singleton.mp hp
      have hdir := hd.directory_of_below (by simpa using hentry) (List.concat_ne_nil _ _)
      rw [(Disk.kind?_eq_directory_iff hr).mpr hdir] at hfile
      exact nomatch hfile

/-- What a search finds below a listed directory are the arrivals from there. -/
theorem covers_directory (hd : d.Sound) {r : Place} (hp : d.locate p = .ok r)
    (hdir : d.kind? p = some .directory) {dir : Path} (hlocate : d.locate dir = .ok r)
    (hundotted : Undotted dir) (hroom : Roomy d r dir) (hcourse : dir.course = p.course)
    (hfiles : ∀ f, f ∈ files ↔ SchemaBelow d r dir f) : Covers d (Arrival d [p]) files := by
  have hpath (above : Place) (name : String) (h : (d.node? (r ++ above ++ [name])).isSome) :
      d.locate (entryPath (above.foldl entryPath dir) name) = .ok (r ++ above ++ [name])
        ∧ (entryPath (above.foldl entryPath dir) name).components
          = p.course ++ (above ++ [name]).map .name := by
    have hentry : (d.node? (r ++ (above ++ [name]))).isSome := by simpa using h
    have hends := foldl_entryPath hd hlocate hundotted hroom hentry (List.concat_ne_nil name above)
    rw [List.foldl_append, List.foldl_cons, List.foldl_nil, hcourse, ← List.append_assoc] at hends
    exact hends
  constructor
  · intro f hf
    obtain ⟨above, name, hentry, hname, rfl⟩ := (hfiles f).mp hf
    obtain ⟨hplace, hway⟩ := hpath above name hentry
    exact ⟨_, hplace, hway ▸ .below (List.mem_singleton_self p) hp hentry hname⟩
  · intro q cs h
    cases h with
    | listed hmem hq hfile =>
      cases List.mem_singleton.mp hmem
      rw [hdir] at hfile
      exact nomatch hfile
    | @below _ r' above name hmem hr hentry hname =>
      cases List.mem_singleton.mp hmem
      cases Except.ok.inj (hr.symm.trans hp)
      obtain ⟨hplace, hway⟩ := hpath above name hentry
      exact ⟨_, (hfiles _).mpr ⟨above, name, hentry, hname, rfl⟩, hplace, hway⟩

/-! ## The files of all listed paths -/

/-- One listed path gives a path for each of its arrivals. -/
theorem filesAt_covers (hd : d.Sound) (hexists : (d.kind? p).isSome)
    (hfull : d.kind? p = some .directory → d.SearchedInFull p) :
    ∃ files, (filesAt p : StateM Disk _).run d = (.ok files, d)
      ∧ Covers d (Arrival d [p]) files := by
  obtain ⟨q, n, hq, hnode, hkind⟩ := Disk.exists_locate hexists
  have hlook : (FileStore.kind? p : StateM Disk _).run d = (some n.kind, d) :=
    Prod.ext hkind rfl
  unfold filesAt
  rw [StateT.run_bind, hlook]
  cases n with
  | file content => exact ⟨[p], rfl, covers_file hd hkind⟩
  | directory =>
    obtain ⟨dir, ⟨files, hrun, hfiles⟩, hlocate, hundotted, hroom, hcourse⟩ :=
      finds_patternBelow hd hq hnode (hfull hkind)
    refine ⟨files, ?_, covers_directory hd hq hkind hlocate hundotted hroom hcourse hfiles⟩
    show ((search (patternBelow p) >>= _ : StateM Disk _).run d : Id _) = _
    rw [StateT.run_bind, hrun]
    rfl

theorem Covers.append {R S : Place → List Path.Component → Prop} {more : List Path}
    (h : Covers d R files) (h' : Covers d S more) :
    Covers d (fun q cs => R q cs ∨ S q cs) (files ++ more) := by
  constructor
  · intro f hf
    rcases List.mem_append.mp hf with hf | hf
    · obtain ⟨q, hq, hR⟩ := h.sound f hf
      exact ⟨q, hq, .inl hR⟩
    · obtain ⟨q, hq, hS⟩ := h'.sound f hf
      exact ⟨q, hq, .inr hS⟩
  · rintro q cs (hR | hS)
    · obtain ⟨f, hf, hways⟩ := h.complete q cs hR
      exact ⟨f, List.mem_append_left _ hf, hways⟩
    · obtain ⟨f, hf, hways⟩ := h'.complete q cs hS
      exact ⟨f, List.mem_append_right _ hf, hways⟩

theorem filesAtAll_covers (hd : d.Sound) (hexists : ∀ p ∈ paths, (d.kind? p).isSome)
    (hfull : ∀ p ∈ paths, d.kind? p = some .directory → d.SearchedInFull p) :
    ∃ files, (filesAtAll paths : StateM Disk _).run d = (.ok files, d)
      ∧ Covers d (Arrival d paths) files := by
  induction paths with
  | nil =>
    refine ⟨[], rfl, nofun, ?_⟩
    intro q cs h
    cases h with
    | listed hp => exact nomatch hp
    | below hp => exact nomatch hp
  | cons p paths ih =>
    obtain ⟨hfirst, hexists⟩ := List.forall_mem_cons.mp hexists
    obtain ⟨hfirstFull, hfull⟩ := List.forall_mem_cons.mp hfull
    obtain ⟨files, hrun, hfiles⟩ := filesAt_covers hd hfirst hfirstFull
    obtain ⟨more, hmore, hrest⟩ := ih hexists hfull
    refine ⟨files ++ more, ?_, ?_⟩
    · unfold filesAtAll
      rw [StateT.run_bind, hrun]
      show ((filesAtAll paths >>= _ : StateM Disk _).run d : Id _) = _
      rw [StateT.run_bind, hmore]
      rfl
    · have hboth := hfiles.append hrest
      exact ⟨fun f hf => (hboth.sound f hf).imp fun q h => ⟨h.1, arrival_cons_iff.mpr h.2⟩,
        fun q cs h => hboth.complete q cs (arrival_cons_iff.mp h)⟩

/-- To put the paths in order takes no arrival from them. -/
theorem Covers.inOrder {R : Place → List Path.Component → Prop} (h : Covers d R files) :
    Covers d R (inOrder files) := by
  constructor
  · intro f hf
    exact h.sound f (mem_of_mem_inOrder hf)
  · intro q cs hR
    obtain ⟨f, hf, hq, hcs⟩ := h.complete q cs hR
    obtain ⟨g, hg, hsame⟩ := exists_mem_inOrder hf
    obtain ⟨q', hq', -⟩ := h.sound g (mem_of_mem_inOrder hg)
    -- the spelling that is kept leads to the same place
    rw [Disk.locate_eq_of_components hq' hq hsame] at hq'
    exact ⟨g, hg, hq', hsame.trans hcs⟩

/-- **Discovery gives one path for each arrival,** and it fails only if there is none. -/
theorem discover_covers (hd : d.Sound) (hexists : ∀ p ∈ paths, (d.kind? p).isSome)
    (hfull : ∀ p ∈ paths, d.kind? p = some .directory → d.SearchedInFull p) :
    (∀ files, ((discover paths : StateM Disk _).run d).1 = .ok files →
      Covers d (Arrival d paths) files ∧ files.Pairwise fun f g => f.compare g = .lt)
    ∧ ∀ failure, ((discover paths : StateM Disk _).run d).1 = .error failure →
      ∀ q cs, ¬ Arrival d paths q cs := by
  obtain ⟨all, hrun, hcovers⟩ := filesAtAll_covers hd hexists hfull
  have hall : ((filesAtAll paths : StateM Disk _).run d).1 = .ok all := by rw [hrun]
  rw [run_discover hall]
  by_cases hnil : all = []
  · rw [if_pos hnil]
    refine ⟨nofun, ?_⟩
    intro failure _ q cs h
    obtain ⟨f, hf, -⟩ := hcovers.complete q cs h
    rw [hnil] at hf
    exact nomatch hf
  · rw [if_neg hnil]
    refine ⟨?_, nofun⟩
    intro files hfiles
    cases hfiles
    exact ⟨hcovers.inOrder, pairwise_inOrder all⟩

/-! ## Schema files -/

/-- The place holds a file, and it is one that is listed, or it stands below a listed directory and
has the name of a schema file. -/
def IsSchemaFile (d : Disk) (paths : List Path) (q : Place) : Prop :=
  (∃ content, d.node? q = some (.file content))
    ∧ ∃ p ∈ paths, ∃ r, d.locate p = .ok r
      ∧ (q = r ∨ ∃ above name, q = r ++ above ++ [name] ∧ IsSchemaName name)

theorem isSchemaFile_iff {q : Place} :
    IsSchemaFile d paths q
      ↔ (∃ content, d.node? q = some (.file content)) ∧ ∃ cs, Arrival d paths q cs := by
  refine and_congr_right fun ⟨content, hfile⟩ => ?_
  constructor
  · rintro ⟨p, hp, r, hr, rfl | ⟨above, name, rfl, hname⟩⟩
    · refine ⟨p.components, .listed hp hr ?_⟩
      rw [Disk.kind?_of_locate hr, hfile]
      rfl
    · exact ⟨_, .below hp hr (by rw [hfile]; rfl) hname⟩
  · rintro ⟨cs, h⟩
    cases h with
    | @listed p _ hp hr => exact ⟨p, hp, q, hr, .inl rfl⟩
    | @below p r above name hp hr _ hname =>
      exact ⟨p, hp, r, hr, .inr ⟨above, name, rfl, hname⟩⟩

section Covered

variable {R : Place → List Path.Component → Prop}

/-- Paths that are one for each arrival are all paths of files exactly if no arrival is at a
directory. -/
theorem Covers.forall_file_iff (h : Covers d R files) (hR : ∀ q cs, R q cs → (d.node? q).isSome) :
    (∀ f ∈ files, d.kind? f = some .file) ↔ ∀ q cs, R q cs → d.node? q ≠ some .directory := by
  constructor
  · intro hfiles q cs hq hdir
    obtain ⟨f, hf, hlocate, -⟩ := h.complete q cs hq
    have hkind := hfiles f hf
    rw [(Disk.kind?_eq_directory_iff hlocate).mpr hdir] at hkind
    exact nomatch hkind
  · intro hnone f hf
    obtain ⟨q, hq, hway⟩ := h.sound f hf
    obtain ⟨n, hn⟩ := Option.isSome_iff_exists.mp (hR q _ hway)
    rw [Disk.kind?_of_locate hq, hn]
    cases n with
    | file content => rfl
    | directory => exact absurd hn (hnone q _ hway)

/-- Paths that are one for each arrival lead to different places exactly if there is one way to
each. -/
theorem Covers.pairwise_locate_iff (h : Covers d R files)
    (hordered : files.Pairwise fun f g => f.compare g = .lt) :
    (files.Pairwise fun f g => d.locate f ≠ d.locate g)
      ↔ ∀ q cs cs', R q cs → R q cs' → cs = cs' := by
  constructor
  · intro hplaces q cs cs' hq hq'
    obtain ⟨f, hf, hlocate, rfl⟩ := h.complete q cs hq
    obtain ⟨g, hg, hlocate', rfl⟩ := h.complete q cs' hq'
    by_contra hne
    have hdifferent : f ≠ g := fun heq => hne (congrArg Path.components heq)
    have hsymm : Std.Symm fun f g : Path => d.locate f ≠ d.locate g := ⟨fun _ _ h => h.symm⟩
    exact hplaces.forall hf hg hdifferent (hlocate.trans hlocate'.symm)
  · intro hways
    refine hordered.imp_of_mem ?_
    intro f g hf hg hlt heq
    obtain ⟨q, hq, hf⟩ := h.sound f hf
    obtain ⟨q', hq', hg⟩ := h.sound g hg
    cases Except.ok.inj (hq.symm.trans (heq.trans hq'))
    rw [Path.compare_eq_eq_iff.mpr (hways q _ _ hf hg)] at hlt
    exact nomatch hlt

end Covered

theorem Arrival.isSome_node? {q : Place} {cs : List Path.Component} (h : Arrival d paths q cs) :
    (d.node? q).isSome := by
  cases h with
  | listed _ hq hfile =>
    rw [Disk.kind?_of_locate hq] at hfile
    exact Option.isSome_of_eq_some (Option.map_eq_some_iff.mp hfile).choose_spec.1
  | below _ _ hentry _ => exact hentry

/-- **What discovery finds** below directories that it searches in full are the schema files, and
it fails only if there are none. It finds nothing else exactly if no directory below has the name of
a schema file, and each file once exactly if there is one way to each. -/
theorem discover_finds (hd : d.Sound) (hexists : ∀ p ∈ paths, (d.kind? p).isSome)
    (hfull : ∀ p ∈ paths, d.kind? p = some .directory → d.SearchedInFull p) :
    let found := ((discover paths : StateM Disk _).run d).1
    (∀ files, found = .ok files →
      (∀ q, IsSchemaFile d paths q
        ↔ (∃ content, d.node? q = some (.file content)) ∧ ∃ f ∈ files, d.locate f = .ok q)
      ∧ ((∀ f ∈ files, d.kind? f = some .file)
        ↔ ∀ q cs, Arrival d paths q cs → d.node? q ≠ some .directory)
      ∧ ((files.Pairwise fun f g => d.locate f ≠ d.locate g)
        ↔ ∀ q cs cs', Arrival d paths q cs → Arrival d paths q cs' → cs = cs'))
    ∧ ∀ failure, found = .error failure → ∀ q, ¬ IsSchemaFile d paths q := by
  intro found
  obtain ⟨hok, herror⟩ := discover_covers hd hexists hfull
  constructor
  · intro files hfiles
    obtain ⟨hcovers, hordered⟩ := hok files hfiles
    refine ⟨?_, hcovers.forall_file_iff fun _ _ h => h.isSome_node?,
      hcovers.pairwise_locate_iff hordered⟩
    intro q
    rw [isSchemaFile_iff]
    refine and_congr_right fun _ => ?_
    constructor
    · rintro ⟨cs, h⟩
      obtain ⟨f, hf, hq, -⟩ := hcovers.complete q cs h
      exact ⟨f, hf, hq⟩
    · rintro ⟨f, hf, hq⟩
      obtain ⟨q', hq', h⟩ := hcovers.sound f hf
      cases Except.ok.inj (hq.symm.trans hq')
      exact ⟨_, h⟩
  · intro failure hfailure q hfile
    obtain ⟨-, cs, h⟩ := isSchemaFile_iff.mp hfile
    exact herror failure hfailure q cs h

/-- A disk with one schema file, in a directory with this name. -/
def diskWith (dir : String) : Disk where
  nodes := [([dir], .directory), ([dir, "x.dsl"], .file ByteArray.empty)]
  here := []

theorem sound_diskWith {dir : String} (h : IsEntryName dir) : (diskWith dir).Sound := by
  refine ⟨?_, rfl⟩
  have hdir : (diskWith dir).node? [dir] = some .directory := by
    simp [diskWith, Disk.node?]
  refine List.forall_mem_cons.mpr ⟨⟨[], dir, rfl, h, rfl⟩, List.forall_mem_singleton.mpr ?_⟩
  exact ⟨[dir], "x.dsl", rfl, by decide, hdir⟩

/-- A directory with a plain name is searched in full. -/
theorem discover_finds_plain :
    ∃ files, ((discover [⟨"s"⟩] : StateM Disk _).run (diskWith "s")).1 = .ok files
      ∧ ∃ f ∈ files, (diskWith "s").locate f = .ok ["s", "x.dsl"] := by
  have hlocate : (diskWith "s").locate ⟨"s"⟩ = .ok ["s"] := by decide +kernel
  have hfull : (diskWith "s").SearchedInFull ⟨"s"⟩ := by
    refine ⟨by decide, .inr (by decide), ?_⟩
    intro r names hr hentry
    cases Except.ok.inj (hlocate.symm.trans hr)
    obtain ⟨n, hn⟩ := Option.isSome_iff_exists.mp hentry
    have hmem := Disk.mem_of_node? hn (List.cons_ne_nil "s" names)
    have hnames : names = [] ∨ names = ["x.dsl"] := by
      simp [diskWith] at hmem
      tauto
    rcases hnames with rfl | rfl <;> decide +kernel
  have hexists : ∀ p ∈ ([⟨"s"⟩] : List Path), ((diskWith "s").kind? p).isSome := by
    decide +kernel
  obtain ⟨hok, herror⟩ := discover_finds (sound_diskWith (by decide)) hexists
    (by simpa using fun _ => hfull)
  have hfile : IsSchemaFile (diskWith "s") [⟨"s"⟩] ["s", "x.dsl"] :=
    ⟨⟨_, rfl⟩, _, List.mem_singleton_self _, ["s"], hlocate, .inr ⟨[], "x.dsl", rfl, by decide⟩⟩
  cases hfound : ((discover [⟨"s"⟩] : StateM Disk _).run (diskWith "s")).1 with
  | error failure => exact absurd hfile (herror failure hfound _)
  | ok files => exact ⟨files, rfl, (((hok files hfound).1 _).mp hfile).2⟩

/-- The name of the directory reads as a pattern, and what is in it is not found. -/
theorem discover_misses :
    (diskWith "s[a]").Sound ∧ IsSchemaFile (diskWith "s[a]") [⟨"s[a]"⟩] ["s[a]", "x.dsl"]
      ∧ ((discover [⟨"s[a]"⟩] : StateM Disk _).run (diskWith "s[a]")).1
        = .error (.noSchemaFiles ⟨"s[a]"⟩) := by
  refine ⟨sound_diskWith (by decide),
    ⟨⟨_, rfl⟩, _, List.mem_singleton_self _, ["s[a]"], by decide, ?_⟩, by decide +kernel⟩
  exact .inr ⟨[], "x.dsl", rfl, by decide⟩

end Discovery

end EntitySchema
