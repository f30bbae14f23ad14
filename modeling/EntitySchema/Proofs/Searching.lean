import EntitySchema.Proofs.Looking
import EntitySchema.Proofs.Patterns
import Mathlib.Data.List.Forall2

/-!
# What a search for schema files finds

From a directory a search goes down to every entry, and it finds those whose names end in `.dsl`
(`Glob.finds_below`). Each directory makes the path longer, so the fuel lasts as long as all paths
below the directory are short enough to be asked for.
-/

namespace EntitySchema

namespace Glob

variable {d : Disk} {P Q : Path → Prop} {dir path : Path} {x r : Place} {name : String}

/-! ## Searches that succeed -/

/-- On this disk the search succeeds, and it finds these paths and no others. -/
def Finds (d : Disk) (P : Path → Prop) (search : StateM Disk (Except SearchFault (List Path))) :
    Prop :=
  ∃ paths, search.run d = (.ok paths, d) ∧ ∀ p, p ∈ paths ↔ P p

namespace Finds

variable {search : StateM Disk (Except SearchFault (List Path))}

theorem of_iff (h : Finds d P search) (hPQ : ∀ p, P p ↔ Q p) : Finds d Q search := by
  obtain ⟨paths, hrun, hpaths⟩ := h
  exact ⟨paths, hrun, fun p => (hpaths p).trans (hPQ p)⟩

theorem none (d : Disk) : Finds d (fun _ => False) (pure (.ok [])) := ⟨[], rfl, by simp⟩

theorem one (d : Disk) (path : Path) : Finds d (· = path) (pure (.ok [path])) :=
  ⟨[path], rfl, by simp⟩

/-- Searches one after another find what one of them finds. -/
theorem concat {Ps : List (Path → Prop)}
    {searches : List (StateM Disk (Except SearchFault (List Path)))}
    (h : List.Forall₂ (Finds d) Ps searches) :
    Finds d (fun p => ∃ P ∈ Ps, P p) (concat searches) := by
  induction h with
  | nil => exact ⟨[], rfl, by simp⟩
  | @cons P search Ps searches hfirst _ ih =>
    obtain ⟨paths, hrun, hpaths⟩ := hfirst
    obtain ⟨more, hmore, hrest⟩ := ih
    refine ⟨paths ++ more, ?_, ?_⟩
    · unfold Glob.concat
      rw [StateT.run_bind, hrun]
      show ((Glob.concat searches >>= _ : StateM Disk _).run d : Id _) = _
      rw [StateT.run_bind, hmore]
      rfl
    · intro p
      rw [List.mem_append, hpaths, hrest]
      simp

theorem concat_map {α : Type} {l : List α} {P : α → Path → Prop}
    {f : α → StateM Disk (Except SearchFault (List Path))} (h : ∀ a ∈ l, Finds d (P a) (f a)) :
    Finds d (fun p => ∃ a ∈ l, P a p) (Glob.concat (l.map f)) := by
  have hall : List.Forall₂ (Finds d) (l.map P) (l.map f) :=
    List.forall₂_map_left_iff.mpr (List.forall₂_map_right_iff.mpr (List.forall₂_same.mpr h))
  exact (Finds.concat hall).of_iff fun p => by simp

/-- What is looked at first does not count. -/
theorem after {α : Type} {look : StateM Disk α} {found : α}
    {f : α → StateM Disk (Except SearchFault (List Path))} (hlook : look.run d = (found, d))
    (h : Finds d P (f found)) : Finds d P (look >>= f) := by
  obtain ⟨paths, hrun, hpaths⟩ := h
  refine ⟨paths, ?_, hpaths⟩
  rw [StateT.run_bind, hlook]
  exact hrun

end Finds

/-! ## One entry -/

/-- The name ends in `.dsl`. -/
def IsSchemaName (name : String) : Prop := ".dsl".toList <:+ name.toList

instance (name : String) : Decidable (IsSchemaName name) :=
  inferInstanceAs (Decidable (".dsl".toList <:+ name.toList))

/-- An entry is found if its name is that of a schema file, and if it is a directory, then what is
found in it is found as well. -/
theorem finds_searchEntry
    {searchIn : List Pattern → Path → StateM Disk (Except SearchFault (List Path))}
    (h : d.kind? path = some .directory → Finds d P (searchIn [anyDepth, schemaNames] path)) :
    Finds d (fun p => IsSchemaName name ∧ p = path ∨ d.kind? path = some .directory ∧ P p)
      (searchEntry searchIn [anyDepth, schemaNames] name path) := by
  have hitself : Finds d (fun p => IsSchemaName name ∧ p = path)
      (if schemaNames.accepts name.toList then goOn searchIn [] path else pure (.ok [])) := by
    split
    · next haccepts =>
      have hname : IsSchemaName name := (accepts_schemaNames _).mp haccepts
      exact (Finds.one d path).of_iff fun p => by simp [hname]
    · next haccepts =>
      have hname : ¬ IsSchemaName name := fun h => haccepts ((accepts_schemaNames _).mpr h)
      exact (Finds.none d).of_iff fun p => by simp [hname]
  refine Finds.after (Disk.run_isDir d path) ?_
  by_cases hdir : d.kind? path = some .directory
  · rw [if_pos (by simpa using hdir)]
    refine (Finds.concat (.cons hitself (.cons (h hdir) .nil))).of_iff fun p => ?_
    simp [hdir]
  · rw [if_neg (by simpa using hdir)]
    exact hitself.of_iff fun p => by simp [hdir]

/-! ## Below a directory -/

theorem list_of_locate (h : d.locate dir = .ok x) (hx : d.node? x = some .directory) :
    d.list dir = .ok (d.names x) := by
  unfold Disk.list
  exact Disk.bind_eq_ok_iff.mpr ⟨x, h, if_pos hx⟩

/-- The path of an entry below a directory, which leads to the entry. -/
theorem locate_entry (hd : d.Sound) (h : d.locate dir = .ok x)
    (hentry : (d.node? (x ++ [name])).isSome)
    (hsize : (entryPath dir name).text.utf8ByteSize ≤ Path.maxSize) :
    d.locate (entryPath dir name) = .ok (x ++ [name]) := by
  obtain ⟨hname, hx⟩ := hd.of_entry hentry
  refine locate_entryPath h hx hname.noSlash hname.noNul (fun _ => hname.ne_empty) hsize ?_
  rw [Path.namesIn_segment hname.toIsSegment]
  exact Disk.walk_cons_eq_ok_iff.mpr ⟨_, hd.stepInto_entry hentry, rfl⟩

/-- The path is that of an entry at some depth below the directory, and its name is that of a schema
file. -/
def SchemaBelow (d : Disk) (x : Place) (dir path : Path) : Prop :=
  ∃ above name, (d.node? (x ++ above ++ [name])).isSome ∧ IsSchemaName name
    ∧ path = entryPath (above.foldl entryPath dir) name

/-- What is below a directory is an entry of it, or below one of them. -/
theorem schemaBelow_iff (hd : d.Sound) :
    SchemaBelow d x dir path ↔ ∃ name, (d.node? (x ++ [name])).isSome
      ∧ (IsSchemaName name ∧ path = entryPath dir name
        ∨ d.node? (x ++ [name]) = some .directory
          ∧ SchemaBelow d (x ++ [name]) (entryPath dir name) path) := by
  constructor
  · rintro ⟨above, name, hentry, hname, hpath⟩
    cases above with
    | nil => exact ⟨name, by simpa using hentry, .inl ⟨hname, hpath⟩⟩
    | cons first above =>
      have hbelow : (d.node? (x ++ [first] ++ (above ++ [name]))).isSome := by simpa using hentry
      have hdir := hd.directory_of_below hbelow (List.concat_ne_nil name above)
      refine ⟨first, by rw [hdir]; rfl, .inr ⟨hdir, above, name, ?_, hname, hpath⟩⟩
      rw [List.append_assoc]
      exact hbelow
  · rintro ⟨first, hentry, ⟨hname, hpath⟩ | ⟨-, above, name, hbelow, hname, hpath⟩⟩
    · exact ⟨[], first, by simpa using hentry, hname, hpath⟩
    · exact ⟨first :: above, name, by simpa using hbelow, hname, hpath⟩

/-- All paths that a search has to go through below the directory can be asked for. -/
def Roomy (d : Disk) (x : Place) (dir : Path) : Prop :=
  ∀ names, names ≠ [] → (d.node? (x ++ names)).isSome →
    (names.foldl entryPath dir).text.utf8ByteSize ≤ Path.maxSize

theorem Roomy.entry (h : Roomy d x dir) (name : String) :
    Roomy d (x ++ [name]) (entryPath dir name) := by
  intro names _ hentry
  exact h (name :: names) (List.cons_ne_nil name names) (by simpa using hentry)

/-- **The search below a directory finds all entries with the name of a schema file,** as long as
its fuel lasts for all paths there. -/
theorem finds_below (hd : d.Sound) (fuel : Nat) (h : d.locate dir = .ok x)
    (hx : d.node? x = some .directory) (hroom : Roomy d x dir)
    (hfuel : Path.maxSize < fuel + Text.byteSize (front dir)) :
    Finds d (SchemaBelow d x dir) (searchIn fuel [anyDepth, schemaNames] dir) := by
  induction fuel generalizing dir x with
  | zero =>
    -- the path is as long as a path can be, so nothing is below it
    refine (Finds.none d).of_iff fun p => ⟨nofun, ?_⟩
    intro hbelow
    obtain ⟨name, hentry, -⟩ := (schemaBelow_iff hd).mp hbelow
    have hsize := hroom [name] (List.cons_ne_nil name []) hentry
    rw [List.foldl_cons, List.foldl_nil,
      byteSize_entryPath (hd.of_entry hentry).1.noSlash] at hsize
    omega
  | succ fuel ih =>
    have hlocates (name : String) (hname : (d.node? (x ++ [name])).isSome) :
        d.locate (entryPath dir name) = .ok (x ++ [name]) :=
      locate_entry hd h hname (hroom [name] (List.cons_ne_nil name []) hname)
    have hentries (name : String) (hname : (d.node? (x ++ [name])).isSome) :
        Finds d (fun p => IsSchemaName name ∧ p = entryPath dir name
            ∨ d.kind? (entryPath dir name) = some .directory
              ∧ SchemaBelow d (x ++ [name]) (entryPath dir name) p)
          (searchEntry (searchIn fuel) [anyDepth, schemaNames] name (entryPath dir name)) := by
      have hentry := (hd.of_entry hname).1
      have hlocate := hlocates name hname
      refine finds_searchEntry fun hdir => ?_
      refine ih hlocate ((Disk.kind?_eq_directory_iff hlocate).mp hdir) (hroom.entry name) ?_
      rw [byteSize_front_entryPath (text_ne_of_locate h) hentry.toIsSegment hentry.noDot]
      omega
    have hlist : (FileStore.list dir : StateM Disk _).run d = (.ok (d.names x), d) :=
      Prod.ext (list_of_locate h hx) rfl
    unfold searchIn
    refine Finds.after (Disk.run_isDir d dir) ?_
    rw [if_pos (by simpa using (Disk.kind?_eq_directory_iff h).mpr hx)]
    refine Finds.after hlist ?_
    refine (Finds.concat_map (l := (d.names x).mergeSort (· ≤ ·)) fun name hname => hentries name
      (Disk.mem_names_iff.mp (List.mem_mergeSort.mp hname))).of_iff fun p => ?_
    rw [schemaBelow_iff hd]
    refine exists_congr fun name => ?_
    rw [List.mem_mergeSort, Disk.mem_names_iff]
    exact and_congr_right fun hname => by rw [Disk.kind?_eq_directory_iff (hlocates name hname)]

end Glob

end EntitySchema
