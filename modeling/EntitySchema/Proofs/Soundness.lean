import EntitySchema.Proofs.Cutting
import EntitySchema.Proofs.Placement
import Mathlib.Data.List.Induction

/-!
# Disks as a file system leaves them

A `Disk` is any list of places and nodes. On the disks that a file system has, every entry stands in
a directory and has a name that a path can ask for, and the working directory is there. A disk is
`Sound` with these, requests keep it so, and on a sound disk everything above an entry is a
directory (`Sound.directory_of_below`).
-/

namespace EntitySchema

/-- A name that an entry of a directory can have. -/
structure IsEntryName (name : String) : Prop extends IsSegment name where
  noDot : name ≠ "."
  noDots : name ≠ ".."
  noNul : '\x00' ∉ name.toList
  fits : Disk.nameFits name = true

instance (name : String) : Decidable (IsEntryName name) :=
  decidable_of_iff (name ≠ "" ∧ '/' ∉ name.toList ∧ name ≠ "." ∧ name ≠ ".."
      ∧ '\x00' ∉ name.toList ∧ Disk.nameFits name = true)
    ⟨fun ⟨hne, hslash, hdot, hdots, hnul, hfits⟩ => ⟨⟨hne, hslash⟩, hdot, hdots, hnul, hfits⟩,
      fun h => ⟨h.ne_empty, h.noSlash, h.noDot, h.noDots, h.noNul, h.fits⟩⟩

/-- A segment of a path is one, and its characters are those of the path. -/
theorem Path.of_mem_segments {path : Path} {name : String} (h : name ∈ path.segments) :
    IsSegment name ∧ name.toList ⊆ path.text.toList := by
  obtain ⟨piece, hpiece, rfl⟩ := List.mem_map.mp h
  obtain ⟨hmem, hne⟩ := List.mem_filter.mp hpiece
  obtain ⟨hslash, hsub⟩ := splitOn_piece hmem
  refine ⟨⟨?_, by simpa using hslash⟩, by simpa using hsub⟩
  intro hnil
  simp [String.ofList_eq_empty_iff.mp hnil] at hne

namespace Disk

/-- The disk could be that of a file system. -/
structure Sound (d : Disk) : Prop where
  /-- Every entry has a name and stands in a directory. -/
  placed : ∀ e ∈ d.nodes, ∃ dir name,
    e.1 = dir ++ [name] ∧ IsEntryName name ∧ d.node? dir = some .directory
  here : d.node? d.here = some .directory

variable {d d' : Disk} {p q : Place} {name : String} {names : List String} {path : Path}

/-! ## Entries -/

theorem mem_of_node? {n : Node} (h : d.node? p = some n) (hp : p ≠ []) : (p, n) ∈ d.nodes := by
  unfold node? at h
  rw [if_neg hp] at h
  obtain ⟨before, after, hnodes, -⟩ := List.lookup_eq_some_iff.mp h
  rw [hnodes]
  exact List.mem_append_right before List.mem_cons_self

theorem isSome_node?_of_mem {e : Place × Node} (h : e ∈ d.nodes) : (d.node? e.1).isSome := by
  unfold node?
  split
  · rfl
  · rw [List.lookup_isSome_iff]
    exact ⟨e, h, by simp⟩

/-- The names in a directory are those of its entries. -/
theorem mem_names_iff : name ∈ d.names p ↔ (d.node? (p ++ [name])).isSome := by
  unfold names
  rw [List.mem_filterMap]
  constructor
  · rintro ⟨⟨q, n⟩, hmem, hname⟩
    by_cases hdir : q.dropLast = p
    · obtain ⟨dir, rfl⟩ := List.getLast?_eq_some_iff.mp ((if_pos hdir).symm.trans hname)
      rw [List.dropLast_concat] at hdir
      rw [← hdir]
      exact isSome_node?_of_mem hmem
    · exact nomatch (if_neg hdir).symm.trans hname
  · intro h
    obtain ⟨n, hn⟩ := Option.isSome_iff_exists.mp h
    exact ⟨(p ++ [name], n), mem_of_node? hn (List.concat_ne_nil name p), by simp⟩

/-- The name of the entry that a path names can be that of an entry. -/
theorem NamesEntry.isEntryName (h : NamesEntry d path p name) : IsEntryName name := by
  obtain ⟨start, hstart, -⟩ := h.reached
  obtain ⟨hsegment, hchars⟩ := Path.of_mem_segments (List.mem_of_getLast? h.last)
  refine { hsegment with noDot := h.noDot, noDots := h.noDots, noNul := ?_, fits := h.fits }
  intro hnul
  exact (entrance_eq_ok_iff.mp hstart).1 (hchars hnul)

namespace Sound

/-- An entry has a name and stands in a directory. -/
theorem of_entry (hd : d.Sound) (h : (d.node? (p ++ [name])).isSome) :
    IsEntryName name ∧ d.node? p = some .directory := by
  obtain ⟨n, hn⟩ := Option.isSome_iff_exists.mp h
  obtain ⟨dir, last, heq, hname, hdir⟩ :=
    hd.placed _ (mem_of_node? hn (List.concat_ne_nil name p))
  obtain ⟨rfl, hlast⟩ := List.append_inj' heq rfl
  cases List.singleton_inj.mp hlast
  exact ⟨hname, hdir⟩

/-- The name of an entry leads to it. -/
theorem stepInto_entry (hd : d.Sound) (h : (d.node? (p ++ [name])).isSome) :
    d.stepInto p name = .ok (p ++ [name]) := by
  obtain ⟨hname, hdir⟩ := hd.of_entry h
  exact stepInto_eq_ok_iff.mpr
    ⟨(step_name_eq_ok_iff hname.noDot hname.noDots).mpr ⟨hdir, hname.fits, rfl⟩, h⟩

/-- Everything above an entry is a directory. -/
theorem directory_of_below (hd : d.Sound) (h : (d.node? (p ++ names)).isSome) (hne : names ≠ []) :
    d.node? p = some .directory := by
  induction names using List.reverseRecOn with
  | nil => exact absurd rfl hne
  | append_singleton names name ih =>
    rw [← List.append_assoc] at h
    obtain ⟨-, hdir⟩ := hd.of_entry h
    by_cases hnil : names = []
    · rw [hnil, List.append_nil] at hdir
      exact hdir
    · exact ih (by rw [hdir]; rfl) hnil

theorem isSome_of_below (hd : d.Sound) (h : (d.node? (p ++ names)).isSome) :
    (d.node? p).isSome := by
  by_cases hnil : names = []
  · rw [hnil, List.append_nil] at h
    exact h
  · rw [hd.directory_of_below h hnil]
    rfl

/-- All names on the way to an entry are names of entries. -/
theorem isEntryName_of_below (hd : d.Sound) (h : (d.node? (p ++ names)).isSome) :
    ∀ name ∈ names, IsEntryName name := by
  intro name hname
  obtain ⟨before, after, rfl⟩ := List.mem_iff_append.mp hname
  have hbelow : (d.node? (p ++ before ++ [name] ++ after)).isSome := by simpa using h
  exact (hd.of_entry (hd.isSome_of_below hbelow)).1

/-! ## Requests -/

theorem mem_assign {n : Node} {nodes : List (Place × Node)} {e : Place × Node}
    (h : e ∈ assign p n nodes) : e.1 = p ∨ e ∈ nodes := by
  induction nodes with
  | nil => exact .inl (congrArg Prod.fst (List.mem_singleton.mp h))
  | cons entry rest ih =>
    obtain ⟨q, k⟩ := entry
    unfold assign at h
    split at h
    · next hq =>
      obtain rfl | h := List.mem_cons.mp h
      · exact .inl hq
      · exact .inr (List.mem_cons_of_mem _ h)
    · obtain rfl | h := List.mem_cons.mp h
      · exact .inr List.mem_cons_self
      · exact (ih h).imp_right (List.mem_cons_of_mem _)

/-- An entry can be put into a directory in place of anything but a directory. -/
theorem set (hd : d.Sound) (hname : IsEntryName name) (hdir : d.node? p = some .directory)
    (hfree : d.node? (p ++ [name]) ≠ some .directory) (n : Node) :
    (d.set (p ++ [name]) n).Sound := by
  have hkept := dirsKept_set hfree n
  refine ⟨?_, hkept.directory _ hd.here⟩
  intro e he
  obtain heq | he := mem_assign he
  · exact ⟨p, name, heq, hname, hkept.directory p hdir⟩
  · obtain ⟨dir, last, heq, hlast, hdir⟩ := hd.placed e he
    exact ⟨dir, last, heq, hlast, hkept.directory dir hdir⟩

theorem makeDir (hd : d.Sound) (h : d.makeDir path = .ok d') : d'.Sound := by
  obtain ⟨dir, name, hentry, hnone, rfl⟩ := makeDir_eq_ok_iff.mp h
  refine hd.set hentry.isEntryName hentry.directory ?_ .directory
  rw [hnone]
  exact nofun

theorem write {content : ByteArray} (hd : d.Sound) (h : d.write path content = .ok d') :
    d'.Sound := by
  obtain ⟨q, hq, rfl⟩ := write_eq_ok_iff.mp h
  obtain ⟨dir, name, hentry, -, hfree, rfl⟩ := fileAt?_eq_some_iff.mp hq
  exact hd.set hentry.isEntryName hentry.directory hfree (.file content)

end Sound

end Disk

end EntitySchema
