import EntitySchema.Glob.Search
import EntitySchema.Proofs.PathText

/-!
# The paths of entries

A search puts the name of an entry behind the path of its directory, and it leaves out the working
directory. Everything about the path that comes out of it follows from its text, which is the text
in front (`Glob.front`) and the name: what it passes through (`Glob.course_entryPath`), how long it
is, and where it leads (`Glob.locate_entryPath`).
-/

namespace EntitySchema

namespace Disk

variable {d : Disk} {path path' : Path} {p q x y : Place} {names : List String}

/-! ## Where paths lead -/

/-- Paths with the same components lead to the same place. -/
theorem locate_eq_of_components (h : d.locate path = .ok x) (h' : d.locate path' = .ok y)
    (heq : path.components = path'.components) : x = y := by
  obtain ⟨⟨start, hstart, hwalk⟩, -⟩ := locate_eq_ok_iff.mp h
  obtain ⟨⟨start', hstart', hwalk'⟩, -⟩ := locate_eq_ok_iff.mp h'
  obtain ⟨-, -, -, hstart⟩ := entrance_eq_ok_iff.mp hstart
  obtain ⟨-, -, -, hstart'⟩ := entrance_eq_ok_iff.mp hstart'
  have hcourse : path.course = path'.course := by
    unfold Path.course
    rw [heq]
  obtain ⟨habs, hsegments⟩ := Path.of_course_eq hcourse
  have hwalk := walk_filter_dots hwalk
  have hwalk' := walk_filter_dots hwalk'
  rw [hsegments, ← hstart, habs, hstart'] at hwalk
  exact Except.ok.inj (hwalk.symm.trans hwalk')

end Disk

namespace Glob

variable {dir : Path} {name : String}

/-! ## The path of an entry -/

/-- What a search puts in front of the names in a directory. -/
def front (dir : Path) : List Char := if dir = here then [] else dir.front

theorem toList_entryPath (h : '/' ∉ name.toList) (dir : Path) :
    (entryPath dir name).text.toList = front dir ++ name.toList := by
  unfold entryPath front
  split
  · rfl
  · exact Path.toList_join (Path.isAbsolute_of_noSlash h) dir

/-- Only the working directory has nothing in front of its names. -/
theorem front_cases (hne : dir.text ≠ "") :
    dir = here ∧ front dir = [] ∨ dir ≠ here ∧ front dir = dir.front
      ∧ ∃ cs, dir.front = cs ++ ['/'] := by
  unfold front
  by_cases h : dir = here
  · exact .inl ⟨h, if_pos h⟩
  · exact .inr ⟨h, if_neg h, Path.front_eq_concat hne⟩

theorem mem_front {c : Char} (h : c ∈ front dir) (hc : c ≠ '/') : c ∈ dir.text.toList := by
  unfold front at h
  split at h
  · exact nomatch h
  · exact Path.mem_of_mem_front h hc

theorem segments_entryPath (hne : dir.text ≠ "") (h : '/' ∉ name.toList) :
    (entryPath dir name).segments
      = (if dir = here then [] else dir.segments) ++ Path.namesIn name.toList := by
  rw [Path.segments_eq, toList_entryPath h]
  rcases front_cases hne with ⟨hhere, hfront⟩ | ⟨hhere, hfront, cs, hcs⟩
  · rw [hfront, if_pos hhere, List.nil_append, List.nil_append]
  · rw [hfront, if_neg hhere, ← Path.namesIn_front, hcs, Path.namesIn_concat_slash,
      List.append_assoc, List.singleton_append, Path.namesIn_append_slash]

theorem isAbsolute_entryPath (hne : dir.text ≠ "") (h : '/' ∉ name.toList) :
    (entryPath dir name).isAbsolute = dir.isAbsolute := by
  rcases front_cases hne with ⟨hhere, -⟩ | ⟨-, hfront, cs, hcs⟩
  · rw [hhere]
    exact Path.isAbsolute_of_noSlash h
  · unfold Path.isAbsolute
    have hsome : (front dir).head?.isSome := by rw [hfront, hcs]; simp
    rw [toList_entryPath h, List.head?_append, Option.or_of_isSome hsome, hfront,
      Path.head?_front hne]

theorem text_entryPath_ne (hne : dir.text ≠ "") (h : '/' ∉ name.toList)
    (hname : dir = here → name ≠ "") : (entryPath dir name).text ≠ "" := by
  intro hnil
  have hchars := toList_entryPath h dir
  rw [hnil] at hchars
  rcases front_cases hne with ⟨hhere, hfront⟩ | ⟨-, hfront, cs, hcs⟩
  · rw [hfront] at hchars
    exact hname hhere (String.toList_eq_nil_iff.mp hchars.symm)
  · rw [hfront, hcs] at hchars
    simp at hchars

/-- A search stays in the working directory by dots only, and never comes back to it. -/
theorem of_entryPath_eq_here (hne : dir.text ≠ "") (h : '/' ∉ name.toList)
    (heq : entryPath dir name = here) : dir = here ∧ name = "." := by
  have hchars := toList_entryPath h dir
  rw [heq] at hchars
  rcases front_cases hne with ⟨hhere, hfront⟩ | ⟨-, hfront, cs, hcs⟩
  · rw [hfront, List.nil_append] at hchars
    exact ⟨hhere, String.toList_inj.mp hchars.symm⟩
  · have hmem : '/' ∈ here.text.toList := by rw [hchars, hfront, hcs]; simp
    exact absurd hmem (by decide)

/-! ## The size of the path of an entry -/

theorem byteSize_entryPath (h : '/' ∉ name.toList) (dir : Path) :
    (entryPath dir name).text.utf8ByteSize = Text.byteSize (front dir) + name.utf8ByteSize := by
  rw [← Text.byteSize_toList, toList_entryPath h, Text.byteSize_append, Text.byteSize_toList]

theorem byteSize_front_entryPath_le (h : '/' ∉ name.toList) (dir : Path) :
    Text.byteSize (front (entryPath dir name))
      ≤ Text.byteSize (front dir) + name.utf8ByteSize + 1 := by
  have hsize := byteSize_entryPath h dir
  have hfront := (entryPath dir name).byteSize_front_le
  unfold front
  split
  · exact Nat.zero_le _
  · unfold front at hsize
    omega

theorem byteSize_front_entryPath (hne : dir.text ≠ "") (h : IsSegment name) (hdot : name ≠ ".") :
    Text.byteSize (front (entryPath dir name))
      = Text.byteSize (front dir) + name.utf8ByteSize + 1 := by
  have hfront : front (entryPath dir name) = front dir ++ name.toList ++ ['/'] := by
    have hhere : entryPath dir name ≠ here := fun heq =>
      hdot (of_entryPath_eq_here hne h.noSlash heq).2
    rw [front, if_neg hhere]
    exact Path.front_of_text h (toList_entryPath h.noSlash dir)
  rw [hfront, Text.byteSize_append, Text.byteSize_append, Text.byteSize_toList]
  rfl

/-! ## What the path of an entry passes through -/

theorem course_entryPath (hne : dir.text ≠ "") (h : '/' ∉ name.toList) :
    (entryPath dir name).course
      = dir.course
        ++ ((Path.namesIn name.toList).filter (· != ".")).map Path.Component.ofSegment := by
  rw [Path.course_eq, Path.course_eq, isAbsolute_entryPath hne h, segments_entryPath hne h,
    List.filter_append, List.map_append, List.append_assoc]
  congr 2
  split
  · next hhere =>
    rw [hhere]
    decide
  · rfl

theorem course_entry (hne : dir.text ≠ "") (h : IsEntryName name) :
    (entryPath dir name).course = dir.course ++ [.name name] := by
  rw [course_entryPath hne h.noSlash, Path.namesIn_segment h.toIsSegment,
    List.filter_cons_of_pos (by simpa using h.noDot)]
  simp [Path.Component.ofSegment, h.noDots]

/-- A path that a search comes to: the working directory, or one that does not start with a dot. -/
def Undotted (p : Path) : Prop :=
  p = here ∨ p.isAbsolute = true ∨ ∃ s, p.segments.head? = some s ∧ s ≠ "."

theorem Undotted.components_eq {p : Path} (h : Undotted p) (hhere : p ≠ here) :
    p.components = p.course := by
  refine Path.components_eq_course ?_
  rcases h with rfl | habs | ⟨s, hs, hne⟩
  · exact absurd rfl hhere
  · exact .inl habs
  · refine .inr ?_
    rw [hs]
    simpa using hne

theorem Undotted.entryPath (hdir : Undotted dir) (hne : dir.text ≠ "") (h : '/' ∉ name.toList)
    (hname : dir = here → name ≠ "") : Undotted (entryPath dir name) := by
  by_cases hhere : dir = here
  · rw [hhere]
    by_cases hdot : name = "."
    · rw [hdot]
      exact .inl rfl
    · refine .inr (.inr ⟨name, ?_, hdot⟩)
      rw [segments_entryPath (by decide) h, if_pos rfl,
        Path.namesIn_segment ⟨hname hhere, h⟩]
      rfl
  · rcases hdir with heq | habs | ⟨s, hs, hdot⟩
    · exact absurd heq hhere
    · exact .inr (.inl ((isAbsolute_entryPath hne h).trans habs))
    · refine .inr (.inr ⟨s, ?_, hdot⟩)
      rw [segments_entryPath hne h, if_neg hhere, List.head?_append, hs]
      rfl

/-! ## Where the path of an entry leads -/

variable {d : Disk} {x y : Place}

theorem text_ne_of_locate {path : Path} (h : d.locate path = .ok x) : path.text ≠ "" := by
  obtain ⟨⟨start, hstart, -⟩, -⟩ := Disk.locate_eq_ok_iff.mp h
  exact (Disk.entrance_eq_ok_iff.mp hstart).2.1

/-- **The path of an entry leads there** from where the path of the directory leads, unless it gets
too long. The name may be empty, except in the working directory. -/
theorem locate_entryPath (h : d.locate dir = .ok x) (hx : d.node? x = some .directory)
    (hslash : '/' ∉ name.toList) (hnul : '\x00' ∉ name.toList) (hname : dir = here → name ≠ "")
    (hsize : (entryPath dir name).text.utf8ByteSize ≤ Path.maxSize)
    (hwalk : d.walk x (Path.namesIn name.toList) = .ok y) :
    d.locate (entryPath dir name) = .ok y := by
  have hne := text_ne_of_locate h
  obtain ⟨⟨start, hstart, hto⟩, -⟩ := Disk.locate_eq_ok_iff.mp h
  obtain ⟨hdirNul, -, -, hbase⟩ := Disk.entrance_eq_ok_iff.mp hstart
  refine Disk.locate_eq_ok_iff.mpr ⟨⟨start, ?_, ?_⟩, ?_⟩
  · refine Disk.entrance_eq_ok_iff.mpr ⟨?_, text_entryPath_ne hne hslash hname, hsize, ?_⟩
    · rw [toList_entryPath hslash, List.mem_append]
      rintro (hmem | hmem)
      · exact hdirNul (mem_front hmem (by decide))
      · exact hnul hmem
    · rw [isAbsolute_entryPath hne hslash]
      exact hbase
  · rw [segments_entryPath hne hslash]
    split
    · next hhere =>
      -- the working directory is where its own path leads
      rw [hhere] at hto hbase
      have hstay : x = start := by
        have hfiltered := Disk.walk_filter_dots hto
        exact (Except.ok.inj hfiltered).symm
      rw [List.nil_append, ← hstay]
      exact hwalk
    · exact Disk.walk_append_eq_ok_iff.mpr ⟨x, hto, hwalk⟩
  · intro hends
    by_cases hempty : name = ""
    · rw [hempty] at hwalk
      cases hwalk
      exact hx
    · have hne' : name.toList ≠ [] := fun hnil => hempty (String.toList_eq_nil_iff.mp hnil)
      have hlast : name.toList.getLast? = some '/' := by
        unfold Path.endsInSlash at hends
        rw [toList_entryPath hslash, List.getLast?_append,
          Option.or_of_isSome (List.getLast?_isSome.mpr hne')] at hends
        simpa using hends
      exact absurd (List.mem_of_getLast? hlast) hslash

end Glob

end EntitySchema
