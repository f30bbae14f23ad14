import EntitySchema.Proofs.Soundness

/-!
# How the text of a path is put together

The text of a path is that of names with a slash behind each (`Path.exists_names`), after the slash
of the root if the path is absolute. The empty names between slashes are no segments of the path,
and its dots do not show in what it passes through (`Path.course_eq`).
-/

namespace EntitySchema

theorem Text.byteSize_toList (s : String) : Text.byteSize s.toList = s.utf8ByteSize := by
  rw [← String.ofList_toList (s := s)]
  induction s.toList with
  | nil => rfl
  | cons c cs ih => simp_all [String.ofList_cons]

namespace Path

variable {p q : Path} {name : String}

/-! ## The names in a text -/

/-- The names between the slashes of a text. -/
def namesIn (cs : List Char) : List String :=
  ((cs.splitOn '/').filter (!·.isEmpty)).map String.ofList

theorem segments_eq (p : Path) : p.segments = namesIn p.text.toList := rfl

theorem namesIn_append_slash (as bs : List Char) :
    namesIn (as ++ '/' :: bs) = namesIn as ++ namesIn bs := by
  unfold namesIn
  rw [List.splitOn_append_cons_self, List.filter_append, List.map_append]

theorem namesIn_concat_slash (as : List Char) : namesIn (as ++ ['/']) = namesIn as := by
  rw [namesIn_append_slash, show namesIn [] = [] from rfl, List.append_nil]

theorem namesIn_piece {cs : List Char} (h : '/' ∉ cs) :
    namesIn cs = if cs = [] then [] else [String.ofList cs] := by
  unfold namesIn
  rw [List.splitOn_eq_singleton h]
  split <;> simp_all

/-- A segment is the one name in its text. -/
theorem namesIn_segment (h : IsSegment name) : namesIn name.toList = [name] := by
  rw [namesIn_piece h.noSlash, if_neg h.toList_ne_nil, String.ofList_toList]

/-! ## The text in front of a name -/

/-- The text of a path with a slash at its end. -/
def front (p : Path) : List Char :=
  if p.text.isEmpty || p.endsInSlash then p.text.toList else p.text.toList ++ ['/']

theorem toList_join (h : (Path.mk name).isAbsolute = false) (p : Path) :
    (p.join name).text.toList = p.front ++ name.toList := by
  unfold join front
  rw [h, if_neg Bool.false_ne_true]
  split <;> simp

theorem front_eq_concat (h : p.text ≠ "") : ∃ cs, p.front = cs ++ ['/'] := by
  unfold front
  split
  · next hslash =>
    have hlast : p.text.toList.getLast? = some '/' := by simpa [endsInSlash, h] using hslash
    exact List.getLast?_eq_some_iff.mp hlast
  · exact ⟨_, rfl⟩

theorem namesIn_front (p : Path) : namesIn p.front = p.segments := by
  unfold front
  split
  · rfl
  · exact namesIn_concat_slash _

/-- What is in front of a name comes from the path, but for a slash. -/
theorem mem_of_mem_front {c : Char} (h : c ∈ p.front) (hc : c ≠ '/') : c ∈ p.text.toList := by
  unfold front at h
  split at h
  · exact h
  · rcases List.mem_append.mp h with h | h
    · exact h
    · exact absurd (List.mem_singleton.mp h) hc

theorem head?_front (h : p.text ≠ "") : p.front.head? = p.text.toList.head? := by
  have hne : p.text.toList ≠ [] := fun hnil => h (String.toList_eq_nil_iff.mp hnil)
  unfold front
  split
  · rfl
  · rw [List.head?_append, Option.or_of_isSome (List.isSome_head?.mpr hne)]

theorem byteSize_front_le (p : Path) : Text.byteSize p.front ≤ p.text.utf8ByteSize + 1 := by
  rw [← Text.byteSize_toList]
  unfold front
  split
  · exact Nat.le_add_right _ 1
  · rw [Text.byteSize_append]
    exact Nat.le_refl _

/-- A path that ends in a name has a slash put behind it. -/
theorem front_of_text {as : List Char} (h : IsSegment name)
    (htext : p.text.toList = as ++ name.toList) : p.front = as ++ name.toList ++ ['/'] := by
  have hne := h.toList_ne_nil
  have hempty : p.text.isEmpty = false := by
    have hchars : p.text.toList ≠ [] := by simp [htext, hne]
    simpa using hchars
  have hslash : p.endsInSlash = false := by
    have hlast : name.toList.getLast? ≠ some '/' := fun hlast =>
      h.noSlash (List.mem_of_getLast? hlast)
    unfold endsInSlash
    rw [htext, List.getLast?_append, Option.or_of_isSome (List.getLast?_isSome.mpr hne)]
    simpa using hlast
  unfold front
  rw [hempty, hslash, if_neg (by decide), htext]

/-- The slash at the root is in front of all names. -/
theorem namesIn_root_append (p : Path) (cs : List Char) :
    namesIn ((if p.isAbsolute then ['/'] else []) ++ cs) = namesIn cs := by
  split
  · exact namesIn_append_slash [] cs
  · rfl

/-- Names with a slash behind each. -/
def slashed (names : List String) : List Char := closed '/' (names.map String.toList)

@[simp] theorem slashed_cons (name : String) (names : List String) :
    slashed (name :: names) = name.toList ++ '/' :: slashed names := by
  simp [slashed]

theorem mem_slashed {names : List String} {c : Char} (hname : name ∈ names)
    (hc : c ∈ name.toList) : c ∈ slashed names :=
  List.mem_flatMap.mpr ⟨_, List.mem_map_of_mem hname, List.mem_append_left _ hc⟩

theorem exists_slashed {pieces : List (List Char)} (h : ∀ s ∈ pieces, '/' ∉ s) :
    ∃ names : List String, (∀ n ∈ names, '/' ∉ n.toList) ∧ closed '/' pieces = slashed names :=
  ⟨pieces.map String.ofList, by simpa using h, by simp [slashed, Function.comp_def]⟩

/-- A path is put together from names, the empty ones between slashes included. -/
theorem exists_names (h : p.text ≠ "") :
    ∃ names : List String, (∀ n ∈ names, '/' ∉ n.toList)
      ∧ p.front = (if p.isAbsolute then ['/'] else []) ++ slashed names := by
  obtain ⟨cs, hfront⟩ := front_eq_concat h
  obtain ⟨pieces, hpieces, hclosed⟩ := exists_closed '/' cs
  have hhead := head?_front h
  rw [hfront, hclosed] at hhead
  rw [hfront, hclosed]
  by_cases habs : p.isAbsolute = true
  · -- what stands before the first slash is nothing
    have hroot : p.text.toList.head? = some '/' := by simpa [isAbsolute] using habs
    rw [hroot] at hhead
    rw [if_pos habs]
    cases pieces with
    | nil => cases hhead
    | cons s pieces =>
      obtain ⟨hs, hrest⟩ := List.forall_mem_cons.mp hpieces
      cases s with
      | nil =>
        obtain ⟨names, hnames, hslashed⟩ := exists_slashed hrest
        exact ⟨names, hnames, by rw [closed_cons, hslashed]; rfl⟩
      | cons c s =>
        have hc : c = '/' := by simpa using hhead
        exact absurd (hc ▸ List.mem_cons_self) hs
  · obtain ⟨names, hnames, hslashed⟩ := exists_slashed hpieces
    exact ⟨names, hnames, by rw [if_neg habs, List.nil_append, hslashed]⟩

/-! ## What a path passes through -/

/-- What the path passes through, without a dot at its start. -/
def course (p : Path) : List Component := p.components.filter (· ≠ .here)

/-- What the names of a path stand for are entries and steps up. -/
theorem mem_follow {c : Component} {segments : List String}
    (h : c ∈ (segments.filter (· != ".")).map Component.ofSegment) : c ≠ .root ∧ c ≠ .here := by
  obtain ⟨s, -, rfl⟩ := List.mem_map.mp h
  unfold Component.ofSegment
  split <;> exact ⟨nofun, nofun⟩

theorem filter_follow (segments : List String) :
    ((segments.filter (· != ".")).map Component.ofSegment).filter (· ≠ .here)
      = (segments.filter (· != ".")).map Component.ofSegment :=
  List.filter_eq_self.mpr fun _ hc => by simpa using (mem_follow hc).2

/-- The dots of a path do not show in its course, wherever they stand. -/
theorem course_eq (p : Path) :
    p.course = (if p.isAbsolute then [.root] else [])
      ++ (p.segments.filter (· != ".")).map Component.ofSegment := by
  unfold course components
  split
  · rw [List.filter_cons_of_pos (by decide), filter_follow]
    rfl
  · split
    · next rest hrest =>
      rw [List.filter_cons_of_neg (by decide), filter_follow, hrest,
        List.filter_cons_of_neg (by decide)]
      rfl
    · exact filter_follow _

/-- A path that does not start with a dot passes through its course. -/
theorem components_eq_course (h : p.isAbsolute = true ∨ p.segments.head? ≠ some ".") :
    p.components = p.course := by
  rw [course_eq]
  unfold components
  split
  · rfl
  · next habs =>
    split
    · next rest hrest =>
      rw [hrest] at h
      exact h.elim (fun hp => absurd hp habs) (fun hhead => absurd rfl hhead)
    · rfl

theorem ofSegment_inj {s t : String} (h : Component.ofSegment s = Component.ofSegment t) :
    s = t := by
  unfold Component.ofSegment at h
  split at h <;> split at h <;> simp_all

theorem root_mem_course_iff : .root ∈ p.course ↔ p.isAbsolute = true := by
  rw [course_eq, List.mem_append]
  constructor
  · rintro (hroot | hroot)
    · split at hroot
      · assumption
      · exact nomatch hroot
    · exact absurd rfl (mem_follow hroot).1
  · intro habs
    rw [if_pos habs]
    exact .inl List.mem_cons_self

/-- Paths with the same course start at the same place and have the same names, but for dots. -/
theorem of_course_eq (h : p.course = q.course) :
    p.isAbsolute = q.isAbsolute
      ∧ p.segments.filter (· != ".") = q.segments.filter (· != ".") := by
  have habs : p.isAbsolute = q.isAbsolute := by
    rw [Bool.eq_iff_iff, ← root_mem_course_iff, ← root_mem_course_iff, h]
  rw [course_eq, course_eq, habs] at h
  exact ⟨habs, (List.map_inj_right fun _ _ => ofSegment_inj).mp (List.append_cancel_left h)⟩

end Path

end EntitySchema
