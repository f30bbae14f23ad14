import EntitySchema.Proofs.Searching

/-!
# The way of a search to a directory

A pattern below a directory starts with the names of the directory's own path. The search looks each
of them up (`Leads`), and so it comes to the directory, by a path without the dots at the start.
From there it finds the entries below, as long as the path of the directory is plain text and the
paths of the entries are short enough (`Disk.SearchedInFull`).
-/

namespace EntitySchema

namespace Glob

/-- Whether dots at the start of a text are followed by a slash too many. -/
def gapAhead : List Char → Bool
  | '/' :: _ => true
  | '.' :: '/' :: rest => gapAhead rest
  | _ => false

end Glob

open Glob

/-- A search for the schema files below the path goes through everything there: the path is plain
text, it starts without a slash too many, and the paths of all entries below are short enough to be
asked for. -/
structure Disk.SearchedInFull (d : Disk) (p : Path) : Prop where
  plain : PlainText p.text.toList
  gapless : p.isAbsolute = true ∨ gapAhead p.text.toList = false
  fits : ∀ r names, d.locate p = .ok r → (d.node? (r ++ names)).isSome →
    (names.foldl Path.join p).text.utf8ByteSize ≤ Path.maxSize

namespace Glob

variable {d : Disk} {p dir : Path} {r : Place} {name : String} {names : List String}

/-! ## Following names -/

/-- From where the path leads the names lead to the directory at a place, and a search can follow
them. -/
structure Leads (d : Disk) (dir : Path) (names : List String) (r : Place) : Prop where
  pieces : ∀ n ∈ names, '/' ∉ n.toList ∧ '\x00' ∉ n.toList
  reached : ∃ x, d.locate dir = .ok x ∧ d.walk x (Path.namesIn (Path.slashed names)) = .ok r
  directory : d.node? r = some .directory
  /-- A search does not look up an empty name in the working directory. -/
  gapless : dir = here → gapAhead (Path.slashed names) = false
  fits : Text.byteSize (front dir) + Text.byteSize (Path.slashed names) ≤ Path.maxSize + 1

theorem gapAhead_slashed_cons {names : List String}
    (h : gapAhead (Path.slashed (name :: names)) = false) :
    name ≠ "" ∧ (name = "." → gapAhead (Path.slashed names) = false) := by
  rw [Path.slashed_cons] at h
  constructor
  · rintro rfl
    exact nomatch h
  · rintro rfl
    exact h

theorem byteSize_slashed_cons (name : String) (names : List String) :
    Text.byteSize (Path.slashed (name :: names))
      = name.utf8ByteSize + 1 + Text.byteSize (Path.slashed names) := by
  have hchar : '/'.utf8Size = 1 := rfl
  rw [Path.slashed_cons, Text.byteSize_append, Text.byteSize_cons, Text.byteSize_toList]
  omega

namespace Leads

theorem reached_cons (h : Leads d dir (name :: names) r) :
    ∃ x y, d.locate dir = .ok x ∧ d.node? x = some .directory
      ∧ d.walk x (Path.namesIn name.toList) = .ok y
      ∧ d.walk y (Path.namesIn (Path.slashed names)) = .ok r := by
  obtain ⟨x, hlocate, hwalk⟩ := h.reached
  have hx := Disk.directory_of_walk hwalk h.directory
  rw [Path.slashed_cons, Path.namesIn_append_slash] at hwalk
  obtain ⟨y, hy, hrest⟩ := Disk.walk_append_eq_ok_iff.mp hwalk
  exact ⟨x, y, hlocate, hx, hy, hrest⟩

theorem ne_empty (h : Leads d dir (name :: names) r) (hhere : dir = here) : name ≠ "" :=
  (gapAhead_slashed_cons (h.gapless hhere)).1

/-- A search that follows the first of the names can follow the others. -/
theorem step (h : Leads d dir (name :: names) r) : Leads d (entryPath dir name) names r := by
  obtain ⟨x, y, hlocate, hx, hy, hrest⟩ := h.reached_cons
  obtain ⟨⟨hslash, hnul⟩, hpieces⟩ := List.forall_mem_cons.mp h.pieces
  have hfits := h.fits
  rw [byteSize_slashed_cons] at hfits
  refine ⟨hpieces, ⟨y, ?_, hrest⟩, h.directory, ?_, ?_⟩
  · have hsize := byteSize_entryPath hslash dir
    exact locate_entryPath hlocate hx hslash hnul h.ne_empty (by omega) hy
  · -- a search is in the working directory only as long as it has followed dots
    intro hhere
    obtain ⟨hdir, hdot⟩ := of_entryPath_eq_here (text_ne_of_locate hlocate) hslash hhere
    exact (gapAhead_slashed_cons (h.gapless hdir)).2 hdot
  · have hfront := byteSize_front_entryPath_le hslash dir
    omega

theorem follow (h : Leads d dir names r) : Leads d (names.foldl entryPath dir) [] r := by
  induction names generalizing dir with
  | nil => exact h
  | cons name names ih => exact ih h.step

theorem locate_eq (h : Leads d dir [] r) : d.locate dir = .ok r := by
  obtain ⟨x, hlocate, hwalk⟩ := h.reached
  cases hwalk
  exact hlocate

theorem undotted (h : Leads d dir names r) (hdir : Undotted dir) :
    Undotted (names.foldl entryPath dir) := by
  induction names generalizing dir with
  | nil => exact hdir
  | cons name names ih =>
    obtain ⟨x, -, hlocate, -⟩ := h.reached_cons
    exact ih h.step (hdir.entryPath (text_ne_of_locate hlocate)
      (h.pieces name List.mem_cons_self).1 h.ne_empty)

theorem course_eq (h : Leads d dir names r) :
    (names.foldl entryPath dir).course = dir.course
      ++ ((Path.namesIn (Path.slashed names)).filter (· != ".")).map Path.Component.ofSegment := by
  induction names generalizing dir with
  | nil => exact (List.append_nil _).symm
  | cons name names ih =>
    obtain ⟨x, -, hlocate, -⟩ := h.reached_cons
    rw [List.foldl_cons, ih h.step, course_entryPath (text_ne_of_locate hlocate)
      (h.pieces name List.mem_cons_self).1, Path.slashed_cons, Path.namesIn_append_slash,
      List.filter_append, List.map_append, List.append_assoc]

theorem byteSize_front_le (h : Leads d dir names r) :
    Text.byteSize (front (names.foldl entryPath dir))
      ≤ Text.byteSize (front dir) + Text.byteSize (Path.slashed names) := by
  induction names generalizing dir with
  | nil => exact Nat.le_add_right _ _
  | cons name names ih =>
    have hrest := ih h.step
    have hfirst := byteSize_front_entryPath_le (h.pieces name List.mem_cons_self).1 dir
    rw [byteSize_slashed_cons, List.foldl_cons]
    omega

/-- The names lead on from a directory and to something. -/
theorem run_looks (h : Leads d dir (name :: names) r) :
    (FileStore.isDir dir : StateM Disk _).run d = (true, d)
      ∧ (FileStore.exists? (entryPath dir name) : StateM Disk _).run d = (true, d) := by
  obtain ⟨x, y, hlocate, hx, -⟩ := h.reached_cons
  constructor
  · rw [Disk.run_isDir, decide_eq_true ((Disk.kind?_eq_directory_iff hlocate).mpr hx)]
  · obtain ⟨z, hz, hwalk⟩ := h.step.reached
    have hdir := Disk.directory_of_walk hwalk h.directory
    show ((d.kind? (entryPath dir name)).isSome, d) = (true, d)
    rw [(Disk.kind?_eq_directory_iff hz).mpr hdir]
    rfl

/-- **A search follows the names,** one step for each. -/
theorem searchIn_eq (h : Leads d dir names r) (fuel : Nat) {rest : List Pattern}
    (hrest : rest ≠ []) :
    (searchIn (fuel + names.length) (names.map literal ++ rest) dir : StateM Disk _).run d
      = (searchIn fuel rest (names.foldl entryPath dir) : StateM Disk _).run d := by
  induction names generalizing dir with
  | nil => rfl
  | cons name names ih =>
    obtain ⟨hdir, hexists⟩ := h.run_looks
    have hgoes : (goOn (searchIn (fuel + names.length)) (names.map literal ++ rest)
          (entryPath dir name) : StateM Disk _).run d
        = (searchIn fuel rest (names.foldl entryPath (entryPath dir name)) : StateM Disk _).run d
        := by
      have hmore : (names.map literal ++ rest).isEmpty = false := by
        cases names <;> simp_all
      unfold goOn
      rw [hmore, if_neg Bool.false_ne_true]
      exact ih h.step
    rw [List.foldl_cons, ← hgoes, List.length_cons, ← Nat.add_assoc, List.map_cons,
      List.cons_append, searchIn, name?_literal]
    dsimp only
    split
    · rw [StateT.run_bind, hdir]
      rfl
    · rw [StateT.run_bind, hexists]
      rfl

end Leads

/-! ## From the root to a listed directory -/

/-- Where the search for a path starts. -/
def root (p : Path) : Path := if p.isAbsolute then ⟨"/"⟩ else here

theorem front_root (p : Path) : front (root p) = if p.isAbsolute then ['/'] else [] := by
  unfold root
  split <;> rfl

theorem undotted_root (p : Path) : Undotted (root p) := by
  unfold root
  split
  · exact .inr (.inl rfl)
  · exact .inl rfl

theorem course_root (p : Path) : (root p).course = if p.isAbsolute then [.root] else [] := by
  unfold root
  split <;> decide

theorem root_ne_here (h : p.isAbsolute = true) : root p ≠ here := by
  unfold root
  rw [if_pos h]
  decide

theorem locate_root (hd : d.Sound) (p : Path) :
    d.locate (root p) = .ok (if p.isAbsolute then [] else d.here) := by
  unfold root
  split
  · rfl
  · have hwalk : d.walk d.here here.segments = .ok d.here :=
      Disk.walk_cons_eq_ok_iff.mpr ⟨_, Disk.stepInto_dot hd.here, rfl⟩
    exact Disk.locate_eq_ok_iff.mpr ⟨⟨_, rfl, hwalk⟩, nofun⟩

/-- A slash at the end of a text makes no gap where there is none yet. -/
theorem gapAhead_concat_slash {cs : List Char} (hne : cs ≠ []) (hlast : cs.getLast? ≠ some '/')
    (h : gapAhead cs = false) : gapAhead (cs ++ ['/']) = false := by
  fun_induction gapAhead cs with
  | case1 rest => exact nomatch h
  | case2 rest ih =>
    cases rest with
    | nil => exact absurd rfl hlast
    | cons c rest => exact ih (List.cons_ne_nil c rest) (by simpa using hlast) h
  | case3 cs hslash hdot =>
    match cs with
    | [] => exact absurd rfl hne
    | [c] => by_cases hc : c = '.' <;> simp_all [gapAhead]
    | c :: c' :: rest =>
      rw [List.cons_append, List.cons_append, gapAhead]
      · intro rest' heq
        exact hslash _ (by rw [(List.cons.inj heq).1])
      · intro rest' heq
        obtain ⟨hc, heq⟩ := List.cons.inj heq
        exact hdot _ (by rw [hc, (List.cons.inj heq).1])

theorem gapAhead_front (hne : p.text ≠ "") (h : gapAhead p.text.toList = false) :
    gapAhead p.front = false := by
  have hchars : p.text.toList ≠ [] := fun hnil => hne (String.toList_eq_nil_iff.mp hnil)
  unfold Path.front
  split
  · exact h
  · next hslash =>
    refine gapAhead_concat_slash hchars ?_ h
    simpa [Path.endsInSlash, hne] using hslash

/-- **A search comes to a directory that it can search in full.** -/
theorem leads_of_searchedInFull (hd : d.Sound) (hp : d.locate p = .ok r)
    (hr : d.node? r = some .directory) (hfull : d.SearchedInFull p) :
    ∃ names, (∀ n ∈ names, '/' ∉ n.toList)
      ∧ p.front = (if p.isAbsolute then ['/'] else []) ++ Path.slashed names
      ∧ Leads d (root p) names r := by
  have hne := text_ne_of_locate hp
  obtain ⟨names, hnames, hfront⟩ := Path.exists_names hne
  obtain ⟨⟨start, hstart, hwalk⟩, -⟩ := Disk.locate_eq_ok_iff.mp hp
  obtain ⟨hnul, -, hsize, hbase⟩ := Disk.entrance_eq_ok_iff.mp hstart
  have hbytes := p.byteSize_front_le
  rw [hfront, Text.byteSize_append] at hbytes
  refine ⟨names, hnames, hfront, ?_, ⟨start, ?_, ?_⟩, hr, ?_, ?_⟩
  · intro n hn
    refine ⟨hnames n hn, fun hmem => hnul (Path.mem_of_mem_front ?_ (by decide))⟩
    rw [hfront]
    exact List.mem_append_right _ (Path.mem_slashed hn hmem)
  · rw [locate_root hd, hbase]
  · rw [← Path.namesIn_front, hfront, Path.namesIn_root_append] at hwalk
    exact hwalk
  · intro hhere
    have hrelative : ¬ p.isAbsolute = true := fun habs => root_ne_here habs hhere
    have hgap := gapAhead_front hne (hfull.gapless.resolve_left hrelative)
    rw [hfront, if_neg hrelative] at hgap
    exact hgap
  · rw [front_root]
    omega

/-! ## The entries below it -/

/-- What a search puts together is no longer than what a join does. -/
theorem byteSize_foldl_le {dir' : Path} (hne : dir.text ≠ "")
    (hnames : ∀ n ∈ names, IsEntryName n) (hnil : names ≠ [])
    (hfront : Text.byteSize (front dir) ≤ Text.byteSize dir'.front) :
    (names.foldl entryPath dir).text.utf8ByteSize
      ≤ (names.foldl Path.join dir').text.utf8ByteSize := by
  induction names generalizing dir dir' with
  | nil => exact absurd rfl hnil
  | cons n names ih =>
    obtain ⟨hn, hnames⟩ := List.forall_mem_cons.mp hnames
    have hjoin := Path.toList_join (Path.isAbsolute_of_noSlash hn.noSlash) dir'
    by_cases hlast : names = []
    · have hentry := byteSize_entryPath hn.noSlash dir
      rw [hlast, List.foldl_cons, List.foldl_cons, List.foldl_nil, List.foldl_nil, hentry,
        ← Text.byteSize_toList (dir'.join n).text, hjoin, Text.byteSize_append,
        Text.byteSize_toList]
      omega
    · refine ih (text_entryPath_ne hne hn.noSlash fun _ => hn.ne_empty) hnames hlast ?_
      have hchar : Text.byteSize ['/'] = 1 := rfl
      rw [byteSize_front_entryPath hne hn.toIsSegment hn.noDot,
        Path.front_of_text hn.toIsSegment hjoin, Text.byteSize_append, Text.byteSize_append,
        Text.byteSize_toList, hchar]
      omega

/-- The path that a search puts together for a place below a directory leads there, through the
names on the way. -/
theorem foldl_entryPath (hd : d.Sound) (hdir : d.locate dir = .ok r) (hundotted : Undotted dir)
    (hroom : Roomy d r dir) (hentry : (d.node? (r ++ names)).isSome) (hnil : names ≠ []) :
    d.locate (names.foldl entryPath dir) = .ok (r ++ names)
      ∧ (names.foldl entryPath dir).components = dir.course ++ names.map .name := by
  induction names generalizing dir r with
  | nil => exact absurd rfl hnil
  | cons n names ih =>
    have hne := text_ne_of_locate hdir
    have hn := hd.isEntryName_of_below hentry n List.mem_cons_self
    have hbelow : (d.node? (r ++ [n] ++ names)).isSome := by simpa using hentry
    have hfirst := hd.isSome_of_below hbelow
    have hlocate := locate_entry hd hdir hfirst (hroom [n] (List.cons_ne_nil n []) hfirst)
    have hcourse := course_entry hne hn
    have hdots := hundotted.entryPath hne hn.noSlash fun _ => hn.ne_empty
    rw [List.foldl_cons]
    by_cases hlast : names = []
    · have hhere : entryPath dir n ≠ here := fun heq =>
        hn.noDot (of_entryPath_eq_here hne hn.noSlash heq).2
      rw [hlast]
      exact ⟨hlocate, (hdots.components_eq hhere).trans hcourse⟩
    · obtain ⟨hplace, hway⟩ := ih hlocate hdots (hroom.entry n) hbelow hlast
      refine ⟨by simpa using hplace, ?_⟩
      rw [hway, hcourse, List.map_cons, List.append_assoc, List.singleton_append]

/-- **The search below a directory that it can search in full** finds the entries with the names of
schema files, from a path that leads to the directory. -/
theorem finds_patternBelow (hd : d.Sound) (hp : d.locate p = .ok r)
    (hr : d.node? r = some .directory) (hfull : d.SearchedInFull p) :
    ∃ dir, Finds d (SchemaBelow d r dir) (search (Discovery.patternBelow p))
      ∧ d.locate dir = .ok r ∧ Undotted dir ∧ Roomy d r dir ∧ dir.course = p.course := by
  obtain ⟨names, hnames, hfront, hleads⟩ := leads_of_searchedInFull hd hp hr hfull
  have hne := text_ne_of_locate hp
  have hlocate := hleads.follow.locate_eq
  have hroom : Roomy d r (names.foldl entryPath (root p)) := by
    intro more hmore hentry
    refine Nat.le_trans (byteSize_foldl_le (text_ne_of_locate hlocate)
      (hd.isEntryName_of_below hentry) hmore ?_) (hfull.fits r more hp hentry)
    have hbytes := hleads.byteSize_front_le
    rw [hfront, Text.byteSize_append, ← front_root]
    exact hbytes
  refine ⟨names.foldl entryPath (root p), ?_, hlocate, hleads.undotted (undotted_root p), hroom, ?_⟩
  · have hpatterns := Discovery.namePatterns_patternBelow hne hfull.plain hnames hfront
    have hfound := finds_below hd (Path.maxSize + 2) hlocate hr hroom (by omega)
    obtain ⟨paths, hrun, hpaths⟩ := hfound
    refine ⟨paths, ?_, hpaths⟩
    have hlength : Path.maxSize + (names.map literal ++ [anyDepth, schemaNames]).length
        = Path.maxSize + 2 + names.length := by
      rw [List.length_append, List.length_map, List.length_cons, List.length_cons, List.length_nil]
      omega
    unfold search
    rw [hpatterns]
    dsimp only
    rw [Discovery.isAbsolute_patternBelow, hlength, ← hrun]
    exact hleads.searchIn_eq (Path.maxSize + 2) (List.cons_ne_nil anyDepth _)
  · rw [hleads.course_eq, course_root, Path.course_eq, ← Path.namesIn_front, hfront,
      Path.namesIn_root_append]

end Glob

end EntitySchema
