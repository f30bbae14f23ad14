import EntitySchema.Disk.Basic

/-!
# Where paths lead on a disk that changes

A path leads to its last entry through directories, so it leads there on every disk that still has
them. From this follows what a request does to a disk: `makeDir` and `write` set one place, the one
that the path names (`NamesEntry`), and afterwards the path leads to what has been put there.
-/

namespace EntitySchema.Disk

/-- What it takes for one action after another to succeed. -/
theorem bind_eq_ok_iff {ε α β : Type} {x : Except ε α} {f : α → Except ε β} {b : β} :
    x >>= f = .ok b ↔ ∃ a, x = .ok a ∧ f a = .ok b := by
  cases x with
  | error e => exact ⟨nofun, fun ⟨_, h, _⟩ => nomatch h⟩
  | ok a =>
    constructor
    · intro h
      exact ⟨a, rfl, h⟩
    · rintro ⟨_, h, hb⟩
      cases h
      exact hb

variable {d d' d'' : Disk} {p q : Place} {path : Path} {name : String} {content : ByteArray}

/-! ## Disks that keep their directories -/

/-- Every directory of the first disk is one of the second, and relative paths start at the same
place on both. -/
structure DirsKept (d d' : Disk) : Prop where
  here : d'.here = d.here
  directory : ∀ p, d.node? p = some .directory → d'.node? p = some .directory

theorem DirsKept.refl (d : Disk) : DirsKept d d := ⟨rfl, fun _ h => h⟩

theorem DirsKept.trans (h : DirsKept d d') (h' : DirsKept d' d'') : DirsKept d d'' :=
  ⟨h'.here.trans h.here, fun p hp => h'.directory p (h.directory p hp)⟩

theorem ne_root (hq : d.node? q ≠ some .directory) : q ≠ [] := by
  intro h
  rw [h] at hq
  exact hq rfl

/-- A place that was no directory can be given anything. -/
theorem dirsKept_set (hq : d.node? q ≠ some .directory) (n : Node) : DirsKept d (d.set q n) := by
  refine ⟨rfl, ?_⟩
  intro p hp
  have hne : p ≠ q := by
    intro h
    rw [h] at hp
    exact hq hp
  rw [node?_set d (ne_root hq), if_neg hne]
  exact hp

/-- A file is no new directory. -/
theorem dirsKept_of_set_file (hq : d.node? q ≠ some .directory) (content : ByteArray) :
    DirsKept (d.set q (.file content)) d := by
  refine ⟨rfl, ?_⟩
  intro p hp
  rw [node?_set d (ne_root hq)] at hp
  split at hp
  · exact nomatch hp
  · exact hp

/-! ## Walking -/

/-- **What a step comes to** depends on whether it starts from a directory, and on the name. -/
theorem step_eq_ite (d : Disk) (p : Place) (name : String) :
    d.step p name
      = if d.node? p = some .directory then
          if name = "." then .ok p
          else if name = ".." then .ok p.dropLast
          else if nameFits name then .ok (p ++ [name])
          else .error .nameTooLong
        else .error .notDirectory := by
  unfold step
  split
  · next hp => rw [if_pos hp]
  · next hp => rw [if_neg hp]

theorem directory_of_step (h : d.step p name = .ok q) : d.node? p = some .directory := by
  rw [step_eq_ite] at h
  split at h
  · assumption
  · exact nomatch h

/-- A step by the name of an entry leads down. -/
theorem step_name_eq_ok_iff (hdot : name ≠ ".") (hdots : name ≠ "..") :
    d.step p name = .ok q
      ↔ d.node? p = some .directory ∧ nameFits name = true ∧ p ++ [name] = q := by
  rw [step_eq_ite, if_neg hdot, if_neg hdots]
  by_cases hp : d.node? p = some .directory
  · by_cases hfits : nameFits name = true
    · simp [hp, hfits]
    · simp [hp, hfits]
  · simp [hp]

theorem step_of_dirsKept (hkept : DirsKept d d') (h : d.step p name = .ok q) :
    d'.step p name = .ok q := by
  have hdir := directory_of_step h
  rw [step_eq_ite, if_pos hdir] at h
  rw [step_eq_ite, if_pos (hkept.directory p hdir)]
  exact h

theorem stepInto_eq_ok_iff :
    d.stepInto p name = .ok q ↔ d.step p name = .ok q ∧ (d.node? q).isSome := by
  unfold stepInto
  rw [bind_eq_ok_iff]
  constructor
  · rintro ⟨r, hstep, h⟩
    split at h
    · cases h
      exact ⟨hstep, ‹_›⟩
    · exact nomatch h
  · rintro ⟨hstep, hsome⟩
    exact ⟨q, hstep, if_pos hsome⟩

/-- A step to a dot is no step. -/
theorem stepInto_dot (hp : d.node? p = some .directory) : d.stepInto p "." = .ok p := by
  refine stepInto_eq_ok_iff.mpr ⟨?_, by rw [hp]; rfl⟩
  rw [step_eq_ite, if_pos hp, if_pos rfl]

theorem walk_cons_eq_ok_iff {names : List String} :
    d.walk p (name :: names) = .ok q
      ↔ ∃ r, d.stepInto p name = .ok r ∧ d.walk r names = .ok q :=
  bind_eq_ok_iff

theorem walk_append (d : Disk) (p : Place) (names more : List String) :
    d.walk p (names ++ more) = d.walk p names >>= fun q => d.walk q more := by
  induction names generalizing p with
  | nil => rfl
  | cons name names ih =>
    show (d.stepInto p name >>= fun r => d.walk r (names ++ more))
      = (d.stepInto p name >>= fun r => d.walk r names) >>= fun q => d.walk q more
    cases d.stepInto p name with
    | error f => rfl
    | ok r => exact ih r

theorem walk_append_eq_ok_iff {names more : List String} :
    d.walk p (names ++ more) = .ok q
      ↔ ∃ r, d.walk p names = .ok r ∧ d.walk r more = .ok q := by
  rw [walk_append]
  exact bind_eq_ok_iff

/-- A walk that ends in a directory only passes through directories. -/
theorem directory_of_walk {names : List String} (h : d.walk p names = .ok q)
    (hq : d.node? q = some .directory) : d.node? p = some .directory := by
  cases names with
  | nil =>
    cases h
    exact hq
  | cons name names =>
    obtain ⟨r, hr, -⟩ := walk_cons_eq_ok_iff.mp h
    exact directory_of_step (stepInto_eq_ok_iff.mp hr).1

/-- **A walk to a directory leads there on every disk that keeps the directories.** -/
theorem walk_of_dirsKept (hkept : DirsKept d d') {names : List String}
    (h : d.walk p names = .ok q) (hq : d.node? q = some .directory) :
    d'.walk p names = .ok q := by
  induction names generalizing p with
  | nil => exact h
  | cons name names ih =>
    obtain ⟨r, hr, hrest⟩ := walk_cons_eq_ok_iff.mp h
    have hstep := (stepInto_eq_ok_iff.mp hr).1
    -- the place after the step is on the way to a directory, so it is one and stays one
    have hdir := hkept.directory r (directory_of_walk hrest hq)
    have hinto : d'.stepInto p name = .ok r := by
      refine stepInto_eq_ok_iff.mpr ⟨step_of_dirsKept hkept hstep, ?_⟩
      rw [hdir]
      rfl
    exact walk_cons_eq_ok_iff.mpr ⟨r, hinto, ih hrest⟩

/-- The dots of a walk can be left out. -/
theorem walk_filter_dots {names : List String} (h : d.walk p names = .ok q) :
    d.walk p (names.filter (· != ".")) = .ok q := by
  induction names generalizing p with
  | nil => exact h
  | cons name names ih =>
    obtain ⟨r, hr, hrest⟩ := walk_cons_eq_ok_iff.mp h
    by_cases hdot : name = "."
    · have hdir := directory_of_step (stepInto_eq_ok_iff.mp hr).1
      have hstay : r = p := by
        rw [hdot, stepInto_dot hdir] at hr
        exact (Except.ok.inj hr).symm
      rw [List.filter_cons_of_neg (by simp [hdot])]
      exact ih (hstay ▸ hrest)
    · rw [List.filter_cons_of_pos (by simpa using hdot)]
      exact walk_cons_eq_ok_iff.mpr ⟨r, hr, ih hrest⟩

theorem entrance_of_dirsKept (hkept : DirsKept d d') (path : Path) :
    d'.entrance path = d.entrance path := by
  unfold entrance
  rw [hkept.here]

theorem entrance_eq_ok_iff :
    d.entrance path = .ok p
      ↔ '\x00' ∉ path.text.toList ∧ path.text ≠ "" ∧ path.text.utf8ByteSize ≤ Path.maxSize
        ∧ (if path.isAbsolute then [] else d.here) = p := by
  unfold entrance
  split
  · next h => simp [List.contains_iff_mem.mp h]
  · next h =>
    have hnul : '\x00' ∉ path.text.toList := fun hmem => h (List.contains_iff_mem.mpr hmem)
    split
    · next h => simp [show path.text = "" by simpa using h]
    · next h =>
      have hne : path.text ≠ "" := by simpa using h
      split
      · next h => simp [Nat.not_le.mpr h]
      · next h => split <;> simp_all

theorem locate_eq_ok_iff :
    d.locate path = .ok q
      ↔ (∃ p, d.entrance path = .ok p ∧ d.walk p path.segments = .ok q)
        ∧ (path.endsInSlash = true → d.node? q = some .directory) := by
  unfold locate
  rw [bind_eq_ok_iff]
  constructor
  · rintro ⟨start, hstart, h⟩
    obtain ⟨r, hwalk, h⟩ := bind_eq_ok_iff.mp h
    split at h
    · exact nomatch h
    · next hslash =>
      cases h
      exact ⟨⟨start, hstart, hwalk⟩, by simpa using hslash⟩
  · rintro ⟨⟨start, hstart, hwalk⟩, hslash⟩
    refine ⟨start, hstart, bind_eq_ok_iff.mpr ⟨q, hwalk, if_neg ?_⟩⟩
    simpa using hslash

/-- A path that leads to a directory goes on leading there. -/
theorem locate_of_dirsKept (hkept : DirsKept d d') (h : d.locate path = .ok p)
    (hp : d.node? p = some .directory) : d'.locate path = .ok p := by
  obtain ⟨⟨start, hstart, hwalk⟩, -⟩ := locate_eq_ok_iff.mp h
  rw [← entrance_of_dirsKept hkept] at hstart
  have hdir := hkept.directory p hp
  exact locate_eq_ok_iff.mpr ⟨⟨start, hstart, walk_of_dirsKept hkept hwalk hp⟩, fun _ => hdir⟩

/-! ## What stands at a path -/

theorem kind?_of_locate (h : d.locate path = .ok p) : d.kind? path = (d.node? p).map Node.kind := by
  unfold kind?
  rw [h]

theorem kind?_eq_directory_iff (h : d.locate path = .ok p) :
    d.kind? path = some .directory ↔ d.node? p = some .directory := by
  rw [kind?_of_locate h]
  cases d.node? p with
  | none => simp
  | some n => cases n <;> simp [Node.kind]

theorem exists_locate (h : (d.kind? path).isSome) :
    ∃ q n, d.locate path = .ok q ∧ d.node? q = some n ∧ d.kind? path = some n.kind := by
  unfold kind? at h ⊢
  cases hlocate : d.locate path with
  | error fault => rw [hlocate] at h; exact nomatch h
  | ok q =>
    rw [hlocate] at h
    cases hnode : d.node? q with
    | none => simp [hnode] at h
    | some n => exact ⟨q, n, rfl, hnode, by simp [hnode]⟩

/-- A path at which a directory is leads to one. -/
theorem exists_locate_directory (h : d.kind? path = some .directory) :
    ∃ q, d.locate path = .ok q ∧ d.node? q = some .directory := by
  obtain ⟨q, n, hlocate, -⟩ := exists_locate (by rw [h]; rfl)
  exact ⟨q, hlocate, (kind?_eq_directory_iff hlocate).mp h⟩

/-- Only what is there can be read. -/
theorem isSome_kind?_of_read (h : d.read path = .ok content) : (d.kind? path).isSome := by
  unfold read at h
  obtain ⟨q, hq, hnode⟩ := bind_eq_ok_iff.mp h
  rw [kind?_of_locate hq, Option.isSome_map]
  cases hn : d.node? q with
  | none => rw [hn] at hnode; exact nomatch hnode
  | some n => rfl

theorem run_isDir (d : Disk) (path : Path) :
    (FileStore.isDir path : StateM Disk _).run d
      = (decide (d.kind? path = some .directory), d) := rfl

/-! ## The entry that a path names -/

/-- The path leads to this directory, and its last name is this one, which can be the name of an
entry there. -/
structure NamesEntry (d : Disk) (path : Path) (dir : Place) (name : String) : Prop where
  reached : ∃ start, d.entrance path = .ok start
    ∧ d.walk start path.segments.dropLast = .ok dir
  directory : d.node? dir = some .directory
  last : path.segments.getLast? = some name
  noDot : name ≠ "."
  noDots : name ≠ ".."
  fits : nameFits name = true

namespace NamesEntry

variable {dir : Place}

theorem step_eq (h : NamesEntry d path dir name) : d.step dir name = .ok (dir ++ [name]) :=
  (step_name_eq_ok_iff h.noDot h.noDots).mpr ⟨h.directory, h.fits, rfl⟩

theorem of_dirsKept (h : NamesEntry d path dir name) (hkept : DirsKept d d') :
    NamesEntry d' path dir name := by
  obtain ⟨start, hstart, hwalk⟩ := h.reached
  have hreached : ∃ start, d'.entrance path = .ok start
      ∧ d'.walk start path.segments.dropLast = .ok dir :=
    ⟨start, by rw [entrance_of_dirsKept hkept]; exact hstart,
      walk_of_dirsKept hkept hwalk h.directory⟩
  exact { h with reached := hreached, directory := hkept.directory dir h.directory }

theorem locateParent_eq (h : NamesEntry d path dir name) :
    d.locateParent path = .ok (dir, some name) := by
  obtain ⟨start, hstart, hwalk⟩ := h.reached
  unfold locateParent
  refine bind_eq_ok_iff.mpr ⟨start, hstart, ?_⟩
  rw [h.last]
  refine bind_eq_ok_iff.mpr ⟨dir, hwalk, ?_⟩
  rw [if_neg (not_not_intro h.directory), if_neg (by simp [h.noDot, h.noDots])]

/-- A request that gets as far as the last step has found an entry that the path names. -/
theorem of_locateParent (hparent : d.locateParent path = .ok (dir, some name))
    (hstep : d.step dir name = .ok q) : NamesEntry d path dir name ∧ q = dir ++ [name] := by
  unfold locateParent at hparent
  obtain ⟨start, hstart, hparent⟩ := bind_eq_ok_iff.mp hparent
  split at hparent
  · exact nomatch hparent
  · next last hlast =>
    obtain ⟨p, hwalk, hparent⟩ := bind_eq_ok_iff.mp hparent
    split at hparent
    · exact nomatch hparent
    · split at hparent
      · exact nomatch hparent
      · next hdots =>
        cases hparent
        have hplain : name ≠ "." ∧ name ≠ ".." := by simpa using hdots
        obtain ⟨hdir, hfits, hq⟩ := (step_name_eq_ok_iff hplain.1 hplain.2).mp hstep
        exact ⟨⟨⟨start, hstart, hwalk⟩, hdir, hlast, hplain.1, hplain.2, hfits⟩, hq.symm⟩

/-- What a path leads to that names an entry. -/
theorem locate_eq (h : NamesEntry d path dir name) {n : Node}
    (hnode : d.node? (dir ++ [name]) = some n) (hslash : path.endsInSlash → n = .directory) :
    d.locate path = .ok (dir ++ [name]) := by
  obtain ⟨start, hstart, hwalk⟩ := h.reached
  have hinto : d.walk dir [name] = .ok (dir ++ [name]) := by
    refine walk_cons_eq_ok_iff.mpr ⟨_, stepInto_eq_ok_iff.mpr ⟨h.step_eq, ?_⟩, rfl⟩
    rw [hnode]
    rfl
  obtain ⟨names, hsegments⟩ := List.getLast?_eq_some_iff.mp h.last
  have hall : d.walk start path.segments = .ok (dir ++ [name]) := by
    rw [hsegments, List.dropLast_concat] at hwalk
    rw [hsegments]
    exact walk_append_eq_ok_iff.mpr ⟨dir, hwalk, hinto⟩
  refine locate_eq_ok_iff.mpr ⟨⟨start, hstart, hall⟩, ?_⟩
  intro hs
  rw [hnode, hslash hs]

end NamesEntry

/-! ## Requests that change a disk -/

section Attempts

variable {n : Type → Type} [Monad n] {change : Disk → Except FileFault Disk}

theorem attempt_of_ok (h : change d = .ok d') :
    (attempt change : StateT Disk n _).run d = pure (.ok (), d') := by
  show (attempt change : StateT Disk n _) d = _
  unfold attempt
  rw [h]

theorem attempt_of_error {fault : FileFault} (h : change d = .error fault) :
    (attempt change : StateT Disk n _).run d = pure (.error fault, d) := by
  show (attempt change : StateT Disk n _) d = _
  unfold attempt
  rw [h]

end Attempts

/-- **When a directory can be made,** and on which disk this ends. -/
theorem makeDir_eq_ok_iff :
    d.makeDir path = .ok d' ↔ ∃ dir name, NamesEntry d path dir name
      ∧ d.node? (dir ++ [name]) = none ∧ d' = d.set (dir ++ [name]) .directory := by
  unfold makeDir
  rw [bind_eq_ok_iff]
  constructor
  · rintro ⟨⟨dir, last?⟩, hparent, h⟩
    cases last? with
    | none => exact nomatch h
    | some name =>
      obtain ⟨q, hstep, h⟩ := bind_eq_ok_iff.mp h
      obtain ⟨hentry, rfl⟩ := NamesEntry.of_locateParent hparent hstep
      split at h
      · exact nomatch h
      · next hnone =>
        cases h
        exact ⟨dir, name, hentry, by simpa using hnone, rfl⟩
  · rintro ⟨dir, name, hentry, hnone, rfl⟩
    refine ⟨_, hentry.locateParent_eq, bind_eq_ok_iff.mpr ⟨_, hentry.step_eq, if_neg ?_⟩⟩
    rw [hnone]
    exact Bool.false_ne_true

/-- The place of the file that is opened for writing at the path, if one can be opened. -/
def fileAt? (d : Disk) (path : Path) : Option Place :=
  match d.locateParent path with
  | .ok (dir, some name) =>
    match d.step dir name with
    | .ok q => if path.endsInSlash || d.node? q = some .directory then none else some q
    | .error _ => none
  | _ => none

theorem fileAt?_eq_some_iff :
    d.fileAt? path = some q ↔ ∃ dir name, NamesEntry d path dir name
      ∧ path.endsInSlash = false ∧ d.node? q ≠ some .directory ∧ q = dir ++ [name] := by
  unfold fileAt?
  constructor
  · intro h
    split at h
    · next dir name hparent =>
      split at h
      · next r hstep =>
        split at h
        · exact nomatch h
        · next hfile =>
          cases h
          have hfile : path.endsInSlash = false ∧ d.node? q ≠ some .directory := by
            simpa using hfile
          obtain ⟨hentry, hq⟩ := NamesEntry.of_locateParent hparent hstep
          exact ⟨dir, name, hentry, hfile.1, hfile.2, hq⟩
      · exact nomatch h
    · exact nomatch h
  · rintro ⟨dir, name, hentry, hslash, hnode, rfl⟩
    rw [hentry.locateParent_eq]
    show (match d.step dir name with | .ok q => _ | .error _ => none) = _
    rw [hentry.step_eq]
    exact if_neg (by simp [hslash, hnode])

/-- **When a file can be written,** and on which disk this ends. -/
theorem write_eq_ok_iff :
    d.write path content = .ok d' ↔ ∃ q, d.fileAt? path = some q
      ∧ d' = d.set q (.file content) := by
  constructor
  · intro h
    unfold write at h
    obtain ⟨⟨dir, last?⟩, hparent, h⟩ := bind_eq_ok_iff.mp h
    cases last? with
    | none => exact nomatch h
    | some name =>
      replace h : (if path.endsInSlash then _ else _) = _ := h
      split at h
      · exact nomatch h
      · next hslash =>
        obtain ⟨q, hstep, h⟩ := bind_eq_ok_iff.mp h
        obtain ⟨hentry, hq⟩ := NamesEntry.of_locateParent hparent hstep
        split at h
        · exact nomatch h
        · next hnode =>
          cases h
          have hslash : path.endsInSlash = false := by simpa using hslash
          exact ⟨q, fileAt?_eq_some_iff.mpr ⟨dir, name, hentry, hslash, hnode, hq⟩, rfl⟩
  · rintro ⟨q, hq, rfl⟩
    obtain ⟨dir, name, hentry, hslash, hnode, rfl⟩ := fileAt?_eq_some_iff.mp hq
    unfold write
    refine bind_eq_ok_iff.mpr ⟨_, hentry.locateParent_eq, ?_⟩
    show (if path.endsInSlash then _ else _) = _
    rw [hslash, if_neg Bool.false_ne_true]
    exact bind_eq_ok_iff.mpr ⟨_, hentry.step_eq, if_neg hnode⟩

/-- Whether a file can be opened depends on the directories only. -/
theorem fileAt?_of_dirsKept (hkept : DirsKept d d') (hback : DirsKept d' d) (path : Path) :
    d'.fileAt? path = d.fileAt? path := by
  have hsame {d d' : Disk} (hkept : DirsKept d d') (hback : DirsKept d' d) {q : Place}
      (h : d.fileAt? path = some q) : d'.fileAt? path = some q := by
    obtain ⟨dir, name, hentry, hslash, hnode, hq⟩ := fileAt?_eq_some_iff.mp h
    refine fileAt?_eq_some_iff.mpr ⟨dir, name, hentry.of_dirsKept hkept, hslash, ?_, hq⟩
    intro hdir
    exact hnode (hback.directory q hdir)
  exact Option.ext fun q => ⟨hsame hback hkept, hsame hkept hback⟩

theorem node?_fileAt?_ne (h : d.fileAt? path = some q) : d.node? q ≠ some .directory := by
  obtain ⟨_, _, _, _, hnode, _⟩ := fileAt?_eq_some_iff.mp h
  exact hnode

/-- **A path at which a file can be opened leads to that file once it is there.** -/
theorem locate_of_fileAt? (h : d.fileAt? path = some q) (hkept : DirsKept d d')
    (hfile : d'.node? q = some (.file content)) :
    d'.locate path = .ok q ∧ d'.read path = .ok content := by
  obtain ⟨dir, name, hentry, hslash, -, rfl⟩ := fileAt?_eq_some_iff.mp h
  have hlocate : d'.locate path = .ok (dir ++ [name]) := by
    refine (hentry.of_dirsKept hkept).locate_eq hfile ?_
    intro hs
    rw [hslash] at hs
    exact nomatch hs
  refine ⟨hlocate, ?_⟩
  unfold read
  refine bind_eq_ok_iff.mpr ⟨_, hlocate, ?_⟩
  rw [hfile]

/-! ## The steps of writing a file -/

theorem assign_assign (p : Place) (n n' : Node) (nodes : List (Place × Node)) :
    assign p n (assign p n' nodes) = assign p n nodes := by
  induction nodes with
  | nil => simp [assign]
  | cons entry rest ih =>
    obtain ⟨q, k⟩ := entry
    by_cases h : q = p
    · simp [assign, h]
    · simp [assign, h, ih]

theorem set_set (d : Disk) (p : Place) (n n' : Node) : (d.set p n').set p n = d.set p n := by
  unfold set
  rw [assign_assign]

/-- Why a file can not be written is not up to what it would hold. -/
theorem write_eq_error_congr {fault : FileFault} (h : d.write path content = .error fault)
    (content' : ByteArray) : d.write path content' = .error fault := by
  unfold write at h ⊢
  cases hparent : d.locateParent path with
  | error f =>
    rw [hparent] at h
    exact h
  | ok parent =>
    obtain ⟨dir, last?⟩ := parent
    rw [hparent] at h
    cases last? with
    | none => exact h
    | some name =>
      replace h : (if path.endsInSlash then _ else _) = _ := h
      show (if path.endsInSlash then _ else _) = _
      split at h
      next hslash => rw [if_pos hslash]; exact h
      next hslash =>
        rw [if_neg hslash]
        cases hstep : d.step dir name with
        | error f =>
          rw [hstep] at h
          exact h
        | ok q =>
          rw [hstep] at h
          replace h : (if d.node? q = some .directory then _ else _) = _ := h
          show (if d.node? q = some .directory then _ else _) = _
          split at h
          next hdir => rw [if_pos hdir]; exact h
          next => exact nomatch h

/-- **To fill a file that was just opened is to write it.** -/
theorem append_of_create {d₁ : Disk} (h : d.create path = .ok d₁) (content : ByteArray) :
    d₁.append path content = d.write path content := by
  obtain ⟨q, hq, rfl⟩ := write_eq_ok_iff.mp h
  have hkept : DirsKept d (d.set q (.file ByteArray.empty)) := dirsKept_set (node?_fileAt?_ne hq) _
  have hnode : (d.set q (.file ByteArray.empty)).node? q = some (.file ByteArray.empty) := by
    rw [node?_set _ (ne_root (node?_fileAt?_ne hq)), if_pos rfl]
  have hwrite : d.write path content = .ok (d.set q (.file content)) :=
    write_eq_ok_iff.mpr ⟨q, hq, rfl⟩
  rw [hwrite]
  unfold append
  refine bind_eq_ok_iff.mpr ⟨q, (locate_of_fileAt? hq hkept hnode).1, ?_⟩
  rw [hnode]
  dsimp only
  rw [set_set, ByteArray.empty_append]

/-- **On a disk, the steps of writing a file are one request**: no step fails but the first. -/
theorem run_save {n : Type → Type} [Monad n] [LawfulMonad n] [Memory n] (path : Path)
    (content : ByteArray) (d : Disk) :
    (FileStore.save path content : StateT Disk n _).run d
      = (attempt (·.write path content) : StateT Disk n _).run d := by
  have hfirst : (FileStore.create path : StateT Disk n _) = attempt (·.create path) := rfl
  have hsecond : (FileStore.append path content : StateT Disk n _)
      = attempt (·.append path content) := rfl
  unfold FileStore.save FileStore.write
  rw [StateT.run_bind, StateT.run_bind, hfirst]
  cases hcreate : d.create path with
  | error fault =>
    rw [attempt_of_error hcreate, attempt_of_error (write_eq_error_congr hcreate content)]
    simp
  | ok d₁ =>
    obtain ⟨q, hq, -⟩ := write_eq_ok_iff.mp hcreate
    have hwrite : d.write path content = .ok (d.set q (.file content)) :=
      write_eq_ok_iff.mpr ⟨q, hq, rfl⟩
    have happend : d₁.append path content = .ok (d.set q (.file content)) :=
      (append_of_create hcreate content).trans hwrite
    rw [attempt_of_ok hcreate, attempt_of_ok hwrite, pure_bind, hsecond,
      attempt_of_ok happend, pure_bind]
    rfl

end EntitySchema.Disk
