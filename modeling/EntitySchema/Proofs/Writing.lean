import Mathlib.Data.List.Forall2
import EntitySchema.Proofs.Checks
import EntitySchema.Proofs.Placement

/-!
# Writing the files of entities

Writing files changes no directory, so whether the file of an entity can be written does not depend
on the files written before it. A run over entities therefore comes to putting a list of files on
the disk on which it starts (`Generator.outcomes_run`), and what stands at a place afterwards is the
last of them that was put there.
-/

namespace EntitySchema

namespace Disk

variable {d d' : Disk} {q : Place} {content : ByteArray}

/-! ## Putting files on a disk -/

/-- The same things stand at the same places, and relative paths start at the same one. -/
def Same (d d' : Disk) : Prop := d.here = d'.here ∧ ∀ q, d.node? q = d'.node? q

/-- The disk with these files put at their places, one after the other. -/
def putFiles (d : Disk) : List (Place × ByteArray) → Disk
  | [] => d
  | (q, content) :: files => (d.set q (.file content)).putFiles files

@[simp] theorem here_putFiles (d : Disk) (files : List (Place × ByteArray)) :
    (d.putFiles files).here = d.here := by
  induction files generalizing d with
  | nil => rfl
  | cons f files ih => exact (ih (d.set f.1 (.file f.2))).trans rfl

theorem putFiles_append (d : Disk) (files more : List (Place × ByteArray)) :
    d.putFiles (files ++ more) = (d.putFiles files).putFiles more := by
  induction files generalizing d with
  | nil => rfl
  | cons f files ih => exact ih (d.set f.1 (.file f.2))

/-- Where no file is put, everything stays as it was. -/
theorem node?_putFiles_of_not_mem {files : List (Place × ByteArray)}
    (hroot : ∀ f ∈ files, f.1 ≠ []) (hq : ∀ f ∈ files, f.1 ≠ q) :
    (d.putFiles files).node? q = d.node? q := by
  induction files generalizing d with
  | nil => rfl
  | cons f files ih =>
    have hrest : ((d.set f.1 (.file f.2)).putFiles files).node? q
        = (d.set f.1 (.file f.2)).node? q :=
      ih (fun f hf => hroot f (List.mem_cons_of_mem _ hf))
        (fun f hf => hq f (List.mem_cons_of_mem _ hf))
    have hne : q ≠ f.1 := fun h => hq f List.mem_cons_self h.symm
    rw [node?_set d (hroot f List.mem_cons_self), if_neg hne] at hrest
    exact hrest

/-- **Where files are put, the last of them stays.** -/
theorem node?_putFiles_last {files more : List (Place × ByteArray)} (hq : q ≠ [])
    (hroot : ∀ f ∈ more, f.1 ≠ []) (hlast : ∀ f ∈ more, f.1 ≠ q) :
    (d.putFiles (files ++ (q, content) :: more)).node? q = some (.file content) := by
  rw [putFiles_append]
  show (((d.putFiles files).set q (.file content)).putFiles more).node? q = _
  rw [node?_putFiles_of_not_mem hroot hlast, node?_set _ hq, if_pos rfl]

/-- Files at places where no directory is leave the directories as they are. -/
theorem dirsKept_putFiles {d₀ : Disk} {files : List (Place × ByteArray)}
    (hfree : ∀ f ∈ files, d₀.node? f.1 ≠ some .directory) (hkept : DirsKept d₀ d)
    (hback : DirsKept d d₀) :
    DirsKept d₀ (d.putFiles files) ∧ DirsKept (d.putFiles files) d₀ := by
  induction files generalizing d with
  | nil => exact ⟨hkept, hback⟩
  | cons f files ih =>
    obtain ⟨hf, hfree⟩ := List.forall_mem_cons.mp hfree
    have hf : d.node? f.1 ≠ some .directory := fun h => hf (hback.directory f.1 h)
    exact ih hfree (hkept.trans (dirsKept_set hf _)) ((dirsKept_of_set_file hf _).trans hback)

/-- Files at different places can be put there in any order. -/
theorem same_putFiles_of_perm {files files' : List (Place × ByteArray)}
    (hroot : ∀ f ∈ files, f.1 ≠ []) (hnodup : (files.map Prod.fst).Nodup)
    (hperm : files.Perm files') : Same (d.putFiles files) (d.putFiles files') := by
  -- a file that is put at a place stays there, because no other one is put there
  have hstays {fs : List (Place × ByteArray)} (hroot : ∀ f ∈ fs, f.1 ≠ [])
      (hnodup : (fs.map Prod.fst).Nodup) {f : Place × ByteArray} (hf : f ∈ fs) :
      (d.putFiles fs).node? f.1 = some (.file f.2) := by
    obtain ⟨before, after, rfl⟩ := List.append_of_mem hf
    rw [List.map_append, List.map_cons, List.nodup_append] at hnodup
    have hfirst := (List.nodup_cons.mp hnodup.2.1).1
    refine node?_putFiles_last (hroot f hf) ?_ ?_
    · intro x hx
      exact hroot x (List.mem_append_right _ (List.mem_cons_of_mem _ hx))
    · intro x hx heq
      exact hfirst (heq ▸ List.mem_map_of_mem hx)
  have hroot' : ∀ f ∈ files', f.1 ≠ [] := fun f hf => hroot f (hperm.mem_iff.mpr hf)
  have hnodup' : (files'.map Prod.fst).Nodup := (hperm.map Prod.fst).nodup_iff.mp hnodup
  refine ⟨by simp, ?_⟩
  intro q
  by_cases hq : ∃ f ∈ files, f.1 = q
  · obtain ⟨f, hf, rfl⟩ := hq
    rw [hstays hroot hnodup hf, hstays hroot' hnodup' (hperm.mem_iff.mp hf)]
  · have hnot : ∀ f ∈ files, f.1 ≠ q := fun f hf h => hq ⟨f, hf, h⟩
    have hnot' : ∀ f ∈ files', f.1 ≠ q := fun f hf => hnot f (hperm.mem_iff.mpr hf)
    rw [node?_putFiles_of_not_mem hroot hnot, node?_putFiles_of_not_mem hroot' hnot']

end Disk

namespace Generator

variable {g : Generator} {d d₀ d₁ : Disk} {e : Entity} {q : Place} {content : ByteArray}

/-! ## One entity -/

/-- The file that can be written for an entity on the disk as it is: its place, and what it is to
hold. -/
def file? (g : Generator) (d : Disk) (e : Entity) : Option (Place × ByteArray) :=
  match Java.render g.options e with
  | .error _ => none
  | .ok code => (d.fileAt? (g.outputPath e)).map fun q => (q, code.toUTF8)

theorem file?_eq_some_iff :
    g.file? d e = some (q, content) ↔ d.fileAt? (g.outputPath e) = some q
      ∧ ∃ code, Java.render g.options e = .ok code ∧ content = code.toUTF8 := by
  unfold file?
  cases hrender : Java.render g.options e with
  | error fault => simp
  | ok code =>
    simp only [Option.map_eq_some_iff, Prod.mk.injEq, Except.ok.injEq, exists_eq_left']
    constructor
    · rintro ⟨q', hq', rfl, rfl⟩
      exact ⟨hq', rfl⟩
    · rintro ⟨hq, rfl⟩
      exact ⟨q, hq, rfl, rfl⟩

/-- Whether the class of an entity can be written on the disk as it is: there is a class, and its
file can be opened. -/
def CanWrite (g : Generator) (d : Disk) (e : Entity) : Prop :=
  ∃ code, Java.render g.options e = .ok code
    ∧ ∃ d', d.write (g.outputPath e) code.toUTF8 = .ok d'

theorem canWrite_iff_file? : g.CanWrite d e ↔ (g.file? d e).isSome := by
  rw [Option.isSome_iff_exists]
  constructor
  · rintro ⟨code, hcode, d', hwrite⟩
    obtain ⟨q, hq, -⟩ := Disk.write_eq_ok_iff.mp hwrite
    exact ⟨(q, code.toUTF8), file?_eq_some_iff.mpr ⟨hq, code, hcode, rfl⟩⟩
  · rintro ⟨⟨q, content⟩, hfile⟩
    obtain ⟨hq, code, hcode, rfl⟩ := file?_eq_some_iff.mp hfile
    exact ⟨code, hcode, _, Disk.write_eq_ok_iff.mpr ⟨q, hq, rfl⟩⟩

theorem file?_of_dirsKept (hkept : d₀.DirsKept d) (hback : d.DirsKept d₀) :
    g.file? d e = g.file? d₀ e := by
  unfold file?
  rw [Disk.fileAt?_of_dirsKept hkept hback]

theorem root_of_file? {f : Place × ByteArray} (h : g.file? d e = some f) : f.1 ≠ [] := by
  obtain ⟨hq, -⟩ := file?_eq_some_iff.mp h
  exact Disk.ne_root (Disk.node?_fileAt?_ne hq)

/-- To write an entity that has a class is to write its file. -/
theorem run_writeEntity {code : String} (hcode : Java.render g.options e = .ok code) (d : Disk) :
    (g.writeEntity e : StateM Disk _).run d
      = match d.write (g.outputPath e) code.toUTF8 with
        | .ok d' => (.ok (g.outputPath e), d')
        | .error fault => (.error (.write (g.outputPath e) fault), d) := by
  obtain ⟨members, hmembers, rfl⟩ := Java.render_eq_ok_iff.mp hcode
  have htext : (Java.textIn g.options e members : StateM Disk _)
      = pure (Java.fileText g.options e members) := rfl
  unfold writeEntity FileStore.saveText
  rw [hmembers]
  dsimp only
  rw [htext, pure_bind, StateT.run_bind, Disk.run_save]
  cases hwrite : d.write (g.outputPath e) (Java.fileText g.options e members).toUTF8 with
  | error fault =>
    rw [Disk.attempt_of_error hwrite]
    rfl
  | ok d' =>
    rw [Disk.attempt_of_ok hwrite]
    rfl

/-- **An entity with a file that can be written gets that file.** -/
theorem writeEntity_of_file? (h : g.file? d e = some (q, content)) :
    (g.writeEntity e : StateM Disk _).run d
      = (.ok (g.outputPath e), d.set q (.file content)) := by
  obtain ⟨hq, code, hcode, rfl⟩ := file?_eq_some_iff.mp h
  rw [run_writeEntity hcode, Disk.write_eq_ok_iff.mpr ⟨q, hq, rfl⟩]

/-- **Any other entity fails, and nothing changes.** -/
theorem writeEntity_of_not_file? (h : g.file? d e = none) :
    ∃ fault, (g.writeEntity e : StateM Disk _).run d = (.error fault, d) := by
  cases hrender : Java.render g.options e with
  | error fault =>
    unfold writeEntity
    rw [Java.render_eq_error_iff_membersOf.mp hrender]
    exact ⟨_, rfl⟩
  | ok code =>
    rw [run_writeEntity hrender]
    cases hwrite : d.write (g.outputPath e) code.toUTF8 with
    | error fault => exact ⟨_, rfl⟩
    | ok d' =>
      obtain ⟨q, hq, -⟩ := Disk.write_eq_ok_iff.mp hwrite
      rw [file?_eq_some_iff.mpr ⟨hq, code, hrender, rfl⟩] at h
      exact nomatch h

/-! ## A run over entities -/

theorem outcomes_cons (g : Generator) (dir : Except FileFault Unit) (e : Entity) (es : List Entity)
    (d : Disk) : (g.outcomes dir (e :: es) : StateM Disk _).run d
      = (((g.outcome dir e : StateM Disk _).run d).1 ::
          ((g.outcomes dir es : StateM Disk _).run ((g.outcome dir e : StateM Disk _).run d).2).1,
        ((g.outcomes dir es : StateM Disk _).run ((g.outcome dir e : StateM Disk _).run d).2).2) :=
  rfl

theorem generateEach_eq {dir : Except FileFault Unit}
    (hdir : (FileStore.makeDirs g.outputDir : StateM Disk _).run d = (dir, d₁))
    (es : List Entity) : (g.generateEach es : StateM Disk _).run d
      = (⟨((g.outcomes dir es : StateM Disk _).run d₁).1⟩,
        ((g.outcomes dir es : StateM Disk _).run d₁).2) := by
  unfold generateEach
  rw [StateT.run_bind, hdir]
  rfl

/-- What becomes of an entity exactly if the disk allows its class to be written. -/
def Fits (g : Generator) (d : Disk) (e : Entity) (o : Outcome) : Prop :=
  o.entity = e.name ∧ ∀ path, o.result = .ok path ↔ path = g.outputPath e ∧ g.CanWrite d e

/-- The files that a run over entities writes, in the order in which it writes them. -/
def files (g : Generator) (d : Disk) (es : List Entity) : List (Place × ByteArray) :=
  es.filterMap (g.file? d)

/-- One entity of a run: what becomes of it, and which files are on the disk then. -/
theorem outcome_run (hkept : d₀.DirsKept d) (hback : d.DirsKept d₀) (e : Entity) :
    ∃ o, (g.outcome (.ok ()) e : StateM Disk _).run d = (o, d.putFiles (g.files d₀ [e]))
      ∧ g.Fits d₀ e o := by
  have hsame : g.file? d e = g.file? d₀ e := file?_of_dirsKept hkept hback
  unfold outcome files Fits
  dsimp only
  rw [canWrite_iff_file?, ← hsame, StateT.run_bind]
  cases hfile : g.file? d e with
  | none =>
    obtain ⟨fault, hwrite⟩ := writeEntity_of_not_file? hfile
    rw [hwrite]
    refine ⟨⟨e.name, .error fault⟩, ?_, rfl, ?_⟩
    · rw [List.filterMap_cons_none (hsame.symm.trans hfile)]
      rfl
    · intro path
      exact ⟨nofun, fun h => nomatch h.2⟩
  | some f =>
    rw [writeEntity_of_file? hfile]
    refine ⟨⟨e.name, .ok (g.outputPath e)⟩, ?_, rfl, ?_⟩
    · rw [List.filterMap_cons_some (hsame.symm.trans hfile)]
      rfl
    · intro path
      constructor
      · intro h
        cases h
        exact ⟨rfl, rfl⟩
      · rintro ⟨rfl, -⟩
        rfl

/-- Files for entities leave the directories as they are. -/
theorem dirsKept_putFiles (hkept : d₀.DirsKept d) (hback : d.DirsKept d₀) (es : List Entity) :
    d₀.DirsKept (d.putFiles (g.files d₀ es)) ∧ (d.putFiles (g.files d₀ es)).DirsKept d₀ := by
  refine Disk.dirsKept_putFiles (fun f hf => ?_) hkept hback
  obtain ⟨e, -, hfile⟩ := List.mem_filterMap.mp hf
  exact Disk.node?_fileAt?_ne (file?_eq_some_iff.mp hfile).1

/-- **A run over entities puts their files on the disk,** and the disk on which it starts decides
what becomes of each of them. -/
theorem outcomes_run (hkept : d₀.DirsKept d) (hback : d.DirsKept d₀) (es : List Entity) :
    ∃ os, (g.outcomes (.ok ()) es : StateM Disk _).run d = (os, d.putFiles (g.files d₀ es))
      ∧ List.Forall₂ (g.Fits d₀) es os := by
  induction es generalizing d with
  | nil => exact ⟨[], rfl, .nil⟩
  | cons e es ih =>
    obtain ⟨o, hfirst, hfits⟩ := outcome_run (g := g) hkept hback e
    -- the first file leaves the directories as they are, so the rest runs as from the start
    obtain ⟨hkept', hback'⟩ := dirsKept_putFiles (g := g) hkept hback [e]
    obtain ⟨os, hrest, hall⟩ := ih hkept' hback'
    refine ⟨o :: os, ?_, .cons hfits hall⟩
    have hfiles : g.files d₀ (e :: es) = g.files d₀ [e] ++ g.files d₀ es :=
      List.filterMap_append (l := [e])
    rw [outcomes_cons, hfirst, hrest, hfiles, Disk.putFiles_append]

end Generator

end EntitySchema
