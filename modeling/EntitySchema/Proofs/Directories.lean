import EntitySchema.Proofs.Actions
import EntitySchema.Proofs.Walking

/-!
# Making directories

To make a directory and the missing ones above it adds directories, each at a place where nothing
was and to which one of these paths leads (`Disk.Made`). This holds of an attempt that fails as
well: what it has made before it failed stays.
-/

namespace EntitySchema

namespace Disk

variable {d d' d'' : Disk} {p : Path} {paths : List Path}

/-- What is new on the second disk are directories at the ends of these paths. -/
structure Made (paths : List Path) (d d' : Disk) : Prop where
  here : d'.here = d.here
  /-- Each difference is a directory in place of nothing. -/
  fresh : ∀ q, d'.node? q ≠ d.node? q → d.node? q = none ∧ d'.node? q = some .directory
  /-- One of the paths leads to it. -/
  named : ∀ q, d'.node? q ≠ d.node? q → ∃ p ∈ paths, d'.locate p = .ok q

namespace Made

theorem refl (paths : List Path) (d : Disk) : Made paths d d :=
  ⟨rfl, fun _ h => absurd rfl h, fun _ h => absurd rfl h⟩

theorem dirsKept (h : Made paths d d') : DirsKept d d' := by
  refine ⟨h.here, ?_⟩
  intro q hq
  by_cases hsame : d'.node? q = d.node? q
  · rw [hsame]
    exact hq
  · rw [(h.fresh q hsame).1] at hq
    exact nomatch hq

theorem of_subset {more : List Path} (h : Made paths d d') (hsub : ∀ p ∈ paths, p ∈ more) :
    Made more d d' := by
  refine ⟨h.here, h.fresh, ?_⟩
  intro q hq
  obtain ⟨p, hp, hlocate⟩ := h.named q hq
  exact ⟨p, hsub p hp, hlocate⟩

theorem trans (h : Made paths d d') (h' : Made paths d' d'') : Made paths d d'' := by
  have hboth (q : Place) (hq : d''.node? q ≠ d.node? q) :
      (d.node? q = none ∧ d''.node? q = some .directory)
        ∧ ∃ p ∈ paths, d''.locate p = .ok q := by
    by_cases hlater : d''.node? q = d'.node? q
    · -- it was made on the way to the second disk, and is still there
      rw [hlater] at hq ⊢
      obtain ⟨p, hp, hlocate⟩ := h.named q hq
      refine ⟨h.fresh q hq, p, hp, ?_⟩
      exact locate_of_dirsKept h'.dirsKept hlocate (h.fresh q hq).2
    · obtain ⟨hnone, hdir⟩ := h'.fresh q hlater
      refine ⟨⟨?_, hdir⟩, h'.named q hlater⟩
      by_cases hearlier : d'.node? q = d.node? q
      · exact hearlier.symm.trans hnone
      · rw [(h.fresh q hearlier).2] at hnone
        exact nomatch hnone
  exact ⟨h'.here.trans h.here, fun q hq => (hboth q hq).1, fun q hq => (hboth q hq).2⟩

end Made

/-- A directory that is made is all that is new. -/
theorem made_of_makeDir (h : d.makeDir p = .ok d') : Made [p] d d' := by
  obtain ⟨dir, name, hentry, hnone, rfl⟩ := makeDir_eq_ok_iff.mp h
  have hq : d.node? (dir ++ [name]) ≠ some .directory := by
    rw [hnone]
    exact nofun
  have hnode (q : Place) := node?_set d (ne_root hq) .directory q
  have hplace {q : Place} (hne : (d.set (dir ++ [name]) .directory).node? q ≠ d.node? q) :
      q = dir ++ [name] := by
    refine Decidable.byContradiction fun hother => hne ?_
    rw [hnode, if_neg hother]
  refine ⟨rfl, ?_, ?_⟩
  · intro q hne
    rw [hplace hne]
    exact ⟨hnone, by rw [hnode, if_pos rfl]⟩
  · intro q hne
    rw [hplace hne]
    refine ⟨p, List.mem_singleton_self p, ?_⟩
    refine (hentry.of_dirsKept (dirsKept_set hq _)).locate_eq (n := .directory) ?_ fun _ => rfl
    rw [hnode, if_pos rfl]

/-! ## Actions that make directories only -/

/-- An action that adds directories at the ends of these paths, and changes nothing else. -/
def Makes {α : Type} (paths : List Path) (a : StateM Disk α) : Prop :=
  ∀ d, Made paths d (a.run d).2

namespace Makes

variable {α β : Type} {a : StateM Disk α} {f : α → StateM Disk β}

theorem of_keeps (h : Keeps a) (paths : List Path) : Makes paths a := by
  intro d
  rw [h d]
  exact .refl paths d

theorem of_subset {more : List Path} (h : Makes paths a) (hsub : ∀ p ∈ paths, p ∈ more) :
    Makes more a :=
  fun d => (h d).of_subset hsub

theorem bind (ha : Makes paths a) (hf : ∀ x, Makes paths (f x)) : Makes paths (a >>= f) :=
  fun d => (ha d).trans (hf _ _)

end Makes

theorem makes_makeDir (p : Path) : Makes [p] (FileStore.makeDir p : StateM Disk _) := by
  intro d
  show Made [p] d ((attempt (·.makeDir p) : StateM Disk _).run d).2
  cases hmake : d.makeDir p with
  | error fault =>
    rw [attempt_of_error hmake]
    exact .refl _ d
  | ok d' =>
    rw [attempt_of_ok hmake]
    exact made_of_makeDir hmake

theorem keeps_settle (p : Path) (result : Except FileFault Unit) :
    Keeps (FileStore.makeDirsFrom.settle p result : StateM Disk _) := by
  cases result with
  | ok u => exact .pure _
  | error fault =>
    have hlook : Keeps (FileStore.isDir p : StateM Disk _) := fun _ => rfl
    refine hlook.bind ?_
    intro found
    cases found with
    | true => exact .pure _
    | false => exact .pure _

/-- **To make directories adds directories,** whether it succeeds or not. -/
theorem makes_makeDirsFrom (paths : List Path) :
    Makes paths (FileStore.makeDirsFrom paths : StateM Disk _) := by
  induction paths with
  | nil => exact .of_keeps (.pure _) _
  | cons p above ih =>
    have hfirst : Makes (p :: above) (FileStore.makeDir p : StateM Disk _) :=
      (makes_makeDir p).of_subset (by simp)
    have hsettle (result : Except FileFault Unit) :
        Makes (p :: above) (FileStore.makeDirsFrom.settle p result : StateM Disk _) :=
      .of_keeps (keeps_settle p result) _
    refine hfirst.bind ?_
    intro result
    cases result with
    | ok u => exact .of_keeps (.pure _) _
    | error fault =>
      cases fault with
      | notFound =>
        -- those above are made first, and then the directory is tried again
        refine (ih.of_subset fun _ => List.mem_cons_of_mem p).bind ?_
        intro rest
        cases rest with
        | error fault => exact .of_keeps (.pure _) _
        | ok u => exact hfirst.bind hsettle
      | _ => exact hsettle _

theorem makes_makeDirs (p : Path) :
    Makes p.ancestors (FileStore.makeDirs p : StateM Disk _) :=
  makes_makeDirsFrom p.ancestors

end Disk

end EntitySchema
