import EntitySchema.Proofs.Stopping

/-!
# Making directories again

To make a directory and the missing ones above it leaves a disk on which the same attempt changes
nothing. If it succeeded the directory is there now. If it failed, some path above, or the path
itself, could not be made a directory and still can not be, and everything in front of it is there;
a walk along the whole path stops at the same place (`Disk.StopsAt`), so the attempt fails again.

It fails for the same reason unless the attempt that failed met a file in the place of a directory
to be made, which the second one wants to pass through. The first attempt can only have come that
far by a step up from a directory that it had to make, because otherwise the walk along the whole
path would have met the file before anything was made (`Disk.up_of_file`).
-/

namespace EntitySchema

namespace Disk

variable {d d' : Disk} {path : Path} {fault : FileFault}

/-! ## Attempts -/

/-- **Where a directory is, none can be made.** -/
theorem makeDir_of_directory (h : d.kind? path = some .directory) :
    d.makeDir path = .error .alreadyExists := by
  obtain ⟨q, hlocate, hq⟩ := exists_locate_directory h
  obtain ⟨⟨p, hstart, hwalk⟩, -⟩ := locate_eq_ok_iff.mp hlocate
  by_cases hnil : path.segments = []
  · exact makeDir_of_no_names hstart hnil
  obtain ⟨names, name, hsegments⟩ : ∃ names name, path.segments = names ++ [name] :=
    ⟨_, _, (List.dropLast_concat_getLast hnil).symm⟩
  rw [hsegments] at hwalk
  obtain ⟨r, hr, hlast⟩ := walk_append_eq_ok_iff.mp hwalk
  rw [walk_singleton] at hlast
  obtain ⟨hstep, hsome⟩ := stepInto_eq_ok_iff.mp hlast
  rw [makeDir_eq hstart hsegments, hr]
  show (if d.node? r ≠ some .directory then _ else _) = _
  rw [if_neg (not_not_intro (directory_of_step hstep))]
  split
  · rfl
  · rw [hstep]
    exact if_pos hsome

/-- What an attempt comes to that fails: a directory that is there is as good as one just made. -/
def settled (d : Disk) (path : Path) (fault : FileFault) : Except FileFault Unit :=
  if d.kind? path = some .directory then .ok () else .error fault

section Attempts

open FileStore

variable {paths : List Path}

theorem run_settle_error (d : Disk) (path : Path) (fault : FileFault) :
    (makeDirsFrom.settle path (.error fault) : StateM Disk _).run d
      = (d.settled path fault, d) := by
  unfold makeDirsFrom.settle settled
  dsimp only
  rw [StateT.run_bind, run_isDir]
  by_cases hdir : d.kind? path = some .directory
  · rw [decide_eq_true hdir, if_pos hdir]
    rfl
  · rw [decide_eq_false hdir, if_neg hdir]
    rfl

/-- A directory is made in the second attempt if what was missing above it could be made. -/
theorem run_makeDirsFrom_cons (path : Path) (paths : List Path) (d : Disk) :
    (makeDirsFrom (path :: paths) : StateM Disk _).run d
      = match d.makeDir path with
        | .ok d' => (.ok (), d')
        | .error .notFound =>
          match (makeDirsFrom paths : StateM Disk _).run d with
          | (.error fault, d₁) => (.error fault, d₁)
          | (.ok (), d₁) =>
            match d₁.makeDir path with
            | .ok d₂ => (.ok (), d₂)
            | .error fault => (d₁.settled path fault, d₁)
        | .error fault => (d.settled path fault, d) := by
  have hfirst (d : Disk) : (FileStore.makeDir path : StateM Disk _).run d
      = (attempt (·.makeDir path)).run d := rfl
  conv_lhs => unfold makeDirsFrom
  rw [StateT.run_bind, hfirst]
  cases hmake : d.makeDir path with
  | ok d' =>
    rw [attempt_of_ok hmake]
    rfl
  | error fault =>
    rw [attempt_of_error hmake]
    cases fault with
    | notFound =>
      show (makeDirsFrom paths >>= _ : StateM Disk _).run d = _
      rw [StateT.run_bind]
      dsimp only
      obtain ⟨rest, d₁⟩ := (makeDirsFrom paths : StateM Disk _).run d
      cases rest with
      | error fault => rfl
      | ok u =>
        show (FileStore.makeDir path >>= _ : StateM Disk _).run d₁ = _
        rw [StateT.run_bind, hfirst]
        dsimp only
        cases hagain : d₁.makeDir path with
        | ok d₂ =>
          rw [attempt_of_ok hagain]
          rfl
        | error fault =>
          rw [attempt_of_error hagain]
          exact run_settle_error d₁ path fault
    | _ => exact run_settle_error d path _

/-- **Where a directory is, to make it and those above it changes nothing.** -/
theorem run_makeDirsFrom_of_directory (h : d.kind? path = some .directory) (paths : List Path) :
    (makeDirsFrom (path :: paths) : StateM Disk _).run d = (.ok (), d) := by
  rw [run_makeDirsFrom_cons, makeDir_of_directory h]
  exact congrArg (·, d) (if_pos h)

end Attempts

end Disk

end EntitySchema
