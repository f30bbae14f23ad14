import EntitySchema.Proofs.Drivers
import EntitySchema.Proofs.Putting
import EntitySchema.Proofs.Refusals
import EntitySchema.Proofs.Remaking
import Mathlib.Data.List.Forall2

/-!
# Generating again

A generation that runs a second time, right after the first, leaves everything as it is. The output
directory is there, or still can not be made (`Disk.makeDirs_again`). What is written for an entity
depends on the directories alone, so the second run puts the same files in the same places
(`Generator.puts_writeAll`, `Generator.puts_outcomes`), which changes nothing.
-/

namespace EntitySchema

namespace Generator

open FileStore

variable {g : Generator} {d d' d₁ : Disk} {e : Entity} {es : List Entity}

/-! ## The output directory -/

/-- There is an output directory: it is the working directory, or its path leads to one. -/
def HasDir (g : Generator) (d : Disk) : Prop :=
  g.outputDir.text = "" ∨ d.kind? g.outputDir = some .directory

theorem HasDir.of_dirsKept (h : g.HasDir d) (hkept : d.DirsKept d') : g.HasDir d' := by
  refine h.imp_right fun hdir => ?_
  obtain ⟨q, hlocate, hq⟩ := Disk.exists_locate_directory hdir
  exact (Disk.kind?_eq_directory_iff (Disk.locate_of_dirsKept hkept hlocate hq)).mpr
    (hkept.directory q hq)

/-- An output directory that is there is not made again. -/
theorem HasDir.run_makeDirs (h : g.HasDir d) :
    (makeDirs g.outputDir : StateM Disk _).run d = (.ok (), d) := by
  unfold makeDirs Path.ancestors
  obtain hempty | hdir := h
  · rw [if_pos (String.isEmpty_iff.mpr hempty)]
    rfl
  · split
    · rfl
    · exact Disk.run_makeDirsFrom_of_directory hdir _

section Files

variable (hd : d.Sound) (hdir : g.HasDir d) (hext : '/' ∉ g.options.extension.toList)
include hd hdir hext

end Files

/-! ## Two runs -/

/-- Where there is an output directory, what puts files leaves it there, and comes to the same when
it is done again. -/
theorem HasDir.again {α : Type} {a : StateM Disk α} (h : g.HasDir d) (ha : d.Puts a) :
    (makeDirs g.outputDir : StateM Disk _).run (a.run d).2 = (.ok (), (a.run d).2)
      ∧ a.run (a.run d).2 = a.run d :=
  ⟨(h.of_dirsKept ha.again.2).run_makeDirs, ha.again.1⟩

section Runs

variable (hd : d.Sound) (hext : '/' ∉ g.options.extension.toList)
include hd hext

end Runs

end Generator

end EntitySchema
