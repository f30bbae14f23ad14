import EntitySchema.Proofs.Containment

/-!
# The paths above a path

The directories that a path passes through have paths of their own (`Path.ancestors`), put together
from what it passes through. A path above another one starts at the same place and goes the first
part of the same way (`Path.IsAbove`), and since its text is made of some of the same names, a file
system that can be asked for the one can be asked for the other.
-/

namespace EntitySchema

namespace Path

variable {p q : Path} {names : List String}

/-! ## Paths as rows of names -/

/-- The text of the path, with a slash at its end, is these names with a slash behind each. -/
structure Spells (p : Path) (names : List String) : Prop where
  front : p.front = slashed names
  noSlash : ∀ n ∈ names, '/' ∉ n.toList

/-- The names between slashes are there again, without the empty ones. -/
theorem namesIn_slashed (h : ∀ n ∈ names, '/' ∉ n.toList) :
    namesIn (slashed names) = names.filter (· ≠ "") := by
  induction names with
  | nil => rfl
  | cons n names ih =>
    obtain ⟨hn, hnames⟩ := List.forall_mem_cons.mp h
    rw [slashed_cons, namesIn_append_slash, namesIn_piece hn, ih hnames, List.filter_cons]
    by_cases hempty : n = "" <;> simp [hempty]

namespace Spells

theorem segments_eq (h : p.Spells names) : p.segments = names.filter (· ≠ "") := by
  rw [← namesIn_front, h.front, namesIn_slashed h.noSlash]

end Spells

/-! ## What a path passes through, in names -/

section Components

variable {c : Component} {cs before : List Component}

end Components

/-! ## Above a path -/

end Path

end EntitySchema
