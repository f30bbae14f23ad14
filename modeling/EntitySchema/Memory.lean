import EntitySchema.Text.Size

/-!
# Memory

A text has at most `Text.maxSize` bytes. A run that is to make a longer one ends there: it comes to
no result and to no fault that it could report. What makes texts whose size is not that of its own
input takes the room for them first, so that it runs in a memory without end and on a machine alike.
-/

namespace EntitySchema

/-- What gives room for texts. -/
class Memory (m : Type → Type) where
  /-- Takes room for a text of this many bytes. -/
  allot : Nat → m Unit

/-- A memory without end. -/
instance : Memory Id where
  allot _ := ()

/-- The memory of a machine. The run ends at a text that is too large. -/
instance : Memory Option where
  allot size := if size ≤ Text.maxSize then some () else none

end EntitySchema
