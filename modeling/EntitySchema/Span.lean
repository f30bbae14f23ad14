/-!
# Spans

A stretch of a source text, in bytes.
-/

namespace EntitySchema

/-- The bytes from `start` up to, and without, `stop`. -/
structure Span where
  start : Nat
  stop : Nat
  deriving DecidableEq, Repr

namespace Span

/-- How many bytes the span covers; none when it ends before it starts. -/
def length (s : Span) : Nat := s.stop - s.start

/-- Whether the span covers no byte. -/
def isEmpty (s : Span) : Bool := s.length == 0

/-- The span as messages show it: its two ends with two dots between. -/
def text (s : Span) : String := toString s.start ++ ".." ++ toString s.stop

/-- The span of the same bytes when `n` more bytes stand before them. -/
def shift (n : Nat) (s : Span) : Span := ⟨n + s.start, n + s.stop⟩

end Span

end EntitySchema
