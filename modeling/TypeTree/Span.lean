/-
  Spans: the part of a source text that a node covers, as a start and an end offset.

  The end is not required to come after the start.  A span that runs backwards has no length,
  and `Span.length` says so instead of inventing one.
-/
import TypeTree.Overflow

namespace TypeTree

/-- A start and an end offset, each a 32-bit word. -/
structure Span where
  start : UInt32
  stop : UInt32
  deriving DecidableEq, Repr

namespace Span

/-- The span from 0 to 0. -/
instance : Inhabited Span := ⟨⟨0, 0⟩⟩

/-- The number of offsets covered.  There is none if the span runs backwards. -/
def length (s : Span) : Except Overflow UInt32 :=
  if s.start ≤ s.stop then .ok (s.stop - s.start) else .error .difference

/-- Start and end are the same offset. -/
def isEmpty (s : Span) : Bool :=
  s.start == s.stop

/-- `a.encloses b`: both ends of `b` lie within `a`. -/
def encloses (a b : Span) : Bool :=
  decide (a.start ≤ b.start) && decide (b.stop ≤ a.stop)

end Span

end TypeTree
