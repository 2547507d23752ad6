/-!
# Spans

A span is a half-open range of byte offsets. A located value carries the span it was read from.
-/

namespace Jawn

structure Span where
  start : Nat
  stop : Nat
  deriving DecidableEq, Repr

namespace Span

def length (s : Span) : Nat :=
  s.stop - s.start

def isEmpty (s : Span) : Bool :=
  s.start == s.stop

/-- The least span that covers both. -/
def union (s t : Span) : Span :=
  ⟨min s.start t.start, max s.stop t.stop⟩

end Span

/-- A value together with the part of the source it was read from. -/
structure Located (α : Type) where
  value : α
  span : Span
  deriving DecidableEq, Repr

end Jawn
