/-!
# Spans

A span is a half-open range of places, counted in tokens or in bytes. The searches of this library
never reverse a span, but one that is given from outside may be reversed, and then covers nothing.
-/

namespace Tagging

/-- The places from `start` up to, and not including, `stop`. -/
structure Span where
  /-- The first place covered. -/
  start : Nat
  /-- The place just past the last one covered. -/
  stop : Nat
deriving DecidableEq, Repr, Inhabited

namespace Span

/-- Whether the span covers no place. -/
def isEmpty (span : Span) : Bool :=
  decide (span.stop ≤ span.start)

/-- The number of places covered. -/
def length (span : Span) : Nat :=
  span.stop - span.start

/-- Reaches as far as `other` does, if that is farther. -/
def reach (span other : Span) : Span := ⟨span.start, max span.stop other.stop⟩

/-- The two ends, as they are shown. -/
def describe (span : Span) : String :=
  toString span.start ++ ".." ++ toString span.stop

end Span

end Tagging
