/-!
# Source spans

A span is a range of byte offsets in a source text together with the line on
which the range starts.  Tokens, tree nodes and error reports all carry spans.

Two spans are joined by `Span.merge`, which covers both and keeps the line of
the earlier start.
-/

namespace MatrixScript

/-- A range of byte offsets `start ≤ · < stop`, and the 1-based line of `start`. -/
structure Span where
  start : Nat
  stop : Nat
  line : Nat
deriving DecidableEq, Repr, Inhabited

namespace Span

/-- The least span over both spans, on the line of the one that starts first. -/
def merge (first second : Span) : Span where
  start := min first.start second.start
  stop := max first.stop second.stop
  line := if second.start < first.start then second.line else first.line

/-- The span as error reports show it. -/
def text (span : Span) : String :=
  s!"{span.start}..{span.stop} (line {span.line})"

@[simp]
theorem merge_self (span : Span) : span.merge span = span := by
  simp [merge]

end Span

/-- An item together with the span it was read from. -/
structure Located (α : Type) where
  item : α
  span : Span
deriving DecidableEq, Repr

end MatrixScript
