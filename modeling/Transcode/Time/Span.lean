/-
**Spans of time** in whole seconds and nanoseconds.
-/

namespace Transcode

/-- A span of time; the nanoseconds are less than a second. -/
structure Span where
  seconds : Nat
  nanos : Nat
  deriving DecidableEq, Repr

namespace Span

/-- The nanoseconds of a second. -/
def nanosPerSecond : Nat := 1000000000

/-- No time. -/
def zero : Span :=
  ⟨0, 0⟩

/-- The span of so many nanoseconds. -/
def ofNanos (nanos : Nat) : Span :=
  ⟨nanos / nanosPerSecond, nanos % nanosPerSecond⟩

/-- All of the span in nanoseconds. -/
def toNanos (span : Span) : Nat :=
  span.seconds * nanosPerSecond + span.nanos

instance : Add Span where
  add span other := ofNanos (span.toNanos + other.toNanos)

/-- The spans together. -/
def total (spans : List Span) : Span :=
  spans.foldl (· + ·) zero

end Span

end Transcode
