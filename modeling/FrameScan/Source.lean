import FrameScan.Notice

/-!
# Sources of spans

A source is what comes up, in order, when a listing is gone through: spans to
scan, failures, and notices.
-/

namespace FrameScan

inductive Source.Event where
  | span (span : Span)
  | failure (failure : Failure)
  | notice (notice : Notice)
  deriving DecidableEq

abbrev Source := List Source.Event

namespace Source

/-- The one span of all physical memory. -/
def physical (settings : Settings) : Source :=
  [.span (Span.ofBounds 0 settings.physicalEnd "physical")]

end Source

end FrameScan
