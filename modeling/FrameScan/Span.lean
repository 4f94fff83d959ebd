/-!
# Spans

A half-open interval of addresses, with the name of the mapping or region that
it comes from.
-/

namespace FrameScan

structure Span where
  start : UInt64
  stop : UInt64
  label : String
  start_le_stop : start ≤ stop
  deriving DecidableEq, Repr

namespace Span

/-- The span from one bound to another, empty at the first if they are in the wrong order. -/
def ofBounds (start stop : UInt64) (label : String) : Span :=
  if h : start ≤ stop then ⟨start, stop, label, h⟩ else ⟨start, start, label, UInt64.le_refl _⟩

def length (span : Span) : UInt64 :=
  span.stop - span.start

def isEmpty (span : Span) : Bool :=
  span.start == span.stop

end Span

end FrameScan
