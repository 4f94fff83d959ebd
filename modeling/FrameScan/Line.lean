import FrameScan.FrameFlags
import FrameScan.Span
import FrameScan.Target

/-!
# The line stream

The output is a sequence of lines: one header, then a `v` line for each span and
after it a `p` line for each page of the span that is reported. Addresses and
flag words have sixteen digits.
-/

namespace FrameScan

/-- What is reported of a page: the frame that a virtual page lies in, or the
flags of a physical frame. -/
inductive PageContent where
  | frame (physical : UInt64) (exclusive shared : Bool)
  | flags (flags : FrameFlags)
  deriving DecidableEq, Repr

inductive Line where
  | header (target : Target) (label : String)
  | span (span : Span)
  | page (address : UInt64) (content : PageContent)
  deriving DecidableEq, Repr

open Text.Numeral (paddedHex)

namespace PageContent

def bitText (b : Bool) : String :=
  if b then "1" else "0"

def text : PageContent → String
  | .frame physical exclusive shared =>
    s!"{paddedHex physical} {bitText exclusive} {bitText shared}"
  | .flags f => paddedHex f.word

end PageContent

namespace Line

/-- The line without the line feed that ends it. -/
def text : Line → String
  | .header target label => s!"= {target.id} {label}"
  | .span s => s!"v {paddedHex s.start} {paddedHex s.stop} {s.label}"
  | .page address content => s!"p {paddedHex address} {content.text}"

def bytes (line : Line) : ByteArray :=
  (line.text ++ "\n").toByteArray

theorem size_bytes_pos (line : Line) : 0 < line.bytes.size := by
  have : "\n".utf8ByteSize = 1 := by decide
  rw [bytes, String.size_toByteArray, String.utf8ByteSize_append]
  omega

end Line

end FrameScan
