import FrameScan.AddressRange
import FrameScan.Listing
import FrameScan.Source
import FrameScan.Text.Blank

/-!
# The mappings of a process

Each line of the listing begins with the address range of a mapping, the second
address being the first one past it. Four more fields follow, then perhaps a
path name, which is the label of the span.
-/

namespace FrameScan.Source.Maps

/-- What follows the n-th space. -/
def afterSpaces : Nat → List Char → Option (List Char)
  | 0, text => some text
  | n + 1, text =>
    match text.dropWhile (· != ' ') with
    | [] => none
    | _ :: rest => afterSpaces n rest

def label (line : List Char) : String :=
  match afterSpaces 5 line with
  | some text => String.ofList (Text.trimStart text)
  | none => ""

def span? (size : PageSize) (line : List Char) : Option Span :=
  (AddressRange.ofLeading? line).map fun range =>
    Span.ofBounds (size.floor range.first) (size.ceil range.last) (label line)

def event (size : PageSize) : Except SystemError String → Event
  | .error cause => .failure (.resourceUnavailable "maps listing" cause)
  | .ok line =>
    match span? size line.toList with
    | some span => .span span
    | none => .notice (.unreadableMapping line)

end FrameScan.Source.Maps

namespace FrameScan.Source

def maps (settings : Settings) (listing : Listing) : Source :=
  listing.lines.map (Maps.event settings.pageSize)

end FrameScan.Source
