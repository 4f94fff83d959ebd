import FrameScan.AddressRange
import FrameScan.Listing
import FrameScan.Source
import FrameScan.Text.Blank

/-!
# The kernel image in physical memory

In the listing of physical memory an indented line is a part of the region
above it. The parts whose name begins with `Kernel` hold the kernel image. The
second address of a line is the last one of its region.
-/

namespace FrameScan.Source.Iomem

def isIndented : List Char → Bool
  | [] => false
  | c :: _ => Text.isBlank c

/-- What follows the first colon that has a space on both sides. -/
def afterColon : List Char → Option (List Char)
  | [] => none
  | c :: rest =>
    if [' ', ':', ' '].isPrefixOf (c :: rest) then some (rest.drop 2) else afterColon rest

/-- The name of a part of the kernel image, of a line without its indentation. -/
def kernelLabel? (text : List Char) : Option String :=
  match (afterColon text).map Text.trimEnd with
  | some name => if "Kernel".toList.isPrefixOf name then some (String.ofList name) else none
  | none => none

/-- The address after the given one, unless that is the last there is. -/
def after (address : UInt64) : UInt64 :=
  if address = 0xFFFFFFFFFFFFFFFF then address else address + 1

def event? (size : PageSize) : Except SystemError String → Option Event
  | .error cause => some (.failure (.resourceUnavailable "iomem listing" cause))
  | .ok line =>
    if isIndented line.toList then
      let text := Text.trimStart line.toList
      match kernelLabel? text with
      | none => none
      | some label =>
        match AddressRange.ofLeading? text with
        | some range =>
          some (.span (Span.ofBounds (size.floor range.first) (size.ceil (after range.last)) label))
        | none => some (.notice (.unreadableRegion (String.ofList text)))
    else none

end FrameScan.Source.Iomem

namespace FrameScan.Source

def iomem (settings : Settings) (listing : Listing) : Source :=
  listing.lines.filterMap (Iomem.event? settings.pageSize)

end FrameScan.Source
