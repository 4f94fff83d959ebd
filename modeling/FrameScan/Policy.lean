import FrameScan.CacheFilter
import FrameScan.Line
import FrameScan.PageSize
import FrameScan.VirtualPage

/-!
# Policies

A policy decides, from its table entry alone, whether a page is reported and
what is reported of it.
-/

namespace FrameScan

structure Policy where
  content? : Entry → Option PageContent

namespace Policy

/-- The virtual pages that are present, with their frames. -/
def resident (size : PageSize) : Policy where
  content? entry :=
    let page : VirtualPage := ⟨entry.word⟩
    if page.present then
      some (.frame (page.physicalAddress size.bytes) page.exclusive page.fileShared)
    else none

/-- Every physical frame. -/
def all : Policy where
  content? entry := some (.flags ⟨entry.word⟩)

/-- The physical frames that a filter takes for page cache. -/
def cache (filter : CacheFilter) : Policy where
  content? entry := if filter.accepts ⟨entry.word⟩ then some (.flags ⟨entry.word⟩) else none

end Policy

end FrameScan
