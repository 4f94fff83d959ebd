import FrameScan.CacheFilter
import FrameScan.PageSize
import FrameScan.Path

/-!
# Settings

The facts of the machine and the choices of the user that every scan depends on.
-/

namespace FrameScan

structure Settings where
  pageSize : PageSize
  /-- The number of physical frames of the machine. -/
  pageCount : UInt64
  procRoot : Path := .ofText "/proc"
  filter : CacheFilter := default
  deriving DecidableEq

namespace Settings

variable (settings : Settings)

/-- The end of physical memory, or the last address if memory reaches past it. -/
def physicalEnd : UInt64 :=
  let bytes := settings.pageCount.toNat * settings.pageSize.bytes.toNat
  if bytes < UInt64.size then UInt64.ofNat bytes else 0xFFFFFFFFFFFFFFFF

def path (relative : String) : Path :=
  settings.procRoot.join (.ofText relative)

end Settings

end FrameScan
