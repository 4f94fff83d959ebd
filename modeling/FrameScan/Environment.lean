import FrameScan.Level
import FrameScan.Settings

/-!
# The environment

Three variables adjust the program: where the listings and tables are, which
frames count as page cache, and how much is logged. Values are bytes. The root
may be any; a filter or a level that is not text counts as not set.
-/

namespace FrameScan

/-- The value of each variable that is set. -/
abbrev Environment := String → Option (List UInt8)

namespace Environment

def procRootVariable : String := "VIRT2PHYS_PROC_ROOT"
def filterVariable : String := "VIRT2PHYS_PAGECACHE_FILTER"
def levelVariable : String := "VIRT2PHYS_LOG"

variable (environment : Environment)

/-- The value of a variable that is set to text. -/
def text? (name : String) : Option String :=
  (environment name).bind Text.Utf8.decode?

def logLevel : Except Failure Level :=
  match environment.text? levelVariable with
  | none => .ok .warn
  | some text =>
    match Level.ofName? text with
    | some level => .ok level
    | none => .error (.invalidArgument (.level levelVariable text))

/-- The settings on a machine with the given page size and number of frames. -/
def settings (pageBytes pageCount : UInt64) : Except Failure Settings := do
  let plain : Settings := { pageSize := ← PageSize.ofBytes pageBytes, pageCount }
  let rooted : Settings :=
    match environment procRootVariable with
    | some root => { plain with procRoot := ⟨root⟩ }
    | none => plain
  match environment.text? filterVariable with
  | some text => return { rooted with filter := ← CacheFilter.ofText text }
  | none => return rooted

end Environment

end FrameScan
