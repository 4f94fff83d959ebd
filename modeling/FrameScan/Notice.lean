import FrameScan.Level
import FrameScan.Settings
import FrameScan.Span
import FrameScan.Tally
import FrameScan.Target

/-!
# Notices

What the log says, as data: each notice has a level and a text. There is no
clock here, so a duration is shown as `#`.
-/

namespace FrameScan

inductive Notice where
  | unreadableMapping (line : String)
  | unreadableRegion (line : String)
  | frameFlags (address : UInt64) (flags : FrameFlags)
  | tableEnd (table : Path) (address : UInt64) (bytes : Nat)
  | tableFault (table : Path) (failure : Failure)
  | scanned (span : Span) (outcome : Outcome)
  | settled (settings : Settings)
  | started (target : Target)
  | finished (target : Target)
  | completed (target : Target)
  | spansScanned (count : Nat)
  | pagesRead (count : Nat)
  | pagesEmitted (count : Nat)
  | spansTruncated (count : Nat)
  | spansAborted (count : Nat)
  deriving DecidableEq

namespace Notice

open Text.Numeral (hex)

def level : Notice → Level
  | .unreadableMapping _ => .error
  | .unreadableRegion _ => .error
  | .frameFlags .. => .trace
  | .tableEnd .. => .debug
  | .tableFault .. => .error
  | .scanned .. => .debug
  | .settled _ => .debug
  | .started _ => .info
  | .finished _ => .debug
  | .completed _ => .info
  | .spansScanned _ => .info
  | .pagesRead _ => .info
  | .pagesEmitted _ => .info
  | .spansTruncated _ => .info
  | .spansAborted _ => .warn

/-- A list of names, each in quotes. -/
def quoted (names : List String) : String :=
  "[" ++ String.intercalate ", " (names.map fun name => "\"" ++ name ++ "\"") ++ "]"

def text : Notice → String
  | .unreadableMapping line => s!"Unable to parse maps line: {line}"
  | .unreadableRegion line => s!"Unable to parse iomem line: {line}"
  | .frameFlags address flags => s!"{hex address.toNat}: {quoted flags.names}"
  | .tableEnd table address bytes =>
    s!"{table.display} ends at {hex address.toNat} ({bytes} byte read)"
  | .tableFault table failure => s!"Can't read from {table.display}: {failure.message}"
  | .scanned span outcome =>
    s!"Scanned {hex span.start.toNat}-{hex span.stop.toNat} ({hex span.length.toNat} bytes) " ++
      s!"{span.label} in # ms: {outcome.name}"
  | .settled settings =>
    s!"page size {hex settings.pageSize.bytes.toNat}, {settings.pageCount.toNat} physical pages, " ++
      s!"proc root {settings.procRoot.display}, page cache filter {settings.filter.name}"
  | .started target => s!"Scanning {target.name}"
  | .finished target => s!"Finished {target.name} in # ms"
  | .completed target => s!"---------- Completed {target.name} in # ms ----------"
  | .spansScanned count => s!"Intervals scanned: {count}"
  | .pagesRead count => s!"Pages read: {count}"
  | .pagesEmitted count => s!"Pages emitted: {count}"
  | .spansTruncated count => s!"Intervals ending past the table: {count}"
  | .spansAborted count => s!"Intervals abandoned on read errors: {count}"

end Notice

/-- The closing notices of a survey; the last two only if there is something to count. -/
def Tally.summary (tally : Tally) : List Notice :=
  [.spansScanned tally.spans, .pagesRead tally.pagesRead, .pagesEmitted tally.pagesEmitted]
    ++ (if 0 < tally.truncated then [.spansTruncated tally.truncated] else [])
    ++ (if 0 < tally.aborted then [.spansAborted tally.aborted] else [])

end FrameScan
