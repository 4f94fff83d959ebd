import FrameScan.EntryTable
import FrameScan.Line
import FrameScan.Notice
import FrameScan.Sink

/-!
# Sessions

What scans leave behind: the tally, the output, the notices, and a probe for
each read that was asked of a table. An action changes the session and may fail;
what it did before it failed remains.
-/

namespace FrameScan

/-- A read asked while the scan was at an address. -/
structure Probe where
  address : UInt64
  offset : UInt64
  deriving DecidableEq, Repr

structure Session where
  tally : Tally := {}
  sink : Sink := {}
  probes : Array Probe := #[]
  notices : Array Notice := #[]

abbrev Action := EStateM Failure Session

namespace Session

def require {α : Type} : Except Failure α → Action α
  | .ok a => return a
  | .error failure => throw failure

def note (notice : Notice) : Action Unit :=
  modify fun session => { session with notices := session.notices.push notice }

/-- Write a line. -/
def emit (line : Line) : Action Unit := do
  let error ← modifyGet fun session =>
    let (error, sink) := session.sink.write line
    (error, { session with sink })
  match error with
  | some error => throw (.output error)
  | none => return

def flush : Action Unit := do
  match (← get).sink.flushError with
  | some error => throw (.output error)
  | none => return

/-- Ask a table for the page at an address. -/
def probe (size : PageSize) (table : EntryTable) (address : UInt64) :
    Action (Except Failure Fetch) :=
  let index := size.index address
  modifyGet fun session =>
    (table.fetch session.probes.size index,
      { session with probes := session.probes.push ⟨address, EntryTable.offset index⟩ })

def countRead : Action Unit :=
  modify fun session =>
    { session with tally.pagesRead := session.tally.pagesRead + 1 }

def countEmitted : Action Unit :=
  modify fun session =>
    { session with tally.pagesEmitted := session.tally.pagesEmitted + 1 }

def countSpan (outcome : Outcome) : Action Unit :=
  modify fun session => { session with tally := session.tally.count outcome }

end Session

end FrameScan
