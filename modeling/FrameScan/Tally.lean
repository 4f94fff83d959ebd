/-!
# Tallies

How the scan of a span ends, and the counts that are kept of many scans.
-/

namespace FrameScan

/-- A scan reaches the end of its span, or the table ends before that, or a read fails. -/
inductive Outcome where
  | completed
  | endOfTable
  | aborted
  deriving DecidableEq, Repr

def Outcome.name : Outcome → String
  | .completed => "Completed"
  | .endOfTable => "EndOfTable"
  | .aborted => "Aborted"

structure Tally where
  spans : Nat := 0
  pagesRead : Nat := 0
  pagesEmitted : Nat := 0
  /-- Spans cut short by the end of their table. -/
  truncated : Nat := 0
  /-- Spans abandoned when a read failed. -/
  aborted : Nat := 0
  deriving DecidableEq, Repr

/-- Count a span whose scan ended in a certain way. -/
def Tally.count (tally : Tally) : Outcome → Tally
  | .completed => { tally with spans := tally.spans + 1 }
  | .endOfTable => { tally with spans := tally.spans + 1, truncated := tally.truncated + 1 }
  | .aborted => { tally with spans := tally.spans + 1, aborted := tally.aborted + 1 }

end FrameScan
