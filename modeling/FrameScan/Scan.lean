import FrameScan.Policy
import FrameScan.Session
import FrameScan.Source

/-!
# Scans

`pages` goes through a span page by page, with one read for each, until the span
or the table ends or a read fails; `pages_of_lt` is one turn of it. `source`
announces and scans each span of a source. Only the output and the source itself
can make a scan fail.
-/

namespace FrameScan.Scan

open Session

variable (size : PageSize) (table : EntryTable) (policy : Policy)

/-- What is logged of a page before its line is written. -/
def noteContent (address : UInt64) : PageContent → Action Unit
  | .frame .. => return
  | .flags flags => note (.frameFlags address flags)

/-- Write the line of a page, if the policy has one. -/
def report (address : UInt64) (entry : Entry) : Action Unit := do
  match policy.content? entry with
  | none => return
  | some content =>
    noteContent address content
    emit (.page address content)
    countEmitted

/-- Read and report the page at an address. An outcome says that the scan ends here. -/
def page (address : UInt64) : Action (Option Outcome) := do
  match ← probe size table address with
  | .ok (.entry entry) =>
    countRead
    report policy address entry
    return none
  | .ok (.short length) =>
    note (.tableEnd table.path address length)
    return some .endOfTable
  | .error failure =>
    note (.tableFault table.path failure)
    return some .aborted

/-- Scan from one address up to another. The last page of the address space has none
after it, so the scan ends there too. -/
def pages (stop address : UInt64) : Action Outcome := do
  if _inside : address < stop then
    match ← page size table policy address with
    | some outcome => return outcome
    | none =>
      if _onward : size.HasNext address then pages stop (size.next address)
      else return .completed
  else return .completed
termination_by stop.toNat - address.toNat
decreasing_by
  have := size.toNat_next _onward
  have := size.bytes_pos
  have := UInt64.lt_iff_toNat_lt.mp _inside
  omega

theorem pages_of_not_lt {stop address : UInt64} (h : ¬ address < stop) (session : Session) :
    pages size table policy stop address session = .ok .completed session := by
  rw [pages, dif_neg h]
  rfl

theorem pages_of_lt {stop address : UInt64} (h : address < stop) (session : Session) :
    pages size table policy stop address session =
      match page size table policy address session with
      | .error failure session => .error failure session
      | .ok (some outcome) session => .ok outcome session
      | .ok none session =>
        if size.HasNext address then pages size table policy stop (size.next address) session
        else .ok .completed session := by
  rw [pages, dif_pos h]
  simp only [bind, EStateM.bind]
  rcases page size table policy address session with ⟨_ | outcome, session⟩ | ⟨failure, session⟩
  · by_cases hn : size.HasNext address
    · simp only [dif_pos hn, if_pos hn]
    · simp only [dif_neg hn, if_neg hn]
      rfl
  · rfl
  · rfl

def span (s : Span) : Action Outcome := do
  let outcome ← pages size table policy s.stop s.start
  note (.scanned s outcome)
  countSpan outcome
  return outcome

/-- Scan the spans of a source. The first failure in it ends the scan. -/
def source : Source → Action Unit
  | [] => return
  | .span s :: rest => do
    emit (.span s)
    let _ ← span size table policy s
    source rest
  | .failure failure :: _ => throw failure
  | .notice notice :: rest => do
    note notice
    source rest

end FrameScan.Scan
