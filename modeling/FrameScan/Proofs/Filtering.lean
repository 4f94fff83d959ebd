import FrameScan.Proofs.Independence
import Mathlib.Data.List.Basic

/-!
# What policies leave out

A policy looks at one entry at a time and does not steer the scan, so all policies ask the same
reads and come to the same outcome. What differs is which pages have a line:
`policy_only_filters` tells it from the lines of the policy that reports every page.
-/

namespace FrameScan

open Session

namespace Line

def address? : Line → Option UInt64
  | .page address _ => some address
  | _ => none

/-- Whether a line has the flags of a frame, and these pass a test. -/
def reports (test : FrameFlags → Bool) : Line → Bool
  | .page _ (.flags f) => test f
  | _ => false

theorem reports_mono {first second : FrameFlags → Bool}
    (h : ∀ flags, first flags = true → second flags = true) (line : Line)
    (hfirst : line.reports first = true) : line.reports second = true := by
  cases line with
  | page address content =>
    cases content with
    | flags f => exact h f hfirst
    | frame => cases hfirst
  | header => cases hfirst
  | span => cases hfirst

end Line

theorem CacheFilter.accepts_mappedToDisk (flags : FrameFlags)
    (h : mappedNotAnon.accepts flags = true) : mappedToDisk.accepts flags = true :=
  (Bool.and_eq_true_iff.mp h).1

/-- A policy that keeps some entries, and reports one thing of those that it keeps. -/
def Policy.Keeps (policy : Policy) (keep : Entry → Bool) (content : Entry → PageContent) : Prop :=
  ∀ entry, policy.content? entry = if keep entry then some (content entry) else none

namespace Trail

variable (trail : Trail) {policy : Policy} {keep : Entry → Bool} {content : Entry → PageContent}

theorem lines_of_keeps (h : policy.Keeps keep content) :
    trail.lines policy =
      (trail.entries.filter fun visit => keep visit.2).map
        fun visit => .page visit.1 (content visit.2) := by
  unfold lines
  induction trail.entries with
  | nil => rfl
  | cons visit rest ih =>
    obtain ⟨address, entry⟩ := visit
    have hcontent := h entry
    by_cases hkeep : keep entry = true
    · rw [if_pos hkeep] at hcontent
      simpa [hcontent, hkeep] using ih
    · rw [if_neg hkeep] at hcontent
      simpa [hcontent, hkeep] using ih

theorem lines_all :
    trail.lines .all =
      trail.entries.map fun visit => .page visit.1 (.flags ⟨visit.2.word⟩) := by
  have hkeeps : Policy.all.Keeps (fun _ => true) fun entry => .flags ⟨entry.word⟩ :=
    fun _ => rfl
  rw [trail.lines_of_keeps hkeeps, List.filter_true]

theorem filter_lines_all (test : FrameFlags → Bool) :
    (trail.lines .all).filter (Line.reports test) =
      (trail.entries.filter fun visit => test ⟨visit.2.word⟩).map
        fun visit => .page visit.1 (.flags ⟨visit.2.word⟩) := by
  rw [lines_all, List.filter_map]
  rfl

theorem lines_cache (filter : CacheFilter) :
    trail.lines (.cache filter) = (trail.lines .all).filter (Line.reports filter.accepts) := by
  have hkeeps : (Policy.cache filter).Keeps (fun entry => filter.accepts ⟨entry.word⟩)
      fun entry => .flags ⟨entry.word⟩ := fun _ => rfl
  rw [filter_lines_all, trail.lines_of_keeps hkeeps]

theorem addresses_resident (size : PageSize) :
    (trail.lines (.resident size)).filterMap Line.address? =
      ((trail.lines .all).filter (Line.reports fun flags => Word.bit flags.word 63)).filterMap
        Line.address? := by
  let content (entry : Entry) : PageContent :=
    let page : VirtualPage := ⟨entry.word⟩
    .frame (page.physicalAddress size.bytes) page.exclusive page.fileShared
  have hkeeps : (Policy.resident size).Keeps (fun entry => Word.bit entry.word 63) content :=
    fun _ => rfl
  rw [filter_lines_all, trail.lines_of_keeps hkeeps, List.filterMap_map, List.filterMap_map]
  rfl

end Trail

namespace Scan

variable (size : PageSize) {table : EntryTable}

/-- Whatever the policy, the scan of a span asks the same reads, counts the same pages read and
has the same outcome. The policy that leaves no page out has a line with the flags of each page
read. Of these lines a filter for the page cache leaves those whose flags it accepts, and the
pages of a process that are present are those in whose flags bit 63 is set. -/
theorem policy_only_filters (steady : table.Steady) (s : Span) :
    let outcome := (Trail.ofSpan size table 0 s).outcome
    let added (policy : Policy) := spanTrace size table policy 0 s
    (∀ policy session, session.sink.room = none →
      span size table policy s session = .ok outcome (session.extend (added policy)) ∧
      ((span size table policy s).final session).sink.accepted =
        session.sink.accepted ++ Line.stream (added policy).lines) ∧
    (∀ policy, (added policy).probes = (added .all).probes ∧
      (added policy).tally.pagesRead = (added .all).tally.pagesRead) ∧
    (added .all).lines.length = (added .all).tally.pagesRead ∧
    (∀ filter, (added (.cache filter)).lines =
      (added .all).lines.filter (Line.reports filter.accepts)) ∧
    (added (.resident size)).lines.filterMap Line.address? =
      ((added .all).lines.filter (Line.reports fun flags => Word.bit flags.word 63)).filterMap
        Line.address? ∧
    (added (.cache .mappedNotAnon)).lines.Sublist (added (.cache .mappedToDisk)).lines := by
  intro outcome added
  have hlines (policy : Policy) :
      (added policy).lines = (Trail.ofSpan size table 0 s).lines policy :=
    List.append_nil _
  have hread (policy : Policy) :
      (added policy).tally.pagesRead = (Trail.ofSpan size table 0 s).entries.length :=
    pagesRead_spanTrace size table policy 0 s
  refine ⟨?_, ?_, ?_, ?_, ?_, ?_⟩
  · intro policy session h
    have hspan := span_of_unlimited size table policy h s
    rw [spanTrace_of_steady size policy steady, Trail.ofSpan,
      Trail.along_of_steady size steady] at hspan
    refine ⟨hspan, ?_⟩
    rw [Action.final_of_ok hspan]
    exact Sink.accepted_push h _
  · intro policy
    exact ⟨rfl, (hread policy).trans (hread .all).symm⟩
  · rw [hlines, hread, Trail.lines_all, List.length_map]
  · intro filter
    rw [hlines, hlines, Trail.lines_cache]
  · rw [hlines, hlines, Trail.addresses_resident]
  · rw [hlines, hlines, Trail.lines_cache, Trail.lines_cache]
    apply List.monotone_filter_right
    intro line hline
    exact line.reports_mono CacheFilter.accepts_mappedToDisk hline

/-- A mapped frame of anonymous memory, a mapped one of a file, and one with the highest bit. -/
def mixedFrames : Content :=
  .ofList ([0x400001000, 0x400000000, 0x8000000000000000].flatMap Word.toBytes)

theorem mixed_frames_filtered :
    let size : PageSize := ⟨0x1000, 12, rfl⟩
    let table : EntryTable := .ofBytes (.ofText "table") mixedFrames
    let s : Span := ⟨0, 0x4000, "x", by decide⟩
    let added (policy : Policy) := spanTrace size table policy 0 s
    table.Steady ∧ ({} : Session).sink.room = none ∧
      (span size table (.cache .mappedNotAnon) s).result {} = .ok .endOfTable ∧
      (added .all).lines.length = 3 ∧
      (added (.cache .mappedNotAnon)).lines = [.page 0x1000 (.flags ⟨0x400000000⟩)] ∧
      (added (.cache .mappedToDisk)).lines.filterMap Line.address? = [0, 0x1000] ∧
      (added (.resident size)).lines.filterMap Line.address? = [0x2000] := by
  intro size table s added
  have steady : table.Steady := fun _ _ => rfl
  have hroom : ({} : Session).sink.room = none := rfl
  have houtcome : (Trail.ofSpan size table 0 s).outcome = .endOfTable := by decide +kernel
  have hall : (added .all).lines =
      [.page 0 (.flags ⟨0x400001000⟩), .page 0x1000 (.flags ⟨0x400000000⟩),
        .page 0x2000 (.flags ⟨0x8000000000000000⟩)] := by decide +kernel
  obtain ⟨hspan, -, -, hcache, hresident, -⟩ := policy_only_filters size steady s
  refine ⟨steady, hroom, ?_, ?_, ?_, ?_, ?_⟩
  · rw [Action.result_of_ok (hspan (.cache .mappedNotAnon) {} hroom).1, houtcome]
  · rw [hall]
    rfl
  · rw [hcache, hall]
    decide +kernel
  · rw [hcache, hall]
    decide +kernel
  · rw [hresident, hall]
    decide +kernel

end Scan

end FrameScan
