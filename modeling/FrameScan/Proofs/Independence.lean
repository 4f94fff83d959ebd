import FrameScan.Proofs.Trace
import Mathlib.Algebra.BigOperators.Group.List.Basic

/-!
# Independent spans

A table that is steady answers a read at an offset in the same way whenever it is
asked. The scan of a span then depends on no span that was scanned before it, so
the scan of many spans writes their blocks one after another, and counts the sum.
-/

namespace FrameScan

open Session

variable (size : PageSize) {table other : EntryTable} (policy : Policy)

namespace Trail

theorem along_of_steady (steady : table.Steady) (earlier : Nat) (addresses : List UInt64) :
    along size table earlier addresses = along size table 0 addresses := by
  induction addresses generalizing earlier with
  | nil => rfl
  | cons address rest ih =>
    have hfetch :
        table.fetch earlier (size.index address) = table.fetch 0 (size.index address) := by
      rw [EntryTable.fetch, EntryTable.fetch, steady earlier]
    simp only [along, hfetch, ih (earlier + 1), ih (0 + 1)]

theorem along_congr (earlier : Nat) (addresses : List UInt64)
    (agree : ∀ n, ∀ address ∈ (along size table earlier addresses).visited,
      other.fetch n (size.index address) = table.fetch n (size.index address)) :
    along size other earlier addresses = along size table earlier addresses := by
  induction addresses generalizing earlier with
  | nil => rfl
  | cons address rest ih =>
    -- Whatever the read answers, its address is visited.
    obtain ⟨entry, hentry⟩ | ⟨halt, hhalt⟩ :=
      entry_or_halt (table.fetch earlier (size.index address))
    · rw [along_of_entry hentry] at agree ⊢
      have hfetch := agree earlier address List.mem_cons_self
      have hrest : ∀ n, ∀ address ∈ (along size table (earlier + 1) rest).visited,
          other.fetch n (size.index address) = table.fetch n (size.index address) := by
        intro n a ha
        exact agree n a (List.mem_cons_of_mem _ ha)
      rw [along_of_entry (hfetch.trans hentry), ih (earlier + 1) hrest]
    · rw [along_of_halt hhalt] at agree ⊢
      have hfetch := agree earlier address List.mem_cons_self
      rw [along_of_halt (hfetch.trans hhalt)]

end Trail

namespace Scan

theorem spanTrace_of_steady (steady : table.Steady) (earlier : Nat) (s : Span) :
    spanTrace size table policy earlier s = spanTrace size table policy 0 s := by
  simp only [spanTrace, Trail.ofSpan, Trail.along_of_steady size steady earlier]

theorem span_of_steady (steady : table.Steady) {session : Session} (h : session.sink.room = none)
    (s : Span) :
    span size table policy s session =
      .ok (Trail.ofSpan size table 0 s).outcome
        (session.extend (spanTrace size table policy 0 s)) := by
  rw [span_of_unlimited size table policy h s, spanTrace_of_steady size policy steady,
    Trail.ofSpan, Trail.along_of_steady size steady, ← Trail.ofSpan]

variable (table)

/-- The traces of spans one after another, each as if nothing was read before it. -/
def blockTraces : List Span → Trace
  | [] => {}
  | s :: rest => blockTrace size table policy 0 s ++ blockTraces rest

variable {table}

theorem sourceTrace_spans (steady : table.Steady) (earlier : Nat) (spans : List Span) :
    sourceTrace size table policy earlier (spans.map .span) =
      blockTraces size table policy spans := by
  induction spans generalizing earlier with
  | nil => rfl
  | cons s rest ih =>
    have hblock : blockTrace size table policy earlier s = blockTrace size table policy 0 s := by
      rw [blockTrace, spanTrace_of_steady size policy steady, blockTrace]
    simp only [List.map_cons, sourceTrace, ih, hblock, blockTraces]

theorem firstFailure_spans (spans : List Span) : firstFailure (spans.map .span) = none := by
  induction spans with
  | nil => rfl
  | cons s rest ih => exact ih

variable (table)

def alone (s : Span) : Session :=
  (span size table policy s).final {}

/-- The line of a span, and what its scan alone writes. -/
def block (s : Span) : ByteArray :=
  (Line.span s).bytes ++ (alone size table policy s).sink.accepted

def joined (blocks : List ByteArray) : ByteArray :=
  blocks.foldr (· ++ ·) .empty

theorem alone_eq (s : Span) :
    alone size table policy s = ({} : Session).extend (spanTrace size table policy 0 s) :=
  Action.final_of_ok (span_of_unlimited size table policy rfl s)

theorem alone_tally (s : Span) :
    (alone size table policy s).tally = (spanTrace size table policy 0 s).tally := by
  rw [alone_eq]
  exact zero_add _

theorem block_eq (s : Span) :
    block size table policy s = Line.stream (blockTrace size table policy 0 s).lines := by
  have haccepted : (alone size table policy s).sink.accepted =
      Line.stream (spanTrace size table policy 0 s).lines := by
    rw [alone_eq]
    exact (Sink.accepted_push rfl _).trans ByteArray.empty_append
  rw [block, haccepted]
  rfl

theorem stream_blockTraces (spans : List Span) :
    Line.stream (blockTraces size table policy spans).lines =
      joined (spans.map (block size table policy)) := by
  induction spans with
  | nil => rfl
  | cons s rest ih =>
    rw [blockTraces, Trace.lines_append, Line.stream_append, ih, ← block_eq]
    rfl

theorem tally_blockTraces (spans : List Span) :
    (blockTraces size table policy spans).tally =
      (spans.map fun s => (alone size table policy s).tally).sum := by
  induction spans with
  | nil => rfl
  | cons s rest ih =>
    have hblock : (blockTrace size table policy 0 s).tally = (alone size table policy s).tally := by
      rw [alone_tally]
      exact zero_add _
    rw [blockTraces, Trace.tally_append, ih, hblock, List.map_cons, List.sum_cons]

variable {table}

theorem source_spans (steady : table.Steady) {session : Session} (h : session.sink.room = none)
    (spans : List Span) :
    source size table policy (spans.map .span) session =
      .ok () (session.extend (blockTraces size table policy spans)) := by
  rw [source_of_unlimited size table policy h, firstFailure_spans,
    sourceTrace_spans size policy steady]

theorem spanTrace_congr (steady : table.Steady) (steady' : other.Steady) {s : Span}
    (agree : ∀ probe ∈ (alone size table policy s).probes,
      other.read 0 probe.offset = table.read 0 probe.offset) :
    (spanTrace size other policy 0 s).lines = (spanTrace size table policy 0 s).lines ∧
      (spanTrace size other policy 0 s).tally = (spanTrace size table policy 0 s).tally := by
  have htrail : Trail.ofSpan size other 0 s = Trail.ofSpan size table 0 s := by
    refine Trail.along_congr size 0 _ fun n address hvisited => ?_
    have hprobe : probeAt size address ∈ (alone size table policy s).probes := by
      rw [alone_eq]
      have hmem := List.mem_map_of_mem (f := probeAt size) hvisited
      simpa [extend, spanTrace, Trail.trace, Trail.ofSpan] using hmem
    have hread : other.read 0 (EntryTable.offset (size.index address)) =
        table.read 0 (EntryTable.offset (size.index address)) := agree _ hprobe
    rw [EntryTable.fetch, EntryTable.fetch, steady n, steady' n, hread]
  simp only [spanTrace, htrail]
  exact ⟨rfl, rfl⟩

/-- The scan of a list of spans writes the block of each of them, in their order, and counts
the sum of what the scan of each alone counts. Another table changes a block only if it
answers one of the reads of that block otherwise, and another order of the spans changes
the order of the blocks only. -/
theorem spans_scanned_independently (steady : table.Steady) {session : Session}
    (h : session.sink.room = none) (spans : List Span) :
    let x := source size table policy (spans.map .span)
    x.result session = .ok () ∧
    (x.final session).sink.accepted =
      session.sink.accepted ++ joined (spans.map (block size table policy)) ∧
    (x.final session).tally =
      session.tally + (spans.map fun s => (alone size table policy s).tally).sum ∧
    (∀ other : EntryTable, other.Steady → ∀ s : Span,
      (∀ probe ∈ (alone size table policy s).probes,
        other.read 0 probe.offset = table.read 0 probe.offset) →
      block size other policy s = block size table policy s ∧
        (alone size other policy s).tally = (alone size table policy s).tally) ∧
    ∀ permuted : List Span, permuted.Perm spans →
      let y := source size table policy (permuted.map .span)
      (∃ blocks, blocks.Perm (spans.map (block size table policy)) ∧
        (y.final session).sink.accepted = session.sink.accepted ++ joined blocks) ∧
      (y.final session).tally = (x.final session).tally := by
  have hfinal (list : List Span) :
      (source size table policy (list.map .span)).final session =
        session.extend (blockTraces size table policy list) :=
    Action.final_of_ok (source_spans size policy steady h list)
  have haccepted (list : List Span) :
      ((source size table policy (list.map .span)).final session).sink.accepted =
        session.sink.accepted ++ joined (list.map (block size table policy)) := by
    rw [hfinal, ← stream_blockTraces]
    exact Sink.accepted_push h _
  have htally (list : List Span) :
      ((source size table policy (list.map .span)).final session).tally =
        session.tally + (list.map fun s => (alone size table policy s).tally).sum := by
    rw [hfinal, ← tally_blockTraces]
    rfl
  refine ⟨Action.result_of_ok (source_spans size policy steady h spans), haccepted spans,
    htally spans, fun other steady' s agree => ?_, fun permuted perm => ⟨?_, ?_⟩⟩
  · have hsame := spanTrace_congr size policy steady steady' agree
    rw [alone_tally, alone_tally, block_eq, block_eq, blockTrace, blockTrace, Trace.lines_append,
      Trace.lines_append, hsame.1, hsame.2]
    exact ⟨rfl, rfl⟩
  · exact ⟨_, perm.map _, haccepted permuted⟩
  · rw [htally, htally, (perm.map _).sum_eq]

def faultyEnd : EntryTable where
  path := .ofText "table"
  read _ offset := if offset < 16 then .ok (List.replicate 8 0xFF) else .error (.numbered 5)

/-- A span that is aborted at its third page, before and after a part of it. -/
def overlapping : List Span :=
  [⟨0, 0x4000, "whole", by decide⟩, ⟨0x1000, 0x2000, "part", by decide⟩,
    ⟨0, 0x4000, "whole", by decide⟩]

theorem overlapping_scanned_independently :
    faultyEnd.Steady ∧ ({} : Session).sink.room = none ∧
    let x := source ⟨0x1000, 12, rfl⟩ faultyEnd .all (overlapping.map .span)
    x.result {} = .ok () ∧
    (x.final {}).tally = { spans := 3, pagesRead := 5, pagesEmitted := 5, aborted := 2 } := by
  have steady : faultyEnd.Steady := fun _ _ => rfl
  have hroom : ({} : Session).sink.room = none := rfl
  obtain ⟨hresult, -, htally, -⟩ :=
    spans_scanned_independently ⟨0x1000, 12, rfl⟩ .all steady hroom overlapping
  refine ⟨steady, hroom, hresult, htally.trans ?_⟩
  simp only [overlapping, List.map_cons, List.map_nil, alone_tally]
  decide

end Scan

end FrameScan
