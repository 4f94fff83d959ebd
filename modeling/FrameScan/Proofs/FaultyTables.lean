import FrameScan.Proofs.Independence
import FrameScan.Proofs.ScanLines
import Mathlib.Data.List.Forall2

/-!
# Faulty tables

What a table costs a scan that has some of the entries of another one, and is short or fails
at other offsets. The entries that a span yields are then a prefix of those that the other
table yields, and all of them if the scan of the span is completed.
`faulty_table_loses_suffixes` says so for the lines and the counts of a whole scan: what is
lost in one span does not carry over to the next.
-/

namespace FrameScan

open Session

/-- Each entry that a table has is also what another one has at its offset. -/
def EntryTable.Within (faulty whole : EntryTable) : Prop :=
  ∀ offset bytes, faulty.read 0 offset = .ok bytes → bytes.length = 8 →
    whole.read 0 offset = .ok bytes

variable {size : PageSize} {policy : Policy} {faulty whole : EntryTable}

theorem EntryTable.Within.fetch (within : faulty.Within whole) (steady : faulty.Steady)
    (steady' : whole.Steady) {earlier : Nat} {index : UInt64} {entry : Entry}
    (h : faulty.fetch earlier index = .ok (.entry entry)) :
    whole.fetch earlier index = .ok (.entry entry) := by
  rw [EntryTable.fetch, steady earlier] at h
  rw [EntryTable.fetch, steady' earlier]
  cases hread : faulty.read 0 (offset index) with
  | error cause =>
    rw [hread] at h
    cases h
  | ok bytes =>
    rw [hread] at h
    by_cases hlength : bytes.length = 8
    · rw [within _ bytes hread hlength]
      exact h
    · simp [hlength] at h

namespace Trail

variable (size)

/-- At its first read without an entry a trail ends, and up to there it has the entries of
the trail along the other table. -/
theorem entries_prefix (within : faulty.Within whole) (steady : faulty.Steady)
    (steady' : whole.Steady) (earlier : Nat) (addresses : List UInt64) :
    (along size faulty earlier addresses).entries <+:
      (along size whole earlier addresses).entries := by
  induction addresses generalizing earlier with
  | nil => exact List.nil_prefix
  | cons address rest ih =>
    obtain ⟨entry, hfetch⟩ | ⟨halt, hfetch⟩ :=
      entry_or_halt (faulty.fetch earlier (size.index address))
    · rw [along_of_entry hfetch, along_of_entry (within.fetch steady steady' hfetch)]
      exact List.cons_prefix_cons.mpr ⟨rfl, ih (earlier + 1)⟩
    · rw [along_of_halt hfetch]
      exact List.nil_prefix

theorem entries_eq_of_completed (within : faulty.Within whole) (steady : faulty.Steady)
    (steady' : whole.Steady) (earlier : Nat) (addresses : List UInt64)
    (h : (along size faulty earlier addresses).outcome = .completed) :
    (along size faulty earlier addresses).entries =
      (along size whole earlier addresses).entries := by
  induction addresses generalizing earlier with
  | nil => rfl
  | cons address rest ih =>
    obtain ⟨entry, hfetch⟩ | ⟨halt, hfetch⟩ :=
      entry_or_halt (faulty.fetch earlier (size.index address))
    · rw [along_of_entry hfetch] at h ⊢
      rw [along_of_entry (within.fetch steady steady' hfetch)]
      exact congrArg ((address, entry) :: ·) (ih (earlier + 1) h)
    · rw [along_of_halt hfetch] at h
      cases halt <;> cases h

end Trail

namespace Line

/-- The lines before the first line of a span, and each span with the lines that follow it up
to the next one. -/
def sections : List Line → List Line × List (Span × List Line)
  | [] => ([], [])
  | .span s :: rest => ([], (s, (sections rest).1) :: (sections rest).2)
  | line :: rest => (line :: (sections rest).1, (sections rest).2)

theorem sections_pages {pages : List Line}
    (h : ∀ line ∈ pages, ∃ address content, line = .page address content) (rest : List Line) :
    sections (pages ++ rest) = (pages ++ (sections rest).1, (sections rest).2) := by
  induction pages with
  | nil => rfl
  | cons line lines ih =>
    obtain ⟨address, content, rfl⟩ := h line List.mem_cons_self
    have hrest := ih fun line hmem => h line (List.mem_cons_of_mem _ hmem)
    simp only [List.cons_append, sections, hrest]

end Line

namespace Scan

variable (size policy)

def pageLines (table : EntryTable) (s : Span) : List Line :=
  (Trail.ofSpan size table 0 s).lines policy

theorem sections_blockTraces (table : EntryTable) (spans : List Span) :
    Line.sections (blockTraces size table policy spans).lines =
      ([], spans.map fun s => (s, pageLines size policy table s)) := by
  induction spans with
  | nil => rfl
  | cons s rest ih =>
    have hpages : ∀ line ∈ pageLines size policy table s,
        ∃ address content, line = .page address content := fun _ => mem_lines_trail policy
    have hblock : (blockTrace size table policy 0 s).lines =
        .span s :: pageLines size policy table s := lines_block size table policy 0 s
    rw [blockTraces, Trace.lines_append, hblock, List.cons_append, Line.sections,
      Line.sections_pages hpages, ih, List.append_nil]
    rfl

def added (x : Action Unit) (session : Session) : List Line :=
  (x.final session).sink.lines.toList.drop session.sink.lines.size

theorem added_of_ok {x : Action Unit} {session : Session} {trace : Trace}
    (h : x session = .ok () (session.extend trace)) : added x session = trace.lines := by
  rw [added, Action.final_of_ok h, extend, Sink.push, Array.toList_append,
    ← Array.length_toList, List.drop_left]

/-- What is left of a span over a faulty table, beside what another table has for it: a prefix
of its lines, and all of them if the scan of the span is completed. -/
structure Loses (faulty : EntryTable) (lost all : Span × List Line) : Prop where
  same_span : lost.1 = all.1
  lines : lost.2 <+: all.2
  completed : ∀ session : Session, session.sink.room = none →
    (span size faulty policy lost.1).result session = .ok .completed → lost.2 = all.2

theorem loses_pageLines (within : faulty.Within whole) (steady : faulty.Steady)
    (steady' : whole.Steady) (s : Span) :
    Loses size policy faulty (s, pageLines size policy faulty s)
      (s, pageLines size policy whole s) where
  same_span := rfl
  lines := (Trail.entries_prefix size within steady steady' 0 _).filterMap _
  completed session h hresult := by
    rw [Action.result_of_ok (span_of_unlimited size faulty policy h s), Trail.ofSpan,
      Trail.along_of_steady size steady] at hresult
    have hentries := Trail.entries_eq_of_completed size within steady steady' 0 _
      (Except.ok.inj hresult)
    exact congrArg (List.filterMap _) hentries

theorem tally_blockTraces_le (within : faulty.Within whole) (steady : faulty.Steady)
    (steady' : whole.Steady) (spans : List Span) :
    (blockTraces size faulty policy spans).tally.pagesRead ≤
        (blockTraces size whole policy spans).tally.pagesRead ∧
      (blockTraces size faulty policy spans).tally.pagesEmitted ≤
        (blockTraces size whole policy spans).tally.pagesEmitted := by
  have hcounts (table : EntryTable) (s : Span) :
      (blockTrace size table policy 0 s).tally.pagesRead =
          (Trail.ofSpan size table 0 s).entries.length ∧
        (blockTrace size table policy 0 s).tally.pagesEmitted =
          (pageLines size policy table s).length := by
    simp [blockTrace, pageLines, pagesRead_spanTrace, pagesEmitted_spanTrace, Tally.zero_def]
  induction spans with
  | nil => exact ⟨Nat.le_refl _, Nat.le_refl _⟩
  | cons s rest ih =>
    have hread := (Trail.entries_prefix size within steady steady' 0
      (size.addresses s.start s.stop)).length_le
    have hemitted := (loses_pageLines size policy within steady steady' s).lines.length_le
    rw [blockTraces, blockTraces, Trace.tally_append, Trace.tally_append]
    simp only [Tally.pagesRead_add, Tally.pagesEmitted_add, hcounts]
    exact ⟨Nat.add_le_add hread ih.1, Nat.add_le_add hemitted ih.2⟩

/-- A scan over a faulty table succeeds like one over a table that has its entries and perhaps
more. Both announce the spans in their order. Of each span a prefix of its lines is left, and
all of them if its scan is completed, and no more pages are counted. -/
theorem faulty_table_loses_suffixes (within : faulty.Within whole) (steady : faulty.Steady)
    (steady' : whole.Steady) {session : Session} (h : session.sink.room = none)
    (spans : List Span) :
    let x := source size faulty policy (spans.map .span)
    let y := source size whole policy (spans.map .span)
    let lost := Line.sections (added x session)
    let all := Line.sections (added y session)
    x.result session = .ok () ∧ y.result session = .ok () ∧
    lost.1 = [] ∧ all.1 = [] ∧ lost.2.map Prod.fst = spans ∧ all.2.map Prod.fst = spans ∧
    List.Forall₂ (Loses size policy faulty) lost.2 all.2 ∧
    (x.final session).tally.pagesRead ≤ (y.final session).tally.pagesRead ∧
    (x.final session).tally.pagesEmitted ≤ (y.final session).tally.pagesEmitted := by
  intro x y lost all
  have hx := source_spans size policy steady h spans
  have hy := source_spans size policy steady' h spans
  have hlost : lost = ([], spans.map fun s => (s, pageLines size policy faulty s)) := by
    rw [← sections_blockTraces, ← added_of_ok hx]
  have hall : all = ([], spans.map fun s => (s, pageLines size policy whole s)) := by
    rw [← sections_blockTraces, ← added_of_ok hy]
  have hspans (table : EntryTable) :
      (spans.map fun s => (s, pageLines size policy table s)).map Prod.fst = spans := by
    rw [List.map_map]
    exact List.map_id _
  obtain ⟨hread, hemitted⟩ := tally_blockTraces_le size policy within steady steady' spans
  rw [hlost, hall]
  refine ⟨Action.result_of_ok hx, Action.result_of_ok hy, rfl, rfl, hspans faulty, hspans whole,
    ?_, ?_, ?_⟩
  · rw [List.forall₂_map_left_iff, List.forall₂_map_right_iff, List.forall₂_same]
    intro s _
    exact loses_pageLines size policy within steady steady' s
  · rw [Action.final_of_ok hx, Action.final_of_ok hy]
    exact Nat.add_le_add_left hread _
  · rw [Action.final_of_ok hx, Action.final_of_ok hy]
    exact Nat.add_le_add_left hemitted _

/-- A table that never ends, with the entries of `faultyEnd` at its beginning. -/
def ones : EntryTable where
  path := .ofText "table"
  read _ _ := .ok (List.replicate 8 0xFF)

/-- Over `faultyEnd` the two spans that go on after its end lose their pages there, and the
one between them none. -/
theorem overlapping_lose_suffixes :
    let size : PageSize := ⟨0x1000, 12, rfl⟩
    let x := source size faultyEnd .all (overlapping.map .span)
    let y := source size ones .all (overlapping.map .span)
    let lost := (Line.sections (added x {})).2
    let all := (Line.sections (added y {})).2
    faultyEnd.Within ones ∧ faultyEnd.Steady ∧ ones.Steady ∧ ({} : Session).sink.room = none ∧
    List.Forall₂ (Loses size .all faultyEnd) lost all ∧
    lost.map (·.2.length) = [2, 1, 2] ∧ all.map (·.2.length) = [4, 1, 4] := by
  intro size x y lost all
  have within : faultyEnd.Within ones := by
    intro offset bytes hread _
    by_cases hbefore : offset < 16
    · simpa [faultyEnd, ones, hbefore] using hread
    · simp [faultyEnd, hbefore] at hread
  have steady : faultyEnd.Steady := fun _ _ => rfl
  have steady' : ones.Steady := fun _ _ => rfl
  have hroom : ({} : Session).sink.room = none := rfl
  obtain ⟨-, -, -, -, -, -, hloses, -⟩ :=
    faulty_table_loses_suffixes size .all within steady steady' hroom overlapping
  have hlost : lost = (Line.sections (blockTraces size faultyEnd .all overlapping).lines).2 :=
    congrArg (fun lines => (Line.sections lines).2)
      (added_of_ok (source_spans size .all steady hroom overlapping))
  have hall : all = (Line.sections (blockTraces size ones .all overlapping).lines).2 :=
    congrArg (fun lines => (Line.sections lines).2)
      (added_of_ok (source_spans size .all steady' hroom overlapping))
  refine ⟨within, steady, steady', hroom, hloses, ?_, ?_⟩
  · rw [hlost, sections_blockTraces]
    decide +kernel
  · rw [hall, sections_blockTraces]
    decide +kernel

end Scan

end FrameScan
