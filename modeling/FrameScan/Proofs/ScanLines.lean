import FrameScan.Proofs.LineFeeds
import FrameScan.Proofs.Trace

/-!
# Lines of scans

Which lines the scan of a source writes: the lines of spans of the source, and lines of
pages. Its counts say how many there are, and if no label of the source has a line feed,
none of them has one.
-/

namespace FrameScan.Scan

variable (size : PageSize) (table : EntryTable) (policy : Policy)

theorem lines_block (earlier : Nat) (s : Span) :
    (blockTrace size table policy earlier s).lines =
      .span s :: (Trail.ofSpan size table earlier s).lines policy := by
  simp [blockTrace, spanTrace, Trail.trace]

theorem mem_lines_trail {trail : Trail} {line : Line} (h : line ∈ trail.lines policy) :
    ∃ address content, line = .page address content := by
  obtain ⟨⟨address, entry⟩, -, hcontent⟩ := List.mem_filterMap.mp h
  obtain ⟨content, -, rfl⟩ := Option.map_eq_some_iff.mp hcontent
  exact ⟨address, content, rfl⟩

theorem mem_lines_sourceTrace {events : Source} {earlier : Nat} {line : Line}
    (h : line ∈ (sourceTrace size table policy earlier events).lines) :
    (∃ s, line = .span s ∧ .span s ∈ events) ∨ ∃ address content, line = .page address content := by
  induction events generalizing earlier with
  | nil => exact absurd h List.not_mem_nil
  | cons event rest ih =>
    cases event with
    | span s =>
      rw [sourceTrace, Trace.lines_append, lines_block, List.cons_append] at h
      rcases List.mem_cons.mp h with rfl | hmem
      · exact .inl ⟨s, rfl, List.mem_cons_self⟩
      rcases List.mem_append.mp hmem with hpage | hrest
      · exact .inr (mem_lines_trail policy hpage)
      · exact (ih hrest).imp_left fun ⟨s, hline, hs⟩ => ⟨s, hline, List.mem_cons_of_mem _ hs⟩
    | failure failure => exact absurd h List.not_mem_nil
    | notice notice =>
      rw [sourceTrace, Trace.lines_append, List.nil_append] at h
      exact (ih h).imp_left fun ⟨s, hline, hs⟩ => ⟨s, hline, List.mem_cons_of_mem _ hs⟩

theorem newline_not_mem_sourceTrace {events : Source} (unbroken : events.Unbroken)
    (earlier : Nat) :
    ∀ line ∈ (sourceTrace size table policy earlier events).lines, '\n' ∉ line.text.toList := by
  intro line hline
  rcases mem_lines_sourceTrace size table policy hline with ⟨s, rfl, hs⟩ | ⟨address, content, rfl⟩
  · exact Line.newline_not_mem_span (unbroken s hs)
  · exact Line.newline_not_mem_page address content

theorem length_lines_sourceTrace (earlier : Nat) (events : Source) :
    (sourceTrace size table policy earlier events).lines.length =
      (sourceTrace size table policy earlier events).tally.spans +
        (sourceTrace size table policy earlier events).tally.pagesEmitted := by
  induction events generalizing earlier with
  | nil => rfl
  | cons event rest ih =>
    cases event with
    | span s =>
      have hspans (outcome : Outcome) : (({} : Tally).count outcome).spans = 1 := by
        cases outcome <;> rfl
      have hemitted (outcome : Outcome) : (({} : Tally).count outcome).pagesEmitted = 0 := by
        cases outcome <;> rfl
      have hblock : (blockTrace size table policy earlier s).lines.length =
          (blockTrace size table policy earlier s).tally.spans +
            (blockTrace size table policy earlier s).tally.pagesEmitted := by
        simp [blockTrace, spanTrace, Trail.trace, hspans, hemitted, Tally.zero_def]
        omega
      rw [sourceTrace, Trace.lines_append, Trace.tally_append, List.length_append, ih, hblock,
        Tally.spans_add, Tally.pagesEmitted_add]
      omega
    | failure failure => rfl
    | notice notice =>
      rw [sourceTrace, Trace.lines_append, Trace.tally_append, List.nil_append, ih, zero_add]

end FrameScan.Scan
