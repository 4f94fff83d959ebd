import FrameScan.Proofs.Independence
import FrameScan.Proofs.Stride

/-!
# Spans in two parts

A span that is split where one of its pages begins is scanned like its two parts, one after the
other, for the pages of the parts are those of the span. The second part is not reached if the
scan of the first one ends early. `split_span_scanned_alike` says what is the same for both.
-/

namespace FrameScan

open Session

namespace PageSize

variable (size : PageSize) {first middle last : UInt64}

theorem add_mul_count (h : first ≤ middle)
    (hpages : size.bytes.toNat ∣ middle.toNat - first.toNat) :
    first.toNat + size.bytes.toNat * size.count first middle = middle.toNat := by
  have hpos := size.bytes_pos
  have hle := UInt64.le_iff_toNat_le.mp h
  obtain ⟨n, hn⟩ := hpages
  have hcount : size.count first middle = n := by
    apply eq_of_forall_lt_iff
    intro i
    rw [lt_count_iff, ← Nat.mul_lt_mul_left hpos (b := i), ← hn]
    omega
  rw [hcount]
  omega

/-- The addresses up to a page and those from it on. Wherever the last one is, none is left out at
the end of the address space, because there the middle would not be reached. -/
theorem addresses_append (h : first ≤ middle) (h' : middle ≤ last)
    (hpages : size.bytes.toNat ∣ middle.toNat - first.toNat) :
    size.addresses first last = size.addresses first middle ++ size.addresses middle last := by
  have hmiddle := size.add_mul_count h hpages
  have hle := UInt64.le_iff_toNat_le.mp h'
  have hcount : size.count first last = size.count first middle + size.count middle last := by
    apply eq_of_forall_lt_iff
    intro i
    rw [lt_count_iff]
    obtain hlt | ⟨j, rfl⟩ := (Nat.lt_or_ge i (size.count first middle)).imp_right
      Nat.exists_eq_add_of_le
    · have hbefore := size.lt_count_iff.mp hlt
      omega
    · rw [Nat.mul_add, ← Nat.add_assoc, hmiddle, ← lt_count_iff]
      omega
  rw [addresses, addresses, addresses, ← List.map_append, hcount, ← hmiddle,
    List.range'_append]

end PageSize

namespace Trail

/-- A trail that goes on with another one, unless it is halted. -/
def followedBy (first second : Trail) : Trail :=
  match first.halt with
  | none => { second with entries := first.entries ++ second.entries }
  | some _ => first

variable {first second : Trail}

theorem followedBy_of_halt {stop : UInt64 × Halt} (h : first.halt = some stop) :
    first.followedBy second = first := by
  simp only [followedBy, h]

theorem followedBy_of_none (h : first.halt = none) :
    first.followedBy second = { second with entries := first.entries ++ second.entries } := by
  simp only [followedBy, h]

theorem cons_followedBy (address : UInt64) (entry : Entry) :
    (first.cons address entry).followedBy second =
      (first.followedBy second).cons address entry := by
  cases h : first.halt <;> simp only [followedBy, cons, h, List.cons_append]

theorem outcome_eq_completed_iff {trail : Trail} :
    trail.outcome = .completed ↔ trail.halt = none := by
  rw [outcome, ended]
  rcases trail.halt with _ | ⟨address, halt⟩
  · exact iff_of_true rfl rfl
  · cases halt <;> exact iff_of_false nofun nofun

theorem along_append_eq (size : PageSize) (table : EntryTable) (earlier : Nat)
    (addresses rest : List UInt64) :
    along size table earlier (addresses ++ rest) =
      (along size table earlier addresses).followedBy
        (along size table (earlier + addresses.length) rest) := by
  induction addresses generalizing earlier with
  | nil => rfl
  | cons address addresses ih =>
    obtain ⟨entry, hfetch⟩ | ⟨halt, hfetch⟩ :=
      entry_or_halt (table.fetch earlier (size.index address))
    · rw [List.cons_append, along_of_entry hfetch, along_of_entry hfetch, cons_followedBy, ih,
        List.length_cons, Nat.add_assoc, Nat.add_comm 1]
    · rw [List.cons_append, along_of_halt hfetch, along_of_halt hfetch, followedBy_of_halt rfl]

theorem lines_followedBy (h : first.halt = none) (policy : Policy) :
    (first.followedBy second).lines policy = first.lines policy ++ second.lines policy := by
  rw [followedBy_of_none h]
  exact List.filterMap_append

theorem visited_followedBy (h : first.halt = none) :
    (first.followedBy second).visited = first.visited ++ second.visited := by
  simp [visited, followedBy_of_none h, h]

end Trail

/-- A span is split into two others where one of its pages begins, or where it ends. -/
structure Span.SplitInto (size : PageSize) (whole first second : Span) : Prop where
  start : first.start = whole.start
  middle : second.start = first.stop
  stop : second.stop = whole.stop
  pages : size.bytes.toNat ∣ first.stop.toNat - first.start.toNat

namespace Scan

variable (size : PageSize) {table : EntryTable} (policy : Policy) {whole first second : Span}

theorem ofSpan_of_split (steady : table.Steady) (split : whole.SplitInto size first second) :
    Trail.ofSpan size table 0 whole =
      (Trail.ofSpan size table 0 first).followedBy (Trail.ofSpan size table 0 second) := by
  have hend : first.stop ≤ whole.stop := by
    rw [← split.stop, ← split.middle]
    exact second.start_le_stop
  have haddresses := size.addresses_append first.start_le_stop hend split.pages
  rw [Trail.ofSpan, Trail.ofSpan, Trail.ofSpan, ← split.start, haddresses,
    Trail.along_append_eq, Trail.along_of_steady size steady (0 + _), split.stop, split.middle]

/-- The scan of a span that is split, over a steady table and without a limit of the output. If
the scan of the first part is completed, the scan of the whole goes on like that of the second
part: it writes the lines of both, asks the reads of both, counts the pages of both, and has
the outcome of the second part. Otherwise it is like the scan of the first part. -/
theorem split_span_scanned_alike (steady : table.Steady)
    (split : whole.SplitInto size first second) :
    let outcome (s : Span) := (Trail.ofSpan size table 0 s).outcome
    let added (s : Span) := spanTrace size table policy 0 s
    (∀ s session, session.sink.room = none →
      span size table policy s session = .ok (outcome s) (session.extend (added s)) ∧
      ((span size table policy s).final session).sink.accepted =
        session.sink.accepted ++ Line.stream (added s).lines) ∧
    (outcome first = .completed →
      outcome whole = outcome second ∧
      (added whole).lines = (added first).lines ++ (added second).lines ∧
      (added whole).probes = (added first).probes ++ (added second).probes ∧
      (added whole).tally.pagesRead =
        (added first).tally.pagesRead + (added second).tally.pagesRead ∧
      (added whole).tally.pagesEmitted =
        (added first).tally.pagesEmitted + (added second).tally.pagesEmitted) ∧
    (outcome first ≠ .completed →
      outcome whole = outcome first ∧ (added whole).lines = (added first).lines ∧
      (added whole).probes = (added first).probes ∧
      (added whole).tally = (added first).tally) := by
  intro outcome added
  have htrail := ofSpan_of_split size steady split
  refine ⟨?_, ?_, ?_⟩
  · intro s session h
    have hspan := span_of_steady size policy steady h s
    refine ⟨hspan, ?_⟩
    rw [Action.final_of_ok hspan]
    exact Sink.accepted_push h _
  · intro hcompleted
    have hnone := Trail.outcome_eq_completed_iff.mp hcompleted
    have hlines (s : Span) : (added s).lines = (Trail.ofSpan size table 0 s).lines policy :=
      List.append_nil _
    have hprobes (s : Span) :
        (added s).probes = (Trail.ofSpan size table 0 s).visited.map (probeAt size) :=
      List.append_nil _
    have hemitted (s : Span) : (added s).tally.pagesEmitted = (added s).lines.length := by
      rw [pagesEmitted_spanTrace, hlines]
    have hwhole : (added whole).lines = (added first).lines ++ (added second).lines := by
      rw [hlines, hlines, hlines, htrail, Trail.lines_followedBy hnone]
    refine ⟨?_, hwhole, ?_, ?_, ?_⟩
    · simp only [outcome, htrail, Trail.followedBy_of_none hnone]
      rfl
    · rw [hprobes, hprobes, hprobes, htrail, Trail.visited_followedBy hnone, List.map_append]
    · simp only [added, pagesRead_spanTrace, htrail, Trail.followedBy_of_none hnone,
        List.length_append]
    · rw [hemitted, hemitted, hemitted, hwhole, List.length_append]
  · intro hended
    have hhalt : (Trail.ofSpan size table 0 first).halt ≠ none :=
      mt Trail.outcome_eq_completed_iff.mpr hended
    obtain ⟨stop, hstop⟩ := Option.ne_none_iff_exists'.mp hhalt
    rw [Trail.followedBy_of_halt hstop] at htrail
    simp only [outcome, added, spanTrace, htrail]
    exact ⟨trivial, rfl, rfl, rfl⟩

/-- A span that ends within the last page of the address space is scanned in two parts. Another
one goes on where the worn table has ended, and its second part would fail there. -/
theorem split_at_edges :
    let size : PageSize := ⟨0x1000, 12, rfl⟩
    let top : Span := ⟨0xFFFFFFFFFFFFD800, 0xFFFFFFFFFFFFFFFF, "top", by decide⟩
    let below : Span := ⟨0xFFFFFFFFFFFFD800, 0xFFFFFFFFFFFFE800, "below", by decide⟩
    let above : Span := ⟨0xFFFFFFFFFFFFE800, 0xFFFFFFFFFFFFFFFF, "above", by decide⟩
    let low : Span := ⟨0, 0x3000, "low", by decide⟩
    let held : Span := ⟨0, 0x2000, "held", by decide⟩
    let past : Span := ⟨0x2000, 0x3000, "past", by decide⟩
    let added (table : EntryTable) (s : Span) := spanTrace size table .all 0 s
    zeros.Steady ∧ top.SplitInto size below above ∧
      (span size zeros .all top).result {} = .ok .completed ∧
      (added zeros top).lines = (added zeros below).lines ++ (added zeros above).lines ∧
      (added zeros below).lines.length = 1 ∧ (added zeros above).lines.length = 2 ∧
    worn.Steady ∧ low.SplitInto size held past ∧
      (span size worn .all past).result {} = .ok .aborted ∧
      (span size worn .all low).result {} = .ok .endOfTable ∧
      (added worn low).lines = (added worn held).lines ∧ (added worn low).tally.pagesRead = 1 := by
  intro size top below above low held past added
  have hroom : ({} : Session).sink.room = none := rfl
  have endless : zeros.Steady := fun _ _ => rfl
  have steady : worn.Steady := fun _ _ => rfl
  have htop : top.SplitInto size below above := ⟨rfl, rfl, rfl, by decide⟩
  have hlow : low.SplitInto size held past := ⟨rfl, rfl, rfl, by decide⟩
  obtain ⟨hscan, hcompleted, -⟩ := split_span_scanned_alike size .all endless htop
  obtain ⟨hscan', -, hended⟩ := split_span_scanned_alike size .all steady hlow
  have hbelow : (Trail.ofSpan size zeros 0 below).outcome = .completed := by decide +kernel
  have habove : (Trail.ofSpan size zeros 0 above).outcome = .completed := by decide +kernel
  have hheld : (Trail.ofSpan size worn 0 held).outcome = .endOfTable := by decide +kernel
  have hpast : (Trail.ofSpan size worn 0 past).outcome = .aborted := by decide +kernel
  obtain ⟨houtcome, hlines, -⟩ := hcompleted hbelow
  have hhalted : (Trail.ofSpan size worn 0 held).outcome ≠ .completed := by
    rw [hheld]
    decide
  obtain ⟨houtcome', hlines', -, htally⟩ := hended hhalted
  refine ⟨endless, htop, ?_, hlines, by decide +kernel, by decide +kernel, steady, hlow, ?_, ?_,
    hlines', ?_⟩
  · exact (Action.result_of_ok (hscan top {} hroom).1).trans
      (congrArg Except.ok (houtcome.trans habove))
  · exact (Action.result_of_ok (hscan' past {} hroom).1).trans (congrArg Except.ok hpast)
  · exact (Action.result_of_ok (hscan' low {} hroom).1).trans
      (congrArg Except.ok (houtcome'.trans hheld))
  · rw [htally]
    decide +kernel

end Scan

end FrameScan
