import FrameScan.Proofs.KernelParts
import FrameScan.Proofs.ReadOffsets
import FrameScan.Proofs.Stride

/-!
# Listed ranges without addresses

A listed range may end where it begins or before that. Its bounds are rounded to pages first,
away from each other, and put in order after that. So a range whose end is in the page of its
beginning, but not at the front of it, becomes that page, and any other one an empty span, which
is passed over: `inverted_ranges_collapse`.
-/

namespace FrameScan

open Session

namespace PageSize

variable (size : PageSize)

/-- An address that is rounded up from a page or from before it, but not from its front, comes to
the end of the page. -/
theorem toNat_ceil_within {page address : UInt64} (hpage : size.bytes.toNat ∣ page.toNat)
    (hle : address.toNat < page.toNat + size.bytes.toNat)
    (hlt : page.toNat < (size.ceil address).toNat) :
    (size.ceil address).toNat = page.toNat + size.bytes.toNat := by
  have hbound := size.ceil_lt_add address
  -- The rounded address is a whole number of pages up, fewer than two.
  obtain ⟨n, hn⟩ := Nat.dvd_sub (size.dvd_ceil address) hpage
  have hpos : 0 < n := by
    by_contra hzero
    rw [Nat.eq_zero_of_not_pos hzero, Nat.mul_zero] at hn
    omega
  have htwo : n < 2 := by
    rw [← Nat.mul_lt_mul_left size.bytes_pos, ← hn]
    omega
  obtain rfl : n = 1 := by omega
  omega

end PageSize

/-- What becomes of a range from an address up to one that is not after it: an empty span at the
page of the first address, or this page alone. -/
structure Collapsed (size : PageSize) (first : UInt64) (stop : Nat) (s : Span) : Prop where
  start : s.start = size.floor first
  isEmpty_iff : s.isEmpty = true ↔
    stop ≤ s.start.toNat ∨ s.start.toNat + size.bytes.toNat = UInt64.size
  page : s.isEmpty = false → s.stop.toNat = s.start.toNat + size.bytes.toNat

theorem Span.isEmpty_iff_toNat (s : Span) : s.isEmpty = true ↔ s.stop.toNat ≤ s.start.toNat := by
  have hle := UInt64.le_iff_toNat_le.mp s.start_le_stop
  rw [isEmpty, beq_iff_eq, ← UInt64.toNat_inj]
  omega

theorem collapsed_ofBounds (size : PageSize) {first stop : UInt64} (h : stop ≤ first)
    (label : String) :
    Collapsed size first stop.toNat (Span.ofBounds (size.floor first) (size.ceil stop) label) := by
  have hle := UInt64.le_iff_toNat_le.mp h
  have hfirst := size.lt_floor_add first
  have hpage := size.dvd_floor first
  have hceil := size.lt_ceil_iff hpage stop
  rw [size.ne_lastPage_iff] at hceil
  have hempty : (Span.ofBounds (size.floor first) (size.ceil stop) label).isEmpty = true ↔
      ¬ (size.floor first).toNat < (size.ceil stop).toNat := by
    rw [Span.isEmpty_iff_toNat, Span.toNat_stop_ofBounds, Span.start_ofBounds]
    omega
  refine ⟨Span.start_ofBounds _ _ _, ?_, ?_⟩
  · rw [hempty, hceil, Span.start_ofBounds]
    omega
  · intro hnonempty
    have hlt : (size.floor first).toNat < (size.ceil stop).toNat := by
      rw [← Bool.not_eq_true, hempty, not_not] at hnonempty
      exact hnonempty
    have hend := size.toNat_ceil_within hpage (by omega) hlt
    rw [Span.toNat_stop_ofBounds, Span.start_ofBounds]
    omega

namespace Scan

variable (size : PageSize)

def PassesOver (s : Span) : Prop :=
  ∀ (table : EntryTable) (policy : Policy) (session : Session),
    (span size table policy s).result session = .ok .completed ∧
    let after := (span size table policy s).final session
    after.probes = session.probes ∧ after.sink = session.sink ∧
      after.tally = session.tally.count .completed

/-- The scan of a span asks one read, at its start, whatever becomes of the page. -/
def ReadsOnePage (s : Span) : Prop :=
  ∀ (table : EntryTable) (policy : Policy) (session : Session),
    ((span size table policy s).final session).probes =
      session.probes.push (probeAt size s.start)

theorem passesOver_of_isEmpty {s : Span} (h : s.isEmpty = true) : PassesOver size s := by
  intro table policy session
  have hstop : ¬ s.start < s.stop := by
    rw [UInt64.lt_iff_toNat_lt, Nat.not_lt, ← s.isEmpty_iff_toNat]
    exact h
  have hspan := span_of_ok (pages_of_not_lt size table policy hstop session)
  rw [Action.result_of_ok hspan, Action.final_of_ok hspan]
  exact ⟨rfl, rfl, rfl, rfl⟩

theorem readsOnePage_of_stop {s : Span}
    (h : s.stop.toNat = s.start.toNat + size.bytes.toNat) : ReadsOnePage size s := by
  intro table policy session
  have hpage := page_probes size table policy session s.start
  have hpos := size.bytes_pos
  have hinside : s.start < s.stop := by
    rw [UInt64.lt_iff_toNat_lt]
    omega
  have honward : size.HasNext s.start := by
    rw [PageSize.HasNext, ← h]
    exact s.stop.toNat_lt_size
  have hnext : size.next s.start = s.stop := by
    rw [← UInt64.toNat_inj, size.toNat_next honward, h]
  apply Action.final_bind
    (p := fun after => after.probes = session.probes.push (probeAt size s.start))
  · rw [Action.final, pages_of_lt _ _ _ hinside]
    rcases hresult : page size table policy s.start session with
      ⟨_ | outcome, after⟩ | ⟨failure, after⟩
    · rw [Action.final_of_ok hresult] at hpage
      simp only [if_pos honward, hnext, pages_of_not_lt _ _ _ (UInt64.lt_irrefl _)]
      exact hpage
    · rwa [Action.final_of_ok hresult] at hpage
    · rwa [Action.final_of_error hresult] at hpage
  · intro _ after hafter
    exact hafter

end Scan

namespace Source

open AddressRange (Form)

/-- A listed range that ends where it begins or before that is collapsed: the end of a mapping is
the first address after it, and that of a part of the kernel image the last one in it. A
collapsed span is passed over if it is empty. Otherwise it is a page, and one read is asked. -/
theorem inverted_ranges_collapse (size : PageSize) :
    (∀ (line : String) (range : AddressRange), Form line.toList range →
      range.last ≤ range.first →
      ∃ s, Maps.event size (.ok line) = .span s ∧
        Collapsed size range.first range.last.toNat s) ∧
    (∀ (line label : String) (text : List Char) (range : AddressRange),
      Iomem.Named line.toList text label → Form text range → range.last < range.first →
      ∃ s, Iomem.event? size (.ok line) = some (.span s) ∧
        Collapsed size range.first (range.last.toNat + 1) s) ∧
    ∀ s : Span, (s.isEmpty = true → Scan.PassesOver size s) ∧
      (s.stop.toNat = s.start.toNat + size.bytes.toNat → Scan.ReadsOnePage size s) := by
  refine ⟨?_, ?_, fun s => ⟨Scan.passesOver_of_isEmpty size, Scan.readsOnePage_of_stop size⟩⟩
  · intro line range hform hle
    exact ⟨_, Maps.event_eq_span_iff.mpr ⟨range, hform, rfl⟩, collapsed_ofBounds size hle _⟩
  · intro line label text range hnamed hform hlt
    have hlast := UInt64.lt_iff_toNat_lt.mp hlt
    have hfirst := range.first.toNat_lt_size
    have hafter : (Iomem.after range.last).toNat = range.last.toNat + 1 := by
      rw [Iomem.toNat_after]
      omega
    have hle : Iomem.after range.last ≤ range.first := by
      rw [UInt64.le_iff_toNat_le, hafter]
      exact hlast
    refine ⟨_, Iomem.event?_of_form size hnamed hform, ?_⟩
    rw [← hafter]
    exact collapsed_ofBounds size hle label

/-- A range that ends at the front of its page, and one within the last page, are passed over. A
range within another page is not. -/
theorem inverted_ranges_at_edges :
    let size : PageSize := ⟨0x1000, 12, rfl⟩
    let front := "2800-2000 r--p 0 00:00 0 x"
    let top := "ffffffffffffffff-fffffffffffff001 r--p 0 00:00 0 x"
    let part := "  ffffffffffffeffe-ffffffffffffe000 : Kernel code"
    (∃ s, Maps.event size (.ok front) = .span s ∧ s.start = 0x2000 ∧ Scan.PassesOver size s) ∧
    (∃ s, Maps.event size (.ok top) = .span s ∧ s.start = 0xFFFFFFFFFFFFF000 ∧
      Scan.PassesOver size s) ∧
    ∃ s, Iomem.event? size (.ok part) = some (.span s) ∧ s.start = 0xFFFFFFFFFFFFE000 ∧
      s.stop.toNat = 0xFFFFFFFFFFFFF000 ∧ Scan.ReadsOnePage size s := by
  intro size front top part
  obtain ⟨hmaps, hiomem, hscans⟩ := inverted_ranges_collapse size
  have hform {text : List Char} {range : AddressRange}
      (h : AddressRange.ofLeading? text = some range) : Form text range :=
    AddressRange.ofLeading?_eq_some_iff.mp h
  refine ⟨?_, ?_, ?_⟩
  · obtain ⟨s, hevent, hstart, hempty, -⟩ :=
      hmaps front ⟨0x2800, 0x2000⟩ (hform (by decide +kernel)) (by decide)
    rw [hstart] at hempty
    exact ⟨s, hevent, hstart.trans (by decide), (hscans s).1 (hempty.mpr (by decide))⟩
  · obtain ⟨s, hevent, hstart, hempty, -⟩ :=
      hmaps top ⟨0xFFFFFFFFFFFFFFFF, 0xFFFFFFFFFFFFF001⟩ (hform (by decide +kernel)) (by decide)
    rw [hstart] at hempty
    exact ⟨s, hevent, hstart.trans (by decide), (hscans s).1 (hempty.mpr (by decide))⟩
  · have hnamed : Iomem.Named part.toList (Text.trimStart part.toList) "Kernel code" :=
      Iomem.named_iff.mpr ⟨by decide +kernel, rfl, by decide +kernel⟩
    obtain ⟨s, hevent, hstart, hempty, hpage⟩ :=
      hiomem part "Kernel code" _ ⟨0xFFFFFFFFFFFFEFFE, 0xFFFFFFFFFFFFE000⟩ hnamed
        (hform (by decide +kernel)) (by decide)
    have hnonempty : s.isEmpty = false := by
      rw [hstart] at hempty
      exact Bool.eq_false_iff.mpr (mt hempty.mp (by decide))
    have hstop := hpage hnonempty
    have honePage := (hscans s).2 hstop
    rw [hstart] at hstop
    exact ⟨s, hevent, hstart.trans (by decide), hstop.trans (by decide), honePage⟩

/-- A mapping and a part of the kernel image that end before they begin, within one page: it is
scanned all the same. -/
theorem inverted_ranges_scanned :
    let size : PageSize := ⟨0x1000, 12, rfl⟩
    let mapping := "1900-1800 r--p 0 00:00 0 x"
    let part := "  1900-17ff : Kernel code"
    let s : Span := ⟨0x1000, 0x2000, "x", by decide⟩
    let t : Span := ⟨0x1000, 0x2000, "Kernel code", by decide⟩
    Form mapping.toList ⟨0x1900, 0x1800⟩ ∧ Maps.event size (.ok mapping) = .span s ∧
      Iomem.Named part.toList (Text.trimStart part.toList) "Kernel code" ∧
      Form (Text.trimStart part.toList) ⟨0x1900, 0x17FF⟩ ∧
      Iomem.event? size (.ok part) = some (.span t) ∧
      s.isEmpty = false ∧ t.isEmpty = false ∧
      ((Scan.span size Scan.zeros .all s).final {}).probes = #[⟨0x1000, 8⟩] ∧
      ((Scan.span size Scan.zeros .all t).final {}).probes = #[⟨0x1000, 8⟩] := by
  intro size mapping part s t
  have hmapping : Form mapping.toList ⟨0x1900, 0x1800⟩ :=
    AddressRange.ofLeading?_eq_some_iff.mp (by decide +kernel)
  have hnamed : Iomem.Named part.toList (Text.trimStart part.toList) "Kernel code" :=
    Iomem.named_iff.mpr ⟨by decide +kernel, rfl, by decide +kernel⟩
  have hpart : Form (Text.trimStart part.toList) ⟨0x1900, 0x17FF⟩ :=
    AddressRange.ofLeading?_eq_some_iff.mp (by decide +kernel)
  have hs : Scan.ReadsOnePage size s := Scan.readsOnePage_of_stop size (by decide)
  have ht : Scan.ReadsOnePage size t := Scan.readsOnePage_of_stop size (by decide)
  exact ⟨hmapping, by decide +kernel, hnamed, hpart, by decide +kernel, by decide, by decide,
    (hs Scan.zeros .all {}).trans (by decide), (ht Scan.zeros .all {}).trans (by decide)⟩

end Source

end FrameScan
