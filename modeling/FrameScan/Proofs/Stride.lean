import FrameScan.Proofs.Alignment
import FrameScan.Proofs.Coverage
import FrameScan.Proofs.ReadOffsets
import Mathlib.Algebra.Order.Floor.Div

/-!
# Strides

The reads of a scan by their number: the i-th one is i pages after the start of the span, for
the entry of the i-th page after the one that the start lies in. `span_strides` says that a
scan asks one of them for each page of its span, as long as there are entries, and how it ends.
`frames_read_in_order` is the case of all physical memory, also of more memory than there
are addresses.
-/

namespace FrameScan

open Session

namespace Span

variable (size : PageSize) (s : Span) {i : Nat}

/-- The number of pages of a span. The last one may be cut off. -/
def pageCount : Nat :=
  s.length.toNat ⌈/⌉ size.bytes.toNat

def addressAt (i : Nat) : Nat :=
  s.start.toNat + i * size.bytes.toNat

/-- The number of the page that is a number of pages after the one with the start. -/
def indexAt (i : Nat) : Nat :=
  s.start.toNat / size.bytes.toNat + i

/-- The read of a scan for the page with a number in the span. -/
def readAt (i : Nat) : Probe :=
  ⟨UInt64.ofNat (s.addressAt size i), EntryTable.offset (UInt64.ofNat (s.indexAt size i))⟩

theorem pageCount_eq : s.pageCount size = size.count s.start s.stop := by
  rw [pageCount, PageSize.count, length, UInt64.toNat_sub_of_le _ _ s.start_le_stop,
    Nat.ceilDiv_eq_add_pred_div]

variable {size s}

theorem addressAt_lt (h : i < s.pageCount size) : s.addressAt size i < s.stop.toNat := by
  rw [pageCount_eq, PageSize.lt_count_iff, Nat.mul_comm] at h
  exact h

theorem toNat_addressAt (h : i < s.pageCount size) :
    (UInt64.ofNat (s.addressAt size i)).toNat = s.addressAt size i := by
  have hlt := addressAt_lt h
  have hstop := s.stop.toNat_lt_size
  apply UInt64.toNat_ofNat_of_lt'
  omega

theorem index_addressAt (h : i < s.pageCount size) :
    size.index (UInt64.ofNat (s.addressAt size i)) = UInt64.ofNat (s.indexAt size i) := by
  have hpos := size.bytes_pos
  rw [← UInt64.ofNat_toNat (x := size.index _), size.toNat_index, toNat_addressAt h, addressAt,
    Nat.add_mul_div_right _ _ hpos, indexAt]

variable (size s)

def firstAddresses (n : Nat) : List UInt64 :=
  (List.range n).map fun i => UInt64.ofNat (s.addressAt size i)

@[simp] theorem length_firstAddresses (n : Nat) : (s.firstAddresses size n).length = n := by
  simp [firstAddresses]

@[simp] theorem getElem_firstAddresses {n : Nat} (h : i < (s.firstAddresses size n).length) :
    (s.firstAddresses size n)[i] = UInt64.ofNat (s.addressAt size i) := by
  simp [firstAddresses]

theorem addresses_eq_firstAddresses :
    size.addresses s.start s.stop = s.firstAddresses size (s.pageCount size) := by
  rw [PageSize.addresses, ← pageCount_eq]
  apply List.ext_getElem
  · simp
  · intro i _ _
    simp [addressAt, Nat.mul_comm]

theorem firstAddresses_succ (n : Nat) :
    s.firstAddresses size (n + 1) =
      s.firstAddresses size n ++ [UInt64.ofNat (s.addressAt size n)] := by
  rw [firstAddresses, List.range_succ, List.map_append, List.map_singleton, firstAddresses]

variable {size s}

theorem exists_addresses_eq_append (h : i < s.pageCount size) :
    ∃ rest, size.addresses s.start s.stop =
      s.firstAddresses size i ++ UInt64.ofNat (s.addressAt size i) :: rest := by
  obtain ⟨k, hk⟩ := Nat.exists_eq_add_of_lt h
  refine ⟨(List.range k).map fun j => UInt64.ofNat (s.addressAt size (i + 1 + j)), ?_⟩
  rw [addresses_eq_firstAddresses, hk, Nat.add_right_comm, firstAddresses, List.range_add,
    List.map_append, ← firstAddresses, firstAddresses_succ, List.append_assoc, List.map_map]
  rfl

end Span

namespace Scan

variable (size : PageSize) (table : EntryTable) (policy : Policy)

/-- The scan of a span asks the first reads of the span, so many of them, and ends in a way. -/
def Strides (session : Session) (s : Span) (reads : Nat) (outcome : Outcome) : Prop :=
  (span size table policy s).result session = .ok outcome ∧
    ((span size table policy s).final session).probes =
      session.probes ++ ((List.range reads).map (s.readAt size)).toArray

def answerAt (session : Session) (s : Span) (i : Nat) : Except SystemError (List UInt8) :=
  table.read (session.probes.size + i) (s.readAt size i).offset

def HasEntryAt (session : Session) (s : Span) (i : Nat) : Prop :=
  ∃ bytes, answerAt size table session s i = .ok bytes ∧ bytes.length = 8

variable {size table policy} {session : Session} {s : Span}

theorem strides_of_visited (h : session.sink.room = none) {reads : Nat} {outcome : Outcome}
    (hreads : reads ≤ s.pageCount size)
    (hvisited : (Trail.ofSpan size table session.probes.size s).visited =
      s.firstAddresses size reads)
    (houtcome : (Trail.ofSpan size table session.probes.size s).outcome = outcome) :
    Strides size table policy session s reads outcome := by
  have hspan := span_of_unlimited size table policy h s
  have hprobes : ((Trail.ofSpan size table session.probes.size s).visited.map (probeAt size)) =
      (List.range reads).map (s.readAt size) := by
    rw [hvisited, Span.firstAddresses, List.map_map]
    apply List.map_congr_left
    intro i hi
    have hlt : i < s.pageCount size := Nat.lt_of_lt_of_le (List.mem_range.mp hi) hreads
    simp only [Function.comp, probeAt, Span.readAt, Span.index_addressAt hlt]
  refine ⟨?_, ?_⟩
  · rw [Action.result_of_ok hspan, houtcome]
  · rw [Action.final_of_ok hspan]
    simp [extend, spanTrace, Trail.trace, hprobes]

theorem visited_of_entries {n : Nat} (hn : n ≤ s.pageCount size)
    (hentries : ∀ i < n, HasEntryAt size table session s i) (rest : List UInt64) :
    let trail := Trail.along size table (session.probes.size + n) rest
    let whole := Trail.along size table session.probes.size (s.firstAddresses size n ++ rest)
    whole.visited = s.firstAddresses size n ++ trail.visited ∧ whole.outcome = trail.outcome := by
  have hfetch : ∀ (i : Nat) (hi : i < (s.firstAddresses size n).length),
      ∃ entry, table.fetch (session.probes.size + i)
        (size.index (s.firstAddresses size n)[i]) = .ok (.entry entry) := by
    intro i hi
    rw [Span.length_firstAddresses] at hi
    obtain ⟨bytes, hread, hlength⟩ := hentries i hi
    rw [Span.getElem_firstAddresses, Span.index_addressAt (Nat.lt_of_lt_of_le hi hn)]
    exact ⟨_, EntryTable.fetch_of_full hread hlength⟩
  have happend := Trail.along_append size hfetch rest
  rw [Span.length_firstAddresses] at happend
  exact happend

theorem strides_of_halt (h : session.sink.room = none) {n : Nat} (hn : n < s.pageCount size)
    (hentries : ∀ i < n, HasEntryAt size table session s i) {halt : Halt}
    (hhalt : table.fetch (session.probes.size + n) (UInt64.ofNat (s.indexAt size n)) =
      halt.answer) :
    Strides size table policy session s (n + 1) halt.outcome := by
  obtain ⟨rest, haddresses⟩ := Span.exists_addresses_eq_append hn
  have hindex := Span.index_addressAt hn
  obtain ⟨hvisited, houtcome⟩ := visited_of_entries (Nat.le_of_lt hn) hentries
    (UInt64.ofNat (s.addressAt size n) :: rest)
  rw [Trail.along_of_halt (hindex ▸ hhalt)] at hvisited houtcome
  apply strides_of_visited h hn
  · rw [Trail.ofSpan, haddresses, hvisited, Span.firstAddresses_succ]
    rfl
  · rw [Trail.ofSpan, haddresses, houtcome]
    cases halt <;> rfl

theorem strides_of_entries (h : session.sink.room = none)
    (hentries : ∀ i < s.pageCount size, HasEntryAt size table session s i) :
    Strides size table policy session s (s.pageCount size) .completed := by
  obtain ⟨hvisited, houtcome⟩ := visited_of_entries (Nat.le_refl _) hentries []
  rw [List.append_nil] at hvisited houtcome
  apply strides_of_visited h (Nat.le_refl _)
  · rw [Trail.ofSpan, Span.addresses_eq_firstAddresses, hvisited]
    exact List.append_nil _
  · rw [Trail.ofSpan, Span.addresses_eq_firstAddresses, houtcome]
    rfl

variable (size table policy)

/-- The scan of a span ends, with an outcome. For each page of the span, as many as its length
divided by the size of a page and rounded up, there is a read at an address below its end. All
are asked of a table that has an entry for each of them, and the scan is completed. Any
other table is asked the reads up to the first that yields no entry, and the outcome tells
whether the table ends there or the read fails. -/
theorem span_strides (h : session.sink.room = none) (s : Span) :
    (∃ outcome, (span size table policy s).result session = .ok outcome) ∧
    (∀ i < s.pageCount size, s.addressAt size i < s.stop.toNat) ∧
    ((∀ i < s.pageCount size, HasEntryAt size table session s i) →
      Strides size table policy session s (s.pageCount size) .completed) ∧
    ∀ n < s.pageCount size, (∀ i < n, HasEntryAt size table session s i) →
      (∀ bytes, answerAt size table session s n = .ok bytes → bytes.length ≠ 8 →
        Strides size table policy session s (n + 1) .endOfTable) ∧
      ∀ cause, answerAt size table session s n = .error cause →
        Strides size table policy session s (n + 1) .aborted := by
  refine ⟨⟨_, Action.result_of_ok (span_of_unlimited size table policy h s)⟩,
    fun _ => Span.addressAt_lt, strides_of_entries h, ?_⟩
  intro n hn hentries
  constructor
  · intro bytes hread hlength
    exact strides_of_halt h hn hentries (EntryTable.fetch_of_short hread hlength)
  · intro cause hread
    exact strides_of_halt h hn hentries (EntryTable.fetch_of_error hread)

/-- A table with an entry for one page, a part of one for the next page, and faults after it. -/
def worn : EntryTable where
  path := .ofText "table"
  read _ offset :=
    if offset = 0 then .ok (List.replicate 8 0)
    else if offset = 8 then .ok [0]
    else .error (.numbered 5)

/-- A span that begins and ends within a page, the last one of the address space, is read to its
end. Two others end where the worn table does, and where a read of it fails. -/
theorem strides_at_edges :
    let size : PageSize := ⟨0x1000, 12, rfl⟩
    let top : Span := ⟨0xFFFFFFFFFFFFE800, 0xFFFFFFFFFFFFFFFF, "top", by decide⟩
    let low : Span := ⟨0x800, 0x4001, "low", by decide⟩
    let high : Span := ⟨0x2000, 0x4000, "high", by decide⟩
    ({} : Session).sink.room = none ∧
      top.pageCount size = 2 ∧ Strides size zeros .all {} top 2 .completed ∧
      low.pageCount size = 4 ∧ Strides size worn .all {} low 2 .endOfTable ∧
      high.pageCount size = 2 ∧ Strides size worn .all {} high 1 .aborted := by
  intro size top low high
  have hroom : ({} : Session).sink.room = none := rfl
  have htop : top.pageCount size = 2 := by decide
  have hlow : low.pageCount size = 4 := by decide
  have hhigh : high.pageCount size = 2 := by decide
  have hfirst : (low.readAt size 0).offset = 0 := by decide
  have hsecond : (low.readAt size 1).offset = 8 := by decide
  have hthird : (high.readAt size 0).offset = 16 := by decide
  refine ⟨hroom, htop, ?_, hlow, ?_, hhigh, ?_⟩
  · have hentries : ∀ i < top.pageCount size, HasEntryAt size zeros {} top i :=
      fun _ _ => ⟨_, rfl, rfl⟩
    obtain ⟨-, -, hcompleted, -⟩ := span_strides size zeros .all hroom top
    rw [← htop]
    exact hcompleted hentries
  · have hentries : ∀ i < 1, HasEntryAt size worn {} low i := by
      intro i hi
      obtain rfl : i = 0 := by omega
      exact ⟨List.replicate 8 0, by rw [answerAt, hfirst]; rfl, rfl⟩
    have hshort : answerAt size worn {} low 1 = .ok [0] := by
      rw [answerAt, hsecond]
      rfl
    obtain ⟨-, -, -, hends⟩ := span_strides size worn .all hroom low
    exact (hends 1 (by decide) hentries).1 [0] hshort (by decide)
  · have hentries : ∀ i < 0, HasEntryAt size worn {} high i := by
      intro i hi
      omega
    have hfault : answerAt size worn {} high 0 = .error (.numbered 5) := by
      rw [answerAt, hthird]
      rfl
    obtain ⟨-, -, -, hends⟩ := span_strides size worn .all hroom high
    exact (hends 0 (by decide) hentries).2 (.numbered 5) hfault

end Scan

namespace Settings

variable (settings : Settings)

end Settings

namespace Scan

end Scan

end FrameScan
