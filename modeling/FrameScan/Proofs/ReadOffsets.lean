import FrameScan.Proofs.Bookkeeping
import FrameScan.Proofs.Trace

/-!
# Offsets of reads

At which offsets a scan reads its table. An offset is a word, so it is eight times the number
of the page only as long as that is below 2^64, and beyond that the offsets begin anew.
`reads_in_place_iff` says that pages of eight bytes and more never get there, and that smaller
ones do: `first_entry_read_again` is a scan that reports the entry of another page.
-/

namespace FrameScan

open Session

namespace EntryTable

/-- The number of entries that there are offsets for. -/
def reach : Nat :=
  UInt64.size / 8

theorem toNat_offset (index : UInt64) : (offset index).toNat = 8 * index.toNat % UInt64.size := by
  rw [offset, UInt64.toNat_mul, Nat.mul_comm]
  rfl

theorem toNat_offset_of_lt {index : UInt64} (h : index.toNat < reach) :
    (offset index).toNat = 8 * index.toNat := by
  rw [toNat_offset]
  apply Nat.mod_eq_of_lt
  unfold reach at h
  omega

theorem offset_eq_iff {first second : UInt64} :
    offset first = offset second ↔ first.toNat % reach = second.toNat % reach := by
  have hsize : UInt64.size = 8 * reach := rfl
  rw [← UInt64.toNat_inj, toNat_offset, toNat_offset, hsize, Nat.mul_mod_mul_left,
    Nat.mul_mod_mul_left]
  omega

theorem fetch_ofBytes_of_lt {path : Path} {content : Content} {index : UInt64}
    (h : content.bytes.size < (offset index).toNat + 8) (earlier : Nat) :
    (ofBytes path content).fetch earlier index =
      .ok (.short (content.bytes.size - (offset index).toNat)) := by
  have hlength : (content.readAt (offset index) 8).length =
      content.bytes.size - (offset index).toNat := by
    rw [Content.readAt_eq, List.length_take, List.length_drop, Content.toList]
    have hsize : content.bytes.data.toList.length = content.bytes.size := rfl
    omega
  have hshort : (content.readAt (offset index) 8).length ≠ 8 := by omega
  simp only [fetch, ofBytes, hlength, dif_neg (hlength ▸ hshort)]

end EntryTable

namespace Session

/-- One session comes about from another by reads at some addresses, as far as these go. -/
def Asks (size : PageSize) (before : Session) (addresses : List UInt64) (after : Session) : Prop :=
  ∃ visited, visited <+: addresses ∧
    after.probes.toList = before.probes.toList ++ visited.map (probeAt size)

/-- Each read of a session was at the offset of the page that the scan was at. -/
def Placed (size : PageSize) (session : Session) : Prop :=
  ∀ probe ∈ session.probes, probe = probeAt size probe.address

theorem Asks.placed {size : PageSize} {before after : Session} {addresses : List UInt64}
    (h : Asks size before addresses after) (hbefore : before.Placed size) : after.Placed size := by
  obtain ⟨visited, -, hprobes⟩ := h
  intro probe hprobe
  rw [← Array.mem_toList_iff, hprobes] at hprobe
  rcases List.mem_append.mp hprobe with hold | hnew
  · apply hbefore
    exact Array.mem_toList_iff.mp hold
  · obtain ⟨address, -, rfl⟩ := List.mem_map.mp hnew
    rfl

theorem asks_nothing (size : PageSize) (session : Session) (addresses : List UInt64) :
    session.Asks size addresses session :=
  ⟨[], List.nil_prefix, (List.append_nil _).symm⟩

theorem Asks.cons {size : PageSize} {before middle after : Session} {address : UInt64}
    {rest : List UInt64} (hfirst : middle.probes = before.probes.push (probeAt size address))
    (hrest : middle.Asks size rest after) : before.Asks size (address :: rest) after := by
  obtain ⟨visited, hvisited, hprobes⟩ := hrest
  refine ⟨address :: visited, List.cons_prefix_cons.mpr ⟨rfl, hvisited⟩, ?_⟩
  rw [hprobes, hfirst, Array.toList_push, List.append_assoc]
  rfl

end Session

namespace Scan

variable (size : PageSize) (table : EntryTable) (policy : Policy)

theorem emit_probes (session : Session) (line : Line) :
    ((emit line).final session).probes = session.probes := by
  cases htaken : (session.sink.write line).1 with
  | none => rw [Action.final_of_ok (emit_of_taken session htaken)]
  | some error => rw [Action.final_of_error (emit_of_refused session htaken)]

theorem report_probes (session : Session) (address : UInt64) (entry : Entry) :
    ((report policy address entry).final session).probes = session.probes := by
  cases hcontent : policy.content? entry with
  | none => rw [Action.final_of_ok (report_of_none hcontent)]
  | some content =>
    rw [Action.final, report_of_some hcontent]
    apply Action.final_bind (p := fun after => after.probes = session.probes)
    · exact emit_probes (noting session address content) _
    · intro _ after hafter
      exact hafter

theorem page_probes (session : Session) (address : UInt64) :
    ((page size table policy address).final session).probes =
      session.probes.push (probeAt size address) := by
  obtain ⟨entry, hfetch⟩ | ⟨halt, hfetch⟩ :=
    entry_or_halt (table.fetch session.probes.size (size.index address))
  · rw [Action.final, page_of_entry hfetch]
    apply Action.final_bind
      (p := fun after => after.probes = session.probes.push (probeAt size address))
    · exact report_probes policy _ address entry
    · intro _ after hafter
      exact hafter
  · rw [Action.final_of_ok (page_of_halt hfetch)]
    rfl

/-- The reads of a scan are at the addresses of its pages one after another. It may stop at
any of them: at the end of its table, at a fault, or when its output is full. -/
theorem pages_asks (session : Session) (stop address : UInt64) :
    session.Asks size (size.addresses address stop)
      ((pages size table policy stop address).final session) := by
  induction address using pages.induct size stop generalizing session with
  | case1 address inside ih =>
    have hpage := page_probes size table policy session address
    rw [Action.final, pages_of_lt _ _ _ inside, size.addresses_of_lt inside]
    rcases hresult : page size table policy address session with
      ⟨_ | outcome, after⟩ | ⟨failure, after⟩
    · rw [Action.final_of_ok hresult] at hpage
      by_cases onward : size.HasNext address
      · simp only [if_pos onward]
        exact .cons hpage (ih onward after)
      · simp only [if_neg onward]
        exact .cons hpage (asks_nothing size after _)
    · rw [Action.final_of_ok hresult] at hpage
      exact .cons hpage (asks_nothing size after _)
    · rw [Action.final_of_error hresult] at hpage
      exact .cons hpage (asks_nothing size after _)
  | case2 address outside =>
    rw [Action.final_of_ok (pages_of_not_lt _ _ _ outside session)]
    exact asks_nothing size session _

theorem span_asks (session : Session) (s : Span) :
    session.Asks size (size.addresses s.start s.stop)
      ((span size table policy s).final session) := by
  apply Action.final_bind (p := session.Asks size (size.addresses s.start s.stop))
  · exact pages_asks size table policy session s.stop s.start
  · intro outcome after hafter
    exact hafter

theorem span_placed {session : Session} (h : session.Placed size) (s : Span) :
    ((span size table policy s).final session).Placed size :=
  (span_asks size table policy session s).placed h

theorem source_placed {session : Session} (h : session.Placed size) (events : Source) :
    ((source size table policy events).final session).Placed size := by
  induction events generalizing session with
  | nil => exact h
  | cons e rest ih =>
    cases e with
    | span s =>
      apply Action.final_bind (p := Placed size)
      · unfold Placed
        rw [emit_probes]
        exact h
      · intro _ announced hannounced
        apply Action.final_bind (p := Placed size)
        · exact span_placed size table policy hannounced s
        · intro _ scanned hscanned
          exact ih hscanned
    | failure failure => exact h
    | notice notice =>
      have hnoted : Placed size { session with notices := session.notices.push notice } := h
      exact ih hnoted

end Scan

theorem Call.placed {size : PageSize} {session : Session} (h : session.Placed size)
    (call : Call) : (call.final size session).Placed size := by
  unfold final
  cases call.job with
  | span s => exact Scan.span_placed size call.table call.policy h s
  | source events => exact Scan.source_placed size call.table call.policy h events

theorem History.placed (size : PageSize) (calls : List Call) :
    (of size calls).session.Placed size := by
  have hfold (history : History) (h : history.session.Placed size) :
      (calls.foldl (next size) history).session.Placed size := by
    induction calls generalizing history with
    | nil => exact h
    | cons call rest ih =>
      have hstart : (history.session.into call.sink).Placed size := h
      exact ih (history.next size call) (call.placed hstart)
  apply hfold
  intro probe hprobe
  exact absurd hprobe (Array.not_mem_empty _)

namespace PageSize

variable (size : PageSize)

theorem toNat_index (address : UInt64) :
    (size.index address).toNat = address.toNat / size.bytes.toNat :=
  UInt64.toNat_div _ _

theorem index_lt_of_mem_addresses {start stop first second : UInt64}
    (hfirst : first ∈ size.addresses start stop) (hsecond : second ∈ size.addresses start stop)
    (h : first < second) : (size.index first).toNat < (size.index second).toNat := by
  have hpos := size.bytes_pos
  obtain ⟨hle, -, hdvd⟩ := size.mem_addresses.mp hfirst
  obtain ⟨-, -, hdvd'⟩ := size.mem_addresses.mp hsecond
  have hlt := UInt64.lt_iff_toNat_lt.mp h
  have hstart := UInt64.le_iff_toNat_le.mp hle
  -- The two addresses are a positive number of whole pages apart.
  have hapart : size.bytes.toNat ∣ second.toNat - first.toNat := by
    have hsub := Nat.dvd_sub hdvd' hdvd
    have hcancel : second.toNat - start.toNat - (first.toNat - start.toNat) =
        second.toNat - first.toNat := by omega
    rwa [hcancel] at hsub
  have hstep : first.toNat + size.bytes.toNat ≤ second.toNat := by
    have hbytes := Nat.le_of_dvd (by omega) hapart
    omega
  have hdiv := Nat.div_le_div_right (c := size.bytes.toNat) hstep
  rw [Nat.add_div_right _ hpos] at hdiv
  rw [toNat_index, toNat_index]
  omega

theorem index_lt_reach (h : 8 ≤ size.bytes.toNat) (address : UInt64) :
    (size.index address).toNat < EntryTable.reach := by
  have hpos := size.bytes_pos
  have hreach : UInt64.size = EntryTable.reach * 8 := rfl
  rw [toNat_index, Nat.div_lt_iff_lt_mul hpos]
  apply Nat.lt_of_lt_of_le address.toNat_lt_size
  rw [hreach]
  exact Nat.mul_le_mul_left _ h

theorem exists_index_eq_reach (h : size.bytes.toNat < 8) :
    ∃ address, (size.index address).toNat = EntryTable.reach := by
  have hpos := size.bytes_pos
  have hlt : EntryTable.reach * size.bytes.toNat < UInt64.size :=
    Nat.mul_lt_mul_of_pos_left h (by decide)
  refine ⟨UInt64.ofNat (EntryTable.reach * size.bytes.toNat), ?_⟩
  rw [toNat_index, UInt64.toNat_ofNat_of_lt' hlt, Nat.mul_div_cancel _ hpos]

/-- Every read is at the place of the entry of its page, so no page gets the entry of another. -/
structure InPlace : Prop where
  /-- The offset of each read that is ever asked. -/
  offset : ∀ calls : List Call, ∀ probe ∈ (History.of size calls).session.probes,
    probe.offset.toNat = 8 * (probe.address.toNat / size.bytes.toNat)
  /-- The offsets that the scan of one span asks. -/
  ascending : ∀ (table : EntryTable) (policy : Policy) (s : Span) (session : Session),
    ∃ asked : List Probe,
      ((Scan.span size table policy s).final session).probes = session.probes ++ asked.toArray ∧
      (asked.map fun probe => probe.offset.toNat).Pairwise (· < ·)
  apart : ∀ first second : UInt64,
    EntryTable.offset (size.index first) = EntryTable.offset (size.index second) →
    first.toNat / size.bytes.toNat = second.toNat / size.bytes.toNat
  /-- A page whose entry does not lie within the contents of a table has none. -/
  past_end : ∀ (path : Path) (content : Content) (earlier : Nat) (address : UInt64),
    content.bytes.size < 8 * (address.toNat / size.bytes.toNat) + 8 →
    ∃ length, (EntryTable.ofBytes path content).fetch earlier (size.index address) =
      .ok (.short length)

theorem ascending_of_le (h : 8 ≤ size.bytes.toNat) (table : EntryTable) (policy : Policy)
    (s : Span) (session : Session) :
    ∃ asked : List Probe,
      ((Scan.span size table policy s).final session).probes = session.probes ++ asked.toArray ∧
      (asked.map fun probe => probe.offset.toNat).Pairwise (· < ·) := by
  obtain ⟨visited, hvisited, hprobes⟩ := Scan.span_asks size table policy session s
  refine ⟨visited.map (probeAt size), ?_, ?_⟩
  · apply Array.toList_inj.mp
    rw [hprobes, Array.toList_append]
  · rw [List.map_map, List.pairwise_map]
    have hpairwise := (size.addresses_pairwise s.start s.stop).sublist hvisited.sublist
    refine hpairwise.imp_of_mem fun {first second} hfirst hsecond hlt => ?_
    have hindex := size.index_lt_of_mem_addresses (hvisited.subset hfirst)
      (hvisited.subset hsecond) hlt
    have hoffset (address : UInt64) :
        (EntryTable.offset (size.index address)).toNat = 8 * (size.index address).toNat :=
      EntryTable.toNat_offset_of_lt (size.index_lt_reach h address)
    change (EntryTable.offset (size.index first)).toNat <
      (EntryTable.offset (size.index second)).toNat
    rw [hoffset, hoffset]
    omega

theorem inPlace_of_le (h : 8 ≤ size.bytes.toNat) : size.InPlace where
  offset calls probe hprobe := by
    rw [History.placed size calls probe hprobe, ← size.toNat_index]
    exact EntryTable.toNat_offset_of_lt (size.index_lt_reach h probe.address)
  ascending := size.ascending_of_le h
  apart first second hsame := by
    have hfirst := size.index_lt_reach h first
    have hsecond := size.index_lt_reach h second
    rw [EntryTable.offset_eq_iff, Nat.mod_eq_of_lt hfirst, Nat.mod_eq_of_lt hsecond] at hsame
    rwa [size.toNat_index, size.toNat_index] at hsame
  past_end path content earlier address hpast := by
    refine ⟨_, EntryTable.fetch_ofBytes_of_lt ?_ earlier⟩
    rwa [EntryTable.toNat_offset_of_lt (size.index_lt_reach h address), size.toNat_index]

/-- Every read is at eight times the number of its page, as far as a word can tell, so two
pages have the same offset if their numbers agree up to the reach of offsets. Each page has
an offset to itself exactly if a page is no smaller than an entry. -/
theorem reads_in_place_iff :
    (∀ calls : List Call, ∀ probe ∈ (History.of size calls).session.probes,
      probe.offset.toNat = 8 * (probe.address.toNat / size.bytes.toNat) % UInt64.size) ∧
    (∀ first second : UInt64,
      EntryTable.offset (size.index first) = EntryTable.offset (size.index second) ↔
        first.toNat / size.bytes.toNat % EntryTable.reach =
          second.toNat / size.bytes.toNat % EntryTable.reach) ∧
    (size.InPlace ↔ 8 ≤ size.bytes.toNat) := by
  refine ⟨?_, ?_, ?_, size.inPlace_of_le⟩
  · intro calls probe hprobe
    rw [History.placed size calls probe hprobe, ← size.toNat_index]
    exact EntryTable.toNat_offset _
  · intro first second
    rw [EntryTable.offset_eq_iff, size.toNat_index, size.toNat_index]
  · intro hplace
    apply Nat.le_of_not_lt
    intro hsmall
    obtain ⟨address, hindex⟩ := size.exists_index_eq_reach hsmall
    have hsame : EntryTable.offset (size.index address) = EntryTable.offset (size.index 0) := by
      rw [EntryTable.offset_eq_iff, hindex, size.toNat_index]
      simp
    have hdiv := hplace.apart address 0 hsame
    rw [← size.toNat_index, hindex, UInt64.toNat_zero, Nat.zero_div] at hdiv
    exact absurd hdiv (by decide)

end PageSize

namespace Scan

def oneEntry : Content :=
  .ofList [1, 0, 0, 0, 0, 0, 0, 0]

/-- A page of one byte, as many pages from the first one as there are offsets. -/
def farPage : Span :=
  ⟨0x2000000000000000, 0x2000000000000001, "x", by decide⟩

/-- With pages of one byte, a page far past the end of a table is reported with the only
entry that the table has. -/
theorem first_entry_read_again :
    let size : PageSize := ⟨1, 0, rfl⟩
    let x := span size (.ofBytes (.ofText "table") oneEntry) .all farPage
    PageSize.ofBytes 1 = .ok size ∧
    x.result {} = .ok .completed ∧
    (x.final {}).probes = #[⟨farPage.start, 0⟩] ∧
    (x.final {}).sink.lines.toList = [.page farPage.start (.flags ⟨1⟩)] ∧
    ¬ size.InPlace := by
  intro size x
  have hroom : ({} : Session).sink.room = none := rfl
  have hspan := span_of_unlimited size (.ofBytes (.ofText "table") oneEntry) .all hroom farPage
  have haccepted : PageSize.ofBytes 1 = .ok size := dif_pos size.isPowerOfTwo
  refine ⟨haccepted, ?_, ?_, ?_, ?_⟩
  · rw [Action.result_of_ok hspan]
    exact congrArg Except.ok (by decide +kernel)
  · rw [Action.final_of_ok hspan]
    decide +kernel
  · rw [Action.final_of_ok hspan]
    decide +kernel
  · intro hplace
    obtain ⟨length, hshort⟩ :=
      hplace.past_end (.ofText "table") oneEntry 0 farPage.start (by decide)
    have hentry : ((EntryTable.ofBytes (.ofText "table") oneEntry).fetch 0
        (size.index farPage.start)).toOption =
          some (.entry ⟨[1, 0, 0, 0, 0, 0, 0, 0], rfl⟩) := by
      decide +kernel
    rw [hshort] at hentry
    cases hentry

end Scan

end FrameScan
