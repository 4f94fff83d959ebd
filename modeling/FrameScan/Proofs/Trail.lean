import FrameScan.Proofs.Effects

/-!
# Trails

What the reads of a span's pages yield: the entries up to the end of the span,
or up to a read that yields none. A trail depends on the span and on the answers
of the table. What a policy reports of it, and what is noted, is read off it.
-/

namespace FrameScan

namespace PageSize

variable (size : PageSize) {start stop : UInt64}

/-- How many pages there are from one address up to another, if the last may be cut off. -/
def count (start stop : UInt64) : Nat :=
  (stop.toNat - start.toNat + size.bytes.toNat - 1) / size.bytes.toNat

/-- The addresses from one on, in steps of a page, that are below another. -/
def addresses (start stop : UInt64) : List UInt64 :=
  (List.range' start.toNat (size.count start stop) size.bytes.toNat).map UInt64.ofNat

theorem count_of_le (h : stop ≤ start) : size.count start stop = 0 := by
  have hpos := size.bytes_pos
  have hle := UInt64.le_iff_toNat_le.mp h
  rw [count, Nat.sub_eq_zero_of_le hle]
  exact Nat.div_eq_of_lt (by omega)

theorem count_of_hasNext (h : start < stop) (hnext : size.HasNext start) :
    size.count start stop = size.count (size.next start) stop + 1 := by
  have hpos := size.bytes_pos
  have hlt := UInt64.lt_iff_toNat_lt.mp h
  rw [count, count, size.toNat_next hnext, ← Nat.add_div_right _ hpos]
  by_cases hle : stop.toNat ≤ start.toNat + size.bytes.toNat
  · rw [Nat.div_eq_of_lt_le (k := 1), Nat.div_eq_of_lt_le (k := 1)] <;> omega
  · congr 1
    omega

theorem count_of_not_hasNext (h : start < stop) (hnext : ¬ size.HasNext start) :
    size.count start stop = 1 := by
  have hpos := size.bytes_pos
  have hlt := UInt64.lt_iff_toNat_lt.mp h
  have hstop := stop.toNat_lt_size
  rw [HasNext] at hnext
  exact Nat.div_eq_of_lt_le (by omega) (by omega)

theorem addresses_of_not_lt (h : ¬ start < stop) : size.addresses start stop = [] := by
  rw [addresses, size.count_of_le (UInt64.not_lt.mp h)]
  rfl

theorem addresses_of_lt (h : start < stop) :
    size.addresses start stop =
      start :: if size.HasNext start then size.addresses (size.next start) stop else [] := by
  split
  next hnext =>
    rw [addresses, size.count_of_hasNext h hnext, List.range'_succ, List.map_cons,
      UInt64.ofNat_toNat, addresses, size.toNat_next hnext]
  next hnext =>
    rw [addresses, size.count_of_not_hasNext h hnext]
    simp

theorem lt_count_iff {i : Nat} :
    i < size.count start stop ↔ start.toNat + size.bytes.toNat * i < stop.toNat := by
  have hpos := size.bytes_pos
  rw [count, Nat.lt_iff_add_one_le, Nat.le_div_iff_mul_le hpos, Nat.succ_mul, Nat.mul_comm]
  omega

theorem mem_addresses {address : UInt64} :
    address ∈ size.addresses start stop ↔
      start ≤ address ∧ address < stop ∧ size.bytes.toNat ∣ address.toNat - start.toNat := by
  have hstop := stop.toNat_lt_size
  simp only [addresses, List.mem_map, List.mem_range', lt_count_iff, UInt64.le_iff_toNat_le,
    UInt64.lt_iff_toNat_lt]
  constructor
  · rintro ⟨_, ⟨i, hi, rfl⟩, rfl⟩
    rw [UInt64.toNat_ofNat_of_lt' (Nat.lt_trans hi hstop)]
    exact ⟨Nat.le_add_right _ _, hi, by rw [Nat.add_sub_cancel_left]; exact Nat.dvd_mul_right _ _⟩
  · rintro ⟨hstart, hlt, i, hi⟩
    have haddress : start.toNat + size.bytes.toNat * i = address.toNat := by omega
    exact ⟨address.toNat, ⟨i, haddress ▸ hlt, haddress.symm⟩, UInt64.ofNat_toNat⟩

theorem addresses_pairwise (start stop : UInt64) :
    (size.addresses start stop).Pairwise (· < ·) := by
  have hpos := size.bytes_pos
  rw [addresses, List.pairwise_map]
  refine (List.pairwise_lt_range' _ hpos).imp_of_mem ?_
  intro first second hfirst hsecond hlt
  have hbound : ∀ n ∈ List.range' start.toNat (size.count start stop) size.bytes.toNat,
      n < UInt64.size := by
    intro n hn
    obtain ⟨i, hi, rfl⟩ := List.mem_range'.mp hn
    exact Nat.lt_trans (size.lt_count_iff.mp hi) stop.toNat_lt_size
  rw [UInt64.lt_iff_toNat_lt, UInt64.toNat_ofNat_of_lt' (hbound _ hfirst),
    UInt64.toNat_ofNat_of_lt' (hbound _ hsecond)]
  exact hlt

end PageSize

structure Trail where
  /-- The pages that have an entry, in order. -/
  entries : List (UInt64 × Entry) := []
  /-- The page at which the scan ended early. -/
  halt : Option (UInt64 × Halt) := none

namespace Trail

variable (trail : Trail)

def cons (address : UInt64) (entry : Entry) : Trail :=
  { trail with entries := (address, entry) :: trail.entries }

def visited : List UInt64 :=
  trail.entries.map Prod.fst ++ (trail.halt.map Prod.fst).toList

def ended : Option Outcome :=
  trail.halt.map fun (_, halt) => halt.outcome

def outcome : Outcome :=
  trail.ended.getD .completed

def lines (policy : Policy) : List Line :=
  trail.entries.filterMap fun (address, entry) =>
    (policy.content? entry).map (Line.page address)

def notices (table : Path) (policy : Policy) : List Notice :=
  (trail.entries.flatMap fun (address, entry) =>
    (policy.content? entry).toList.flatMap (PageContent.notices address)) ++
  (trail.halt.map fun (address, halt) => halt.notice table address).toList

/-- The trail of reads at some addresses, after a number of earlier reads. -/
def along (size : PageSize) (table : EntryTable) : Nat → List UInt64 → Trail
  | _, [] => {}
  | earlier, address :: rest =>
    match table.fetch earlier (size.index address) with
    | .ok (.entry entry) => (along size table (earlier + 1) rest).cons address entry
    | .ok (.short length) => { halt := some (address, .short length) }
    | .error failure => { halt := some (address, .fault failure) }

theorem along_of_entry {size : PageSize} {table : EntryTable} {earlier : Nat} {address : UInt64}
    {entry : Entry} (h : table.fetch earlier (size.index address) = .ok (.entry entry))
    (rest : List UInt64) :
    along size table earlier (address :: rest) =
      (along size table (earlier + 1) rest).cons address entry := by
  simp only [along, h]

theorem along_of_halt {size : PageSize} {table : EntryTable} {earlier : Nat} {address : UInt64}
    {halt : Halt} (h : table.fetch earlier (size.index address) = halt.answer)
    (rest : List UInt64) :
    along size table earlier (address :: rest) = { halt := some (address, halt) } := by
  cases halt <;> simp only [along, h, Halt.answer]

theorem along_append (size : PageSize) {table : EntryTable} {first : List UInt64} {earlier : Nat}
    (h : ∀ (i : Nat) (hi : i < first.length),
      ∃ entry, table.fetch (earlier + i) (size.index first[i]) = .ok (.entry entry))
    (rest : List UInt64) :
    (along size table earlier (first ++ rest)).visited =
        first ++ (along size table (earlier + first.length) rest).visited ∧
      (along size table earlier (first ++ rest)).outcome =
        (along size table (earlier + first.length) rest).outcome := by
  induction first generalizing earlier with
  | nil => exact ⟨rfl, rfl⟩
  | cons address first ih =>
    obtain ⟨entry, hfetch⟩ := h 0 (Nat.zero_lt_succ _)
    rw [Nat.add_zero, List.getElem_cons_zero] at hfetch
    have hrest : ∀ (i : Nat) (hi : i < first.length),
        ∃ entry, table.fetch (earlier + 1 + i) (size.index first[i]) = .ok (.entry entry) := by
      intro i hi
      have hnext := h (i + 1) (Nat.succ_lt_succ hi)
      rwa [← Nat.add_assoc, Nat.add_right_comm] at hnext
    obtain ⟨hvisited, houtcome⟩ := ih hrest
    have hlength : earlier + (address :: first).length = earlier + 1 + first.length := by
      rw [List.length_cons]
      omega
    rw [List.cons_append, along_of_entry hfetch, hlength]
    exact ⟨congrArg (address :: ·) hvisited, houtcome⟩

def ofSpan (size : PageSize) (table : EntryTable) (earlier : Nat) (s : Span) : Trail :=
  along size table earlier (size.addresses s.start s.stop)

end Trail

end FrameScan
