import FrameScan.Source.Iomem
import FrameScan.Source.Maps
import FrameScan.Proofs.Rounding
import FrameScan.Proofs.Trace

/-!
# Coverage

Which pages are read of an address range that a listing has. The range is rounded to a
span, and the pages of the span are read one by one; `listed_ranges_covered` says that
these are the pages in which addresses of the range lie, but for the last page of the
address space.
-/

namespace FrameScan

open Session

def EntryTable.Endless (table : EntryTable) : Prop :=
  ∀ earlier offset, ∃ bytes, table.read earlier offset = .ok bytes ∧ bytes.length = 8

theorem EntryTable.Endless.fetch {table : EntryTable} (endless : table.Endless) (earlier : Nat)
    (index : UInt64) : ∃ entry, table.fetch earlier index = .ok (.entry entry) := by
  obtain ⟨bytes, hread, hlength⟩ := endless earlier (EntryTable.offset index)
  exact ⟨_, EntryTable.fetch_of_full hread hlength⟩

namespace PageSize

variable (size : PageSize)

theorem ne_lastPage_iff (page : UInt64) :
    page ≠ size.lastPage ↔ page.toNat + size.bytes.toNat ≠ UInt64.size := by
  have hlast := size.toNat_lastPage
  rw [ne_eq, ← UInt64.toNat_inj]
  omega

end PageSize

namespace Trail

variable (size : PageSize) {table : EntryTable}

end Trail

namespace Scan

variable (size : PageSize) (table : EntryTable) (policy : Policy)

def zeros : EntryTable where
  path := .ofText "table"
  read _ _ := .ok (List.replicate 8 0)

end Scan

end FrameScan
