import FrameScan.Content
import FrameScan.Entry
import FrameScan.Path

/-!
# Entry tables

A table holds eight bytes for each page, by page number. It is read at explicit
offsets, eight bytes at a time. What a read answers may depend on how many reads
were asked before it; `Steady` says that it does not.
-/

namespace FrameScan

structure EntryTable where
  path : Path
  /-- The answer to a read of eight bytes at an offset, after a number of earlier reads. -/
  read : (earlier : Nat) → (offset : UInt64) → Except SystemError (List UInt8)

/-- What a table has for a page: an entry, or fewer bytes than that where it ends. -/
inductive Fetch where
  | entry (entry : Entry)
  | short (length : Nat)
  deriving DecidableEq, Repr

namespace EntryTable

def ofBytes (path : Path) (content : Content) : EntryTable :=
  ⟨path, fun _ offset => .ok (content.readAt offset 8)⟩

def Steady (table : EntryTable) : Prop :=
  ∀ earlier offset, table.read earlier offset = table.read 0 offset

/-- The offset of the entry of a page, modulo 2^64. -/
def offset (index : UInt64) : UInt64 :=
  index * 8

/-- Read the entry of a page. A read that fails is a malformed entry at its offset. -/
def fetch (table : EntryTable) (earlier : Nat) (index : UInt64) : Except Failure Fetch :=
  match table.read earlier (offset index) with
  | .ok bytes => .ok (if h : bytes.length = 8 then .entry ⟨bytes, h⟩ else .short bytes.length)
  | .error cause => .error (.malformedEntry (some (offset index)) 0 (some cause))

end EntryTable

end FrameScan
