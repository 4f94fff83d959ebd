import FrameScan.Failure
import FrameScan.Word

/-!
# Table entries

The eight bytes that a table holds for one page.
-/

namespace FrameScan

structure Entry where
  bytes : List UInt8
  length_eq : bytes.length = 8
  deriving DecidableEq, Repr

namespace Entry

def word (entry : Entry) : UInt64 :=
  Word.ofBytes entry.bytes

/-- The entry that a byte sequence begins with. -/
def ofLeading (bytes : List UInt8) : Except Failure Entry :=
  if h : 8 ≤ bytes.length then
    .ok ⟨bytes.take 8, by rw [List.length_take, Nat.min_eq_left h]⟩
  else
    .error (.malformedEntry none bytes.length none)

end Entry

end FrameScan
