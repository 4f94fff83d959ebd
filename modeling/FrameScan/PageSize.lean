import FrameScan.Failure

/-!
# Page sizes

A page size is a power of two, so an address is rounded to a page by clearing
its low bits. Rounding up stops at the last page of the address space, and so
does going on from page to page.
-/

namespace FrameScan

structure PageSize where
  bytes : UInt64
  isPowerOfTwo : bytes.toNat.isPowerOfTwo
  deriving DecidableEq

namespace PageSize

def ofBytes (bytes : UInt64) : Except Failure PageSize :=
  if h : bytes.toNat.isPowerOfTwo then .ok ⟨bytes, h⟩
  else .error (.invalidArgument (.pageSize bytes))

theorem ofBytes_eq_ok_iff {bytes : UInt64} {size : PageSize} :
    ofBytes bytes = .ok size ↔ size.bytes = bytes := by
  unfold ofBytes
  constructor
  · intro h
    split at h
    · exact congrArg PageSize.bytes (Except.ok.inj h).symm
    · cases h
  · rintro rfl
    exact dif_pos size.isPowerOfTwo

variable (size : PageSize)

theorem bytes_pos : 0 < size.bytes.toNat := by
  obtain ⟨k, hk⟩ := size.isPowerOfTwo
  exact hk ▸ Nat.two_pow_pos k

def floor (address : UInt64) : UInt64 :=
  address &&& ~~~(size.bytes - 1)

def ceil (address : UInt64) : UInt64 :=
  if address.toNat + (size.bytes - 1).toNat < UInt64.size then size.floor (address + (size.bytes - 1))
  else size.floor 0xFFFFFFFFFFFFFFFF

/-- The number of the page that an address lies in. -/
def index (address : UInt64) : UInt64 :=
  address / size.bytes

/-- Whether the address one page further on is within the address space. -/
def HasNext (address : UInt64) : Prop :=
  address.toNat + size.bytes.toNat < UInt64.size

instance (address : UInt64) : Decidable (size.HasNext address) :=
  inferInstanceAs (Decidable (_ < _))

def next (address : UInt64) : UInt64 :=
  address + size.bytes

theorem toNat_next {address : UInt64} (h : size.HasNext address) :
    (size.next address).toNat = address.toNat + size.bytes.toNat := by
  rw [next, UInt64.toNat_add, Nat.mod_eq_of_lt h]

end PageSize

end FrameScan
