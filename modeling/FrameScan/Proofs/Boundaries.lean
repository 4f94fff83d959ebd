import FrameScan.Proofs.Alignment
import Mathlib.Order.Bounds.Basic

/-!
# Page boundaries

The page boundaries next to an address. `floor` is the last one up to it and `ceil` the first one
from it on. The end of the address space is a boundary as well, but it is no address, and where
it is the first one, `ceil` is the last page. On the way no difference is negative, and the one
sum that can be too large is not used then: `floor?` and `ceil?` are the same steps with such
operations refused. `rounded_to_boundaries` puts this together.
-/

namespace FrameScan

namespace Word

def minus? (a b : UInt64) : Option UInt64 :=
  if b ≤ a then some (a - b) else none

def plus? (a b : UInt64) : Option UInt64 :=
  if a.toNat + b.toNat < UInt64.size then some (a + b) else none

end Word

namespace PageSize

variable (size : PageSize)

/-- `floor`, with its difference refused if it is negative. -/
def floor? (address : UInt64) : Option UInt64 := do
  let low ← Word.minus? size.bytes 1
  return address &&& ~~~low

/-- `ceil`, with its difference refused if it is negative, and its sum if it is too large. -/
def ceil? (address : UInt64) : Option UInt64 := do
  let low ← Word.minus? size.bytes 1
  match Word.plus? address low with
  | some last => size.floor? last
  | none => size.floor? 0xFFFFFFFFFFFFFFFF

theorem minus?_one : Word.minus? size.bytes 1 = some (size.bytes - 1) := by
  apply if_pos
  rw [UInt64.le_iff_toNat_le]
  exact size.bytes_pos

theorem floor?_eq (address : UInt64) : size.floor? address = some (size.floor address) := by
  rw [floor?, minus?_one]
  rfl

theorem ceil?_eq (address : UInt64) : size.ceil? address = some (size.ceil address) := by
  rw [ceil?, minus?_one, Option.bind_eq_bind, Option.bind_some, Word.plus?, ceil]
  by_cases hfits : address.toNat + (size.bytes - 1).toNat < UInt64.size
  · rw [if_pos hfits, if_pos hfits]
    exact size.floor?_eq _
  · rw [if_neg hfits, if_neg hfits]
    exact size.floor?_eq _

theorem isGreatest_floor (address : UInt64) :
    IsGreatest {n | size.bytes.toNat ∣ n ∧ n ≤ address.toNat} (size.floor address).toNat := by
  refine ⟨⟨size.dvd_floor address, size.floor_le address⟩, ?_⟩
  rintro n ⟨⟨k, rfl⟩, hle⟩
  rw [Nat.mul_comm] at hle ⊢
  rw [toNat_floor]
  apply Nat.mul_le_mul_right
  exact (Nat.le_div_iff_mul_le size.bytes_pos).mpr hle

theorem isLeast_ceilDiv (address : UInt64) :
    IsLeast {n | size.bytes.toNat ∣ n ∧ address.toNat ≤ n}
      (address.toNat ⌈/⌉ size.bytes.toNat * size.bytes.toNat) := by
  have hpos := size.bytes_pos
  refine ⟨⟨Nat.dvd_mul_left _ _, ?_⟩, ?_⟩
  · rw [Nat.mul_comm]
    exact le_smul_ceilDiv hpos
  · rintro n ⟨⟨k, rfl⟩, hle⟩
    rw [Nat.mul_comm]
    apply Nat.mul_le_mul_left
    exact (ceilDiv_le_iff_le_mul hpos).mpr hle

variable {size} {boundary : Nat}

theorem toNat_ceil_of_isLeast {address : UInt64}
    (h : IsLeast {n | size.bytes.toNat ∣ n ∧ address.toNat ≤ n} boundary) :
    (size.ceil address).toNat = min boundary size.lastPage.toNat := by
  rw [h.unique (size.isLeast_ceilDiv address)]
  exact size.toNat_ceil address

theorem min_lastPage (h : size.bytes.toNat ∣ boundary) :
    min boundary size.lastPage.toNat =
      if boundary < 2 ^ 64 then boundary else 2 ^ 64 - size.bytes.toNat := by
  have hlast : size.lastPage.toNat + size.bytes.toNat = 2 ^ 64 := size.toNat_lastPage
  have hpos := size.bytes_pos
  split
  next hlt =>
    have hword : (UInt64.ofNat boundary).toNat = boundary := UInt64.toNat_ofNat_of_lt' hlt
    have hle : (UInt64.ofNat boundary).toNat ≤ size.lastPage.toNat := by
      apply size.le_lastPage
      rwa [hword]
    rw [hword] at hle
    exact Nat.min_eq_left hle
  next hend => omega

theorem floor_mono {first second : UInt64} (h : first ≤ second) :
    size.floor first ≤ size.floor second := by
  rw [UInt64.le_iff_toNat_le] at h ⊢
  apply (size.isGreatest_floor second).2
  exact ⟨size.dvd_floor first, Nat.le_trans (size.floor_le first) h⟩

theorem ceil_mono {first second : UInt64} (h : first ≤ second) :
    size.ceil first ≤ size.ceil second := by
  rw [UInt64.le_iff_toNat_le] at h ⊢
  have hfirst := size.isLeast_ceilDiv first
  have hsecond := size.isLeast_ceilDiv second
  -- The boundary from the second address on is one from the first on as well.
  have hle := hfirst.2 ⟨hsecond.1.1, Nat.le_trans h hsecond.1.2⟩
  rw [toNat_ceil_of_isLeast hfirst, toNat_ceil_of_isLeast hsecond]
  omega

theorem le_ceil_iff (address : UInt64) :
    address ≤ size.ceil address ↔ address.toNat ≤ 2 ^ 64 - size.bytes.toNat := by
  have hlast : size.lastPage.toNat + size.bytes.toNat = 2 ^ 64 := size.toNat_lastPage
  have hleast := size.isLeast_ceilDiv address
  have hle := hleast.1.2
  rw [UInt64.le_iff_toNat_le, toNat_ceil_of_isLeast hleast]
  omega

/-- For a page size that is accepted, no step of rounding leaves the words. The floor of an
address is the greatest multiple of the page size up to it. Its ceiling is the least multiple from
it on, or the last page where that multiple is too large for a word; so it is below the
address only in the last page, past the first byte. Both keep the order of addresses and change
nothing the second time. -/
theorem rounded_to_boundaries {bytes : UInt64} {size : PageSize}
    (hsize : PageSize.ofBytes bytes = .ok size) (address : UInt64) :
    (size.floor? address = some (size.floor address) ∧
      size.ceil? address = some (size.ceil address)) ∧
    IsGreatest {n | bytes.toNat ∣ n ∧ n ≤ address.toNat} (size.floor address).toNat ∧
    (∃ boundary, IsLeast {n | bytes.toNat ∣ n ∧ address.toNat ≤ n} boundary ∧
      (size.ceil address).toNat =
        if boundary < 2 ^ 64 then boundary else 2 ^ 64 - bytes.toNat) ∧
    (∀ other, address ≤ other →
      size.floor address ≤ size.floor other ∧ size.ceil address ≤ size.ceil other) ∧
    size.floor (size.floor address) = size.floor address ∧
    size.ceil (size.ceil address) = size.ceil address ∧
    (address ≤ size.ceil address ↔ address.toNat ≤ 2 ^ 64 - bytes.toNat) := by
  obtain rfl := ofBytes_eq_ok_iff.mp hsize
  have hleast := size.isLeast_ceilDiv address
  refine ⟨⟨size.floor?_eq address, size.ceil?_eq address⟩, size.isGreatest_floor address,
    ⟨_, hleast, ?_⟩, ?_, ?_, ?_, le_ceil_iff address⟩
  · rw [toNat_ceil_of_isLeast hleast, min_lastPage hleast.1.1]
  · intro other hle
    exact ⟨floor_mono hle, ceil_mono hle⟩
  · exact size.floor_of_dvd (size.dvd_floor address)
  · exact size.ceil_of_dvd (size.dvd_ceil address)

/-- Two addresses of the last page, past its first byte: both are rounded to its beginning, upward
and downward. -/
theorem last_page_rounded :
    let size : PageSize := ⟨0x1000, 12, rfl⟩
    let address : UInt64 := 0xFFFFFFFFFFFFF001
    PageSize.ofBytes 0x1000 = .ok size ∧ address ≤ 0xFFFFFFFFFFFFFFFF ∧
      size.floor? address = some 0xFFFFFFFFFFFFF000 ∧
      size.ceil? address = some 0xFFFFFFFFFFFFF000 ∧
      (0x1000 ∣ 0xFFFFFFFFFFFFF000 ∧ 0xFFFFFFFFFFFFF000 ≤ address.toNat) ∧
      size.ceil address ≤ size.ceil 0xFFFFFFFFFFFFFFFF ∧
      size.ceil (size.ceil address) = 0xFFFFFFFFFFFFF000 ∧ ¬ address ≤ size.ceil address := by
  intro size address
  have hsize : PageSize.ofBytes 0x1000 = .ok size := ofBytes_eq_ok_iff.mpr rfl
  have hle : address ≤ 0xFFFFFFFFFFFFFFFF := by decide
  have hfloor : size.floor address = 0xFFFFFFFFFFFFF000 := by decide
  have hceil : size.ceil address = 0xFFFFFFFFFFFFF000 := by decide
  obtain ⟨⟨hdown, hup⟩, hgreatest, -, hmono, -, hagain, hiff⟩ := rounded_to_boundaries hsize address
  refine ⟨hsize, hle, hfloor ▸ hdown, hceil ▸ hup, ?_, (hmono _ hle).2, hagain.trans hceil, ?_⟩
  · rw [hfloor] at hgreatest
    exact hgreatest.1
  · rw [hiff]
    decide

end PageSize

end FrameScan
