import FrameScan.PageSize
import Mathlib.Algebra.Order.Floor.Div
import Mathlib.Algebra.Ring.Nat

/-!
# Rounding to pages

The masks of a page size as arithmetic: `floor` is the last page boundary up to an
address, and `ceil` the first one from it on, as far as the last page of the address
space. Which page boundaries lie below a bound does not change when the bound is
rounded up, the last page apart.
-/

namespace FrameScan.PageSize

variable (size : PageSize)

theorem dvd_size : size.bytes.toNat ∣ UInt64.size := by
  obtain ⟨k, hk⟩ := size.isPowerOfTwo
  have hlt : 2 ^ k < 2 ^ 64 := hk ▸ size.bytes.toNat_lt_size
  have hle : k ≤ 64 := Nat.le_of_lt ((Nat.pow_lt_pow_iff_right (by decide)).mp hlt)
  rw [hk]
  exact Nat.pow_dvd_pow 2 hle

theorem toNat_bytes_sub_one : (size.bytes - 1).toNat = size.bytes.toNat - 1 := by
  have hpos := size.bytes_pos
  have hle : (1 : UInt64) ≤ size.bytes := by
    rw [UInt64.le_iff_toNat_le]
    exact hpos
  rw [UInt64.toNat_sub_of_le _ _ hle]
  rfl

theorem and_high_bits {n k : Nat} (hn : n < 2 ^ 64) (hk : k < 64) :
    n &&& (2 ^ 64 - 1 - (2 ^ k - 1)) = n / 2 ^ k * 2 ^ k := by
  have hpow : 2 ^ k - 1 < 2 ^ 64 := by
    have := Nat.pow_lt_pow_of_lt (a := 2) (by decide) hk
    omega
  rw [Nat.sub_sub, Nat.add_comm 1, ← Nat.shiftRight_eq_div_pow, ← Nat.shiftLeft_eq]
  apply Nat.eq_of_testBit_eq
  intro i
  rw [Nat.testBit_and, Nat.testBit_two_pow_sub_succ hpow, Nat.testBit_two_pow_sub_one,
    Nat.testBit_shiftLeft, Nat.testBit_shiftRight]
  by_cases hik : i < k
  · have hnot : ¬ k ≤ i := by omega
    simp [hik, hnot]
  · have hadd : k + (i - k) = i := by omega
    by_cases hi : i < 64
    · have hle : k ≤ i := by omega
      simp [hik, hi, hle, hadd]
    · have hbit : n.testBit i = false :=
        Nat.testBit_lt_two_pow (Nat.lt_of_lt_of_le hn (Nat.pow_le_pow_right (by decide) (by omega)))
      simp [hadd, hbit]

theorem toNat_floor (address : UInt64) :
    (size.floor address).toNat =
      address.toNat / size.bytes.toNat * size.bytes.toNat := by
  obtain ⟨k, hk⟩ := size.isPowerOfTwo
  have hlt : k < 64 := (Nat.pow_lt_pow_iff_right (by decide)).mp (hk ▸ size.bytes.toNat_lt_size)
  rw [floor, UInt64.toNat_and, UInt64.toNat_not, toNat_bytes_sub_one, hk]
  exact and_high_bits address.toNat_lt_size hlt

theorem dvd_floor (address : UInt64) : size.bytes.toNat ∣ (size.floor address).toNat := by
  rw [toNat_floor]
  exact Nat.dvd_mul_left _ _

theorem floor_le (address : UInt64) : (size.floor address).toNat ≤ address.toNat := by
  rw [toNat_floor]
  exact Nat.div_mul_le_self _ _

theorem lt_floor_add (address : UInt64) :
    address.toNat < (size.floor address).toNat + size.bytes.toNat := by
  rw [toNat_floor]
  exact Nat.lt_div_mul_add size.bytes_pos

def lastPage : UInt64 :=
  size.floor 0xFFFFFFFFFFFFFFFF

theorem dvd_lastPage : size.bytes.toNat ∣ size.lastPage.toNat :=
  size.dvd_floor _

theorem toNat_lastPage : size.lastPage.toNat + size.bytes.toNat = UInt64.size := by
  have hle : size.lastPage.toNat ≤ UInt64.size - 1 := size.floor_le 0xFFFFFFFFFFFFFFFF
  have hlt : UInt64.size - 1 < size.lastPage.toNat + size.bytes.toNat :=
    size.lt_floor_add 0xFFFFFFFFFFFFFFFF
  -- What is left up to the end of the address space is less than a page, and whole pages.
  have hdvd : size.bytes.toNat ∣ size.lastPage.toNat + size.bytes.toNat - UInt64.size :=
    Nat.dvd_sub (Nat.dvd_add size.dvd_lastPage (Nat.dvd_refl _)) size.dvd_size
  have hrest : size.lastPage.toNat + size.bytes.toNat - UInt64.size < size.bytes.toNat := by
    have hpos := size.bytes_pos
    have hsize : 0 < UInt64.size := by decide
    omega
  have hzero := Nat.eq_zero_of_dvd_of_lt hdvd hrest
  omega

variable {page : UInt64}

theorem le_lastPage (hpage : size.bytes.toNat ∣ page.toNat) :
    page.toNat ≤ size.lastPage.toNat := by
  have hlast := size.toNat_lastPage
  have hlt := page.toNat_lt_size
  have hdvd : size.bytes.toNat ∣ UInt64.size - page.toNat := Nat.dvd_sub size.dvd_size hpage
  have hle := Nat.le_of_dvd (by omega) hdvd
  omega

/-- A page lies below a rounded end if its first address is below the end, except for the
last page, which is below no rounded end. -/
theorem lt_ceil_iff (hpage : size.bytes.toNat ∣ page.toNat) (stop : UInt64) :
    page.toNat < (size.ceil stop).toNat ↔ page.toNat < stop.toNat ∧ page ≠ size.lastPage := by
  have hpos := size.bytes_pos
  have hlast := size.toNat_lastPage
  have hle := size.le_lastPage hpage
  have hne : page ≠ size.lastPage ↔ page.toNat ≠ size.lastPage.toNat :=
    not_congr UInt64.toNat_inj.symm
  rw [hne, ceil, toNat_bytes_sub_one]
  split
  next hfits =>
    have hadd : (stop + (size.bytes - 1)).toNat = stop.toNat + (size.bytes.toNat - 1) := by
      rw [UInt64.toNat_add, toNat_bytes_sub_one, Nat.mod_eq_of_lt hfits]
    obtain ⟨n, hn⟩ := hpage
    have hmul : (n + 1) * size.bytes.toNat = page.toNat + size.bytes.toNat := by
      rw [hn, Nat.succ_mul, Nat.mul_comm]
    rw [toNat_floor, hadd, hn, Nat.mul_comm _ n, Nat.mul_lt_mul_right hpos, ← Nat.succ_le_iff,
      Nat.le_div_iff_mul_le hpos, Nat.succ_eq_add_one, hmul, Nat.mul_comm n, ← hn]
    omega
  next hclamped =>
    rw [show size.floor 0xFFFFFFFFFFFFFFFF = size.lastPage from rfl]
    omega

theorem toNat_ceil (address : UInt64) :
    (size.ceil address).toNat =
      min (address.toNat ⌈/⌉ size.bytes.toNat * size.bytes.toNat) size.lastPage.toNat := by
  have hpos := size.bytes_pos
  have hlast := size.toNat_lastPage
  have hpred : address.toNat + size.bytes.toNat - 1 = address.toNat + (size.bytes.toNat - 1) := by
    omega
  rw [Nat.ceilDiv_eq_add_pred_div, hpred, ceil, toNat_bytes_sub_one]
  split
  next hfits =>
    have hadd : (address + (size.bytes - 1)).toNat = address.toNat + (size.bytes.toNat - 1) := by
      rw [UInt64.toNat_add, toNat_bytes_sub_one, Nat.mod_eq_of_lt hfits]
    have hle := size.le_lastPage (size.dvd_floor (address + (size.bytes - 1)))
    rw [toNat_floor, hadd] at hle ⊢
    exact (Nat.min_eq_left hle).symm
  next hclamped =>
    have hlt := Nat.lt_div_mul_add hpos (a := address.toNat + (size.bytes.toNat - 1))
    have hle : size.lastPage.toNat ≤
        (address.toNat + (size.bytes.toNat - 1)) / size.bytes.toNat * size.bytes.toNat := by
      omega
    exact (Nat.min_eq_right hle).symm

theorem ceil_lt_add (address : UInt64) :
    (size.ceil address).toNat < address.toNat + size.bytes.toNat := by
  have hpos := size.bytes_pos
  have hup := Nat.div_mul_le_self (address.toNat + size.bytes.toNat - 1) size.bytes.toNat
  rw [toNat_ceil, Nat.ceilDiv_eq_add_pred_div]
  omega

theorem floor_of_dvd (hpage : size.bytes.toNat ∣ page.toNat) : size.floor page = page := by
  rw [← UInt64.toNat_inj, toNat_floor, Nat.div_mul_cancel hpage]

theorem ceil_of_dvd (hpage : size.bytes.toNat ∣ page.toNat) : size.ceil page = page := by
  have hle := size.le_lastPage hpage
  obtain ⟨n, hn⟩ := hpage
  have hdiv : size.bytes.toNat * n ⌈/⌉ size.bytes.toNat = n := smul_ceilDiv size.bytes_pos n
  rw [← UInt64.toNat_inj, toNat_ceil, hn, hdiv, Nat.mul_comm n, ← hn, Nat.min_eq_left hle]

end FrameScan.PageSize
