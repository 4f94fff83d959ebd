import FrameScan.Proofs.LineFeeds
import Mathlib.Tactic.IntervalCases

/-!
# Shown text

Bytes of any kind are shown as text, with replacement characters where they are none. Bytes
that are text are shown unchanged (`lossy_encode`), so the path of an executable is what the
header of its process has for a label.
-/

namespace FrameScan.Text.Utf8

namespace Progress

variable {value n : Nat} {low high : UInt8} {rest : List UInt8}

theorem first_of_two (h : 2 ≤ n ∧ n < 32) :
    first (UInt8.ofNat (n + 192)) = ([], .within n 0x80 0xBF 0) := by
  obtain ⟨hlow, hhigh⟩ := h
  interval_cases n <;> rfl

theorem first_of_three (h : n < 16) :
    first (UInt8.ofNat (n + 224)) =
      ([], .within n (if n = 0 then 0xA0 else 0x80) (if n = 13 then 0x9F else 0xBF) 1) := by
  interval_cases n <;> rfl

theorem first_of_four (h : n ≤ 4) :
    first (UInt8.ofNat (n + 240)) =
      ([], .within n (if n = 0 then 0x90 else 0x80) (if n = 4 then 0x8F else 0xBF) 2) := by
  interval_cases n <;> rfl

theorem lossy_of_first {b : UInt8} {progress : Progress} (h : first b = ([], progress)) :
    fresh.lossy (b :: rest) = progress.lossy rest := by
  rw [lossy, next, h, List.nil_append]

theorem continues (hn : n < 64) (hlow : low.toNat ≤ n + 128) (hhigh : n + 128 ≤ high.toNat) :
    (UInt8.ofNat (n + 128)).toNat = n + 128 ∧
      low ≤ UInt8.ofNat (n + 128) ∧ UInt8.ofNat (n + 128) ≤ high := by
  have hlt : n + 128 < UInt8.size := by
    rw [show UInt8.size = 256 from rfl]
    omega
  have hbyte := UInt8.toNat_ofNat_of_lt' hlt
  rw [UInt8.le_iff_toNat_le, UInt8.le_iff_toNat_le, hbyte]
  exact ⟨rfl, hlow, hhigh⟩

theorem lossy_within_more (hn : n < 64) (hlow : low.toNat ≤ n + 128)
    (hhigh : n + 128 ≤ high.toNat) (more : Nat) :
    (within value low high (more + 1)).lossy (UInt8.ofNat (n + 128) :: rest) =
      (within (64 * value + n) 0x80 0xBF more).lossy rest := by
  obtain ⟨hbyte, hin⟩ := continues hn hlow hhigh
  have hnext : (within value low high (more + 1)).next (UInt8.ofNat (n + 128)) =
      ([], within (64 * value + n) 0x80 0xBF more) := by
    simp only [next, if_pos hin, hbyte, Nat.add_sub_cancel]
  rw [lossy, hnext, List.nil_append]

theorem bounds_of_lt (hn : n < 64) :
    (0x80 : UInt8).toNat ≤ n + 128 ∧ n + 128 ≤ (0xBF : UInt8).toNat := by
  simp only [UInt8.reduceToNat]
  omega

theorem lossy_more (hn : n < 64) (more : Nat) :
    (within value 0x80 0xBF (more + 1)).lossy (UInt8.ofNat (n + 128) :: rest) =
      (within (64 * value + n) 0x80 0xBF more).lossy rest := by
  obtain ⟨hlow, hhigh⟩ := bounds_of_lt hn
  exact lossy_within_more hn hlow hhigh more

theorem lossy_last (hn : n < 64) :
    (within value 0x80 0xBF 0).lossy (UInt8.ofNat (n + 128) :: rest) =
      Char.ofNat (64 * value + n) :: fresh.lossy rest := by
  obtain ⟨hlow, hhigh⟩ := bounds_of_lt hn
  obtain ⟨hbyte, hin⟩ := continues hn hlow hhigh
  have hnext : (within value 0x80 0xBF 0).next (UInt8.ofNat (n + 128)) =
      ([Char.ofNat (64 * value + n)], fresh) := by
    simp only [next, if_pos hin, hbyte, Nat.add_sub_cancel]
  rw [lossy, hnext, List.singleton_append]

theorem lossy_one (h : n < 128) :
    fresh.lossy (UInt8.ofNat n :: rest) = Char.ofNat n :: fresh.lossy rest := by
  have hbyte : (UInt8.ofNat n).toNat = n :=
    UInt8.toNat_ofNat_of_lt' (Nat.lt_trans h (by decide))
  have hlt : UInt8.ofNat n < 0x80 := by
    rw [UInt8.lt_iff_toNat_lt, hbyte]
    exact h
  rw [lossy, next, first, if_pos hlt, hbyte]
  rfl

theorem lossy_two (h : 128 ≤ n ∧ n < 0x800) :
    fresh.lossy (UInt8.ofNat (n / 64 % 32 + 192) :: UInt8.ofNat (n % 64 + 128) :: rest) =
      Char.ofNat n :: fresh.lossy rest := by
  have hvalue : 64 * (n / 64 % 32) + n % 64 = n := by omega
  rw [lossy_of_first (first_of_two (by omega)), lossy_last (Nat.mod_lt n (by decide)), hvalue]

theorem lossy_three (hlow : 0x800 ≤ n ∧ n < 0x10000) (hvalid : n < 0xD800 ∨ 0xDFFF < n) :
    fresh.lossy (UInt8.ofNat (n / 4096 % 16 + 224) :: UInt8.ofNat (n / 64 % 64 + 128) ::
        UInt8.ofNat (n % 64 + 128) :: rest) =
      Char.ofNat n :: fresh.lossy rest := by
  have hvalue : 64 * (64 * (n / 4096 % 16) + n / 64 % 64) + n % 64 = n := by omega
  rw [lossy_of_first (first_of_three (by omega)), lossy_within_more (Nat.mod_lt _ (by decide)),
    lossy_last (Nat.mod_lt n (by decide)), hvalue]
  -- The second byte has bounds of its own for two of the first ones.
  · split <;> simp only [UInt8.reduceToNat] <;> omega
  · split <;> simp only [UInt8.reduceToNat] <;> omega

theorem lossy_four (h : 0x10000 ≤ n ∧ n < 0x110000) :
    fresh.lossy (UInt8.ofNat (n / 262144 % 8 + 240) :: UInt8.ofNat (n / 4096 % 64 + 128) ::
        UInt8.ofNat (n / 64 % 64 + 128) :: UInt8.ofNat (n % 64 + 128) :: rest) =
      Char.ofNat n :: fresh.lossy rest := by
  have hvalue :
      64 * (64 * (64 * (n / 262144 % 8) + n / 4096 % 64) + n / 64 % 64) + n % 64 = n := by omega
  rw [lossy_of_first (first_of_four (by omega)), lossy_within_more (Nat.mod_lt _ (by decide)),
    lossy_more (Nat.mod_lt _ (by decide)), lossy_last (Nat.mod_lt n (by decide)), hvalue]
  · split <;> simp only [UInt8.reduceToNat] <;> omega
  · split <;> simp only [UInt8.reduceToNat] <;> omega

theorem lossy_utf8EncodeChar (c : Char) (rest : List UInt8) :
    fresh.lossy (String.utf8EncodeChar c ++ rest) = c :: fresh.lossy rest := by
  have hvalid : c.toNat < 0xD800 ∨ 0xDFFF < c.toNat ∧ c.toNat < 0x110000 := c.valid
  nth_rewrite 2 [← Char.ofNat_toNat c]
  unfold String.utf8EncodeChar
  dsimp only
  rw [Char.toNat_val]
  split
  next hone => exact lossy_one (by omega)
  split
  next hone htwo => exact lossy_two (by omega)
  split
  next hone htwo hthree => exact lossy_three (by omega) (by omega)
  next hone htwo hthree => exact lossy_four (by omega)

theorem lossy_flatMap (chars : List Char) :
    fresh.lossy (chars.flatMap String.utf8EncodeChar) = chars := by
  induction chars with
  | nil => rfl
  | cons c chars ih => rw [List.flatMap_cons, lossy_utf8EncodeChar, ih]

end Progress

/-- Bytes that are text are shown as that text. -/
theorem lossy_encode (text : String) : lossy (encode text) = text := by
  rw [lossy, encode_eq_flatMap, Progress.lossy_flatMap, String.ofList_toList]

end FrameScan.Text.Utf8
