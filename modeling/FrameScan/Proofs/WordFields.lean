import FrameScan.FrameFlags
import FrameScan.VirtualPage
import Mathlib.Data.Nat.Digits.Defs

/-!
# Words taken apart

What is read of an entry, put together again. A word is the number that its eight bytes stand
for, and has these bytes. The fields of a virtual page make up its word but for three bits, so
`entries_decoded_whole` says that no more than these are lost.
-/

namespace FrameScan

namespace Word

/-- The number that bytes stand for, the first of them being the least significant. -/
def value (bytes : List UInt8) : Nat :=
  Nat.ofDigits 256 (bytes.map UInt8.toNat)

theorem value_cons (b : UInt8) (bytes : List UInt8) :
    value (b :: bytes) = b.toNat + 256 * value bytes :=
  Nat.ofDigits_cons

theorem value_lt (bytes : List UInt8) : value bytes < 256 ^ bytes.length := by
  have hdigits : ∀ digit ∈ bytes.map UInt8.toNat, digit < 256 := by
    intro digit hdigit
    obtain ⟨b, -, rfl⟩ := List.mem_map.mp hdigit
    exact b.toNat_lt
  have hlt := Nat.ofDigits_lt_base_pow_length (by decide) hdigits
  rwa [List.length_map] at hlt

theorem toNat_ofBytes {bytes : List UInt8} (h : bytes.length = 8) :
    (ofBytes bytes).toNat = value bytes := by
  have hlt := value_lt bytes
  have hfold : bytes.foldr (fun b rest => b.toNat + 256 * rest) 0 = value bytes := by
    clear h hlt
    induction bytes with
    | nil => rfl
    | cons b bytes ih => rw [List.foldr_cons, ih, value_cons]
  rw [h] at hlt
  rw [ofBytes, hfold]
  exact UInt64.toNat_ofNat_of_lt' hlt

theorem map_shiftRight_value (bytes : List UInt8) :
    (List.range bytes.length).map (fun i => UInt8.ofNat (value bytes >>> (8 * i))) = bytes := by
  induction bytes with
  | nil => rfl
  | cons b bytes ih =>
    have hb := b.toNat_lt
    have hfirst : UInt8.ofNat (value (b :: bytes) >>> (8 * 0)) = b := by
      rw [← UInt8.toNat_inj, UInt8.toNat_ofNat', value_cons]
      omega
    have hrest (i : Nat) :
        value (b :: bytes) >>> (8 * (i + 1)) = value bytes >>> (8 * i) := by
      have hdiv : (b.toNat + 256 * value bytes) >>> 8 = value bytes := by omega
      rw [value_cons, Nat.mul_succ, Nat.add_comm (8 * i), Nat.shiftRight_add, hdiv]
    rw [List.length_cons, List.range_succ_eq_map, List.map_cons, List.map_map, hfirst]
    refine congrArg (b :: ·) (Eq.trans ?_ ih)
    apply List.map_congr_left
    intro i _
    exact congrArg UInt8.ofNat (hrest i)

theorem toBytes_ofBytes {bytes : List UInt8} (h : bytes.length = 8) :
    toBytes (ofBytes bytes) = bytes := by
  have hbytes := map_shiftRight_value bytes
  rw [h] at hbytes
  rwa [toBytes, toNat_ofBytes h]

theorem value_map_shiftRight (count n : Nat) :
    value ((List.range count).map fun i => UInt8.ofNat (n >>> (8 * i))) = n % 256 ^ count := by
  induction count generalizing n with
  | zero => exact (Nat.mod_one n).symm
  | succ count ih =>
    have hrest (i : Nat) : n >>> (8 * (i + 1)) = (n >>> 8) >>> (8 * i) := by
      rw [Nat.mul_succ, Nat.add_comm (8 * i), Nat.shiftRight_add]
    have hfirst : (UInt8.ofNat (n >>> (8 * 0))).toNat = n % 256 := UInt8.toNat_ofNat'
    have hdiv : n >>> 8 = n / 256 := Nat.shiftRight_eq_div_pow n 8
    rw [List.range_succ_eq_map, List.map_cons, List.map_map, value_cons, hfirst, Nat.pow_succ',
      Nat.mod_mul, ← hdiv, ← ih (n >>> 8)]
    simp only [Function.comp_def, Nat.succ_eq_add_one, hrest]

theorem length_toBytes (word : UInt64) : (toBytes word).length = 8 := by
  rw [toBytes, List.length_map, List.length_range]

theorem ofBytes_toBytes (word : UInt64) : ofBytes (toBytes word) = word := by
  rw [← UInt64.toNat_inj, toNat_ofBytes (length_toBytes word), toBytes, value_map_shiftRight]
  exact Nat.mod_eq_of_lt word.toNat_lt_size

theorem bit_of_le (word : UInt64) {n : Nat} (h : 64 ≤ n) : bit word n = false := by
  have hpow : 2 ^ 64 ≤ 2 ^ n := Nat.pow_le_pow_right (by decide) h
  exact Nat.testBit_lt_two_pow (Nat.lt_of_lt_of_le word.toNat_lt_size hpow)

theorem toNat_bit (word : UInt64) (n : Nat) : (bit word n).toNat = word.toNat / 2 ^ n % 2 := by
  rw [bit, Nat.toNat_testBit]

@[simp]
theorem bit_zero (n : Nat) : bit 0 n = false :=
  Nat.zero_testBit n

@[simp]
theorem bit_and (a b : UInt64) (n : Nat) : bit (a &&& b) n = (bit a n && bit b n) := by
  rw [bit, UInt64.toNat_and, Nat.testBit_and]
  rfl

@[simp]
theorem bit_or (a b : UInt64) (n : Nat) : bit (a ||| b) n = (bit a n || bit b n) := by
  rw [bit, UInt64.toNat_or, Nat.testBit_or]
  rfl

theorem bit_not (word : UInt64) {n : Nat} (h : n < 64) : bit (~~~word) n = !bit word n := by
  have hsub : UInt64.size - 1 - word.toNat = 2 ^ 64 - (word.toNat + 1) := by
    rw [Nat.sub_sub, Nat.add_comm 1]
    rfl
  rw [bit, UInt64.toNat_not, hsub, Nat.testBit_two_pow_sub_succ word.toNat_lt_size,
    decide_eq_true h, Bool.true_and]
  rfl

theorem eq_of_bit_eq {a b : UInt64} (h : ∀ n < 64, bit a n = bit b n) : a = b := by
  rw [← UInt64.toNat_inj]
  apply Nat.eq_of_testBit_eq
  intro n
  by_cases hn : n < 64
  · exact h n hn
  · exact (bit_of_le a (Nat.le_of_not_lt hn)).trans (bit_of_le b (Nat.le_of_not_lt hn)).symm

end Word

namespace Entry

variable {bytes : List UInt8}

theorem ofLeading_of_lt (h : bytes.length < 8) :
    ofLeading bytes = .error (.malformedEntry none bytes.length none) :=
  dif_neg (Nat.not_le_of_lt h)

theorem ofLeading_of_le (h : 8 ≤ bytes.length) :
    ∃ entry, ofLeading bytes = .ok entry ∧ entry.word = Word.ofBytes (bytes.take 8) :=
  ⟨_, dif_pos h, rfl⟩

end Entry

namespace VirtualPage

/-- What is read of a page, without the word that it is read from. -/
structure Fields where
  frame : UInt64
  softDirty : Bool
  exclusive : Bool
  writeProtected : Bool
  fileShared : Bool
  swapped : Bool
  present : Bool
  deriving DecidableEq

variable (page : VirtualPage)

def fields : Fields where
  frame := page.frame
  softDirty := page.softDirty
  exclusive := page.exclusive
  writeProtected := page.writeProtected
  fileShared := page.fileShared
  swapped := page.swapped
  present := page.present

/-- The number of a word with some fields, and with a number in its reserved bits. -/
def Fields.number (fields : Fields) (reserved : Nat) : Nat :=
  fields.frame.toNat + 2 ^ 55 * fields.softDirty.toNat + 2 ^ 56 * fields.exclusive.toNat +
    2 ^ 57 * fields.writeProtected.toNat + 2 ^ 58 * reserved + 2 ^ 61 * fields.fileShared.toNat +
    2 ^ 62 * fields.swapped.toNat + 2 ^ 63 * fields.present.toNat

theorem toNat_frame : page.frame.toNat = page.word.toNat % 2 ^ 55 := by
  rw [frame, UInt64.toNat_and]
  exact Nat.and_two_pow_sub_one_eq_mod _ 55

theorem toNat_frame_lt : page.frame.toNat < 2 ^ 55 := by
  rw [toNat_frame]
  exact Nat.mod_lt _ (Nat.two_pow_pos 55)

theorem bit_frame (n : Nat) :
    Word.bit page.frame n = (decide (n < 55) && Word.bit page.word n) := by
  rw [Word.bit, toNat_frame, Nat.testBit_mod_two_pow]
  rfl

/-- The reserved bits of a word are all that its fields leave open. -/
theorem word_eq_number_iff {reserved : Nat} :
    reserved < 8 ∧ page.word.toNat = page.fields.number reserved ↔
      reserved = page.word.toNat / 2 ^ 58 % 8 := by
  have hword : page.word.toNat < 2 ^ 64 := page.word.toNat_lt_size
  simp only [Fields.number, fields, toNat_frame, softDirty, exclusive, writeProtected, fileShared,
    swapped, present, Word.toNat_bit]
  omega

theorem existsUnique_reserved :
    ∃! reserved, reserved < 8 ∧ page.word.toNat = page.fields.number reserved :=
  ⟨_, page.word_eq_number_iff.mpr rfl, fun _ => page.word_eq_number_iff.mp⟩

theorem fields_eq_iff {page other : VirtualPage} :
    page.fields = other.fields ↔
      ∀ n, n < 58 ∨ 60 < n → Word.bit page.word n = Word.bit other.word n := by
  constructor
  · intro h n hn
    injection h with hframe hdirty hexclusive hprotected hshared hswapped hpresent
    by_cases hlow : n < 55
    · have hbit := congrArg (Word.bit · n) hframe
      simpa only [bit_frame, decide_eq_true hlow, Bool.true_and] using hbit
    · by_cases hhigh : 64 ≤ n
      · rw [Word.bit_of_le _ hhigh, Word.bit_of_le _ hhigh]
      · obtain rfl | rfl | rfl | rfl | rfl | rfl :
            n = 55 ∨ n = 56 ∨ n = 57 ∨ n = 61 ∨ n = 62 ∨ n = 63 := by omega
        · exact hdirty
        · exact hexclusive
        · exact hprotected
        · exact hshared
        · exact hswapped
        · exact hpresent
  · intro h
    have hframe : page.frame = other.frame := by
      apply Word.eq_of_bit_eq
      intro n _
      rw [bit_frame, bit_frame]
      by_cases hlow : n < 55
      · rw [h n (.inl (by omega))]
      · rw [decide_eq_false hlow, Bool.false_and, Bool.false_and]
    rw [fields, fields, hframe, softDirty, exclusive, writeProtected, fileShared, swapped, present,
      h 55 (.inl (by decide)), h 56 (.inl (by decide)), h 57 (.inl (by decide)),
      h 61 (.inr (by decide)), h 62 (.inr (by decide)), h 63 (.inr (by decide))]
    rfl

theorem isSome_swapSlot? : page.swapSlot?.isSome = page.swapped := by
  rw [swapSlot?]
  cases page.swapped <;> rfl

theorem swapSlot?_splits {slot : SwapSlot} (h : page.swapSlot? = some slot) :
    slot.area.toNat < 32 ∧ slot.offset.toNat < 2 ^ 50 ∧
      slot.area.toNat + 32 * slot.offset.toNat = page.frame.toNat := by
  have hframe := page.toNat_frame_lt
  rw [swapSlot?, Option.ite_none_right_eq_some, Option.some.injEq] at h
  obtain ⟨-, rfl⟩ := h
  have harea : (page.frame &&& areaMask).toNat = page.frame.toNat % 2 ^ 5 := by
    rw [UInt64.toNat_and]
    exact Nat.and_two_pow_sub_one_eq_mod _ 5
  have hoffset : (page.frame >>> 5).toNat = page.frame.toNat / 2 ^ 5 := by
    rw [UInt64.toNat_shiftRight]
    exact Nat.shiftRight_eq_div_pow _ 5
  simp only [harea, hoffset]
  omega

end VirtualPage

/-- Fewer than eight bytes are no entry, and how many there were is said. Of eight bytes and more
the first eight make the word, which has these bytes. The fields of a page are parts of its
word, and the three reserved bits make up the rest of it. A page that is swapped out, and no
other, has its frame number for a place in swap. -/
theorem entries_decoded_whole (bytes : List UInt8) :
    (bytes.length < 8 →
      VirtualPage.decode bytes = .error (.malformedEntry none bytes.length none) ∧
      FrameFlags.decode bytes = .error (.malformedEntry none bytes.length none)) ∧
    (8 ≤ bytes.length → ∃ word : UInt64,
      VirtualPage.decode bytes = .ok ⟨word⟩ ∧ FrameFlags.decode bytes = .ok ⟨word⟩ ∧
      word.toNat = Word.value (bytes.take 8) ∧ Word.toBytes word = bytes.take 8) ∧
    ∀ page : VirtualPage,
      page.frame.toNat < 2 ^ 55 ∧
      (∃! reserved, reserved < 8 ∧ page.word.toNat = page.fields.number reserved) ∧
      (∀ other : VirtualPage, page.fields = other.fields ↔
        ∀ n, n < 58 ∨ 60 < n → Word.bit page.word n = Word.bit other.word n) ∧
      page.swapSlot?.isSome = page.swapped ∧
      ∀ slot, page.swapSlot? = some slot →
        slot.area.toNat < 32 ∧ slot.offset.toNat < 2 ^ 50 ∧
          slot.area.toNat + 32 * slot.offset.toNat = page.frame.toNat := by
  refine ⟨?_, ?_, fun page => ⟨page.toNat_frame_lt, page.existsUnique_reserved,
    fun _ => VirtualPage.fields_eq_iff, page.isSome_swapSlot?, fun _ => page.swapSlot?_splits⟩⟩
  · intro hshort
    rw [VirtualPage.decode, FrameFlags.decode, Entry.ofLeading_of_lt hshort]
    exact ⟨rfl, rfl⟩
  · intro hlong
    obtain ⟨entry, hentry, hword⟩ := Entry.ofLeading_of_le hlong
    have hlength : (bytes.take 8).length = 8 := by
      rw [List.length_take, Nat.min_eq_left hlong]
    rw [VirtualPage.decode, FrameFlags.decode, hentry]
    refine ⟨entry.word, rfl, rfl, ?_, ?_⟩
    · rw [hword, Word.toNat_ofBytes hlength]
    · rw [hword, Word.toBytes_ofBytes hlength]

/-- A page that is swapped out, with two reserved bits set and a byte too many; and the same bytes
without the last two. -/
theorem swapped_page_decoded :
    let bytes : List UInt8 := [0x43, 0x08, 0, 0, 0, 0, 0, 0x4C, 0xFF]
    let page : VirtualPage := ⟨0x4C00000000000843⟩
    VirtualPage.decode (bytes.take 7) = .error (.malformedEntry none 7 none) ∧
      VirtualPage.decode bytes = .ok page ∧ Word.toBytes page.word = bytes.take 8 ∧
      page.word.toNat = page.fields.number 3 ∧
      (∀ n, n < 58 ∨ 60 < n → Word.bit page.word n = Word.bit 0x4000000000000843 n) ∧
      page.swapSlot? = some ⟨3, 0x42⟩ ∧ 3 + 32 * 0x42 = page.frame.toNat := by
  intro bytes page
  obtain ⟨hshort, -, -⟩ := entries_decoded_whole (bytes.take 7)
  obtain ⟨-, hlong, hpages⟩ := entries_decoded_whole bytes
  obtain ⟨-, ⟨reserved, hreserved, -⟩, hfields, -, hslot⟩ := hpages page
  obtain ⟨word, hdecode, -, hvalue, hbytes⟩ := hlong (by decide)
  have hword : word = page.word := by
    rw [← UInt64.toNat_inj, hvalue]
    decide
  rw [hword] at hdecode hbytes
  have hswap : page.swapSlot? = some ⟨3, 0x42⟩ := by decide
  refine ⟨(hshort (by decide)).1, hdecode, hbytes, ?_, ?_, hswap, (hslot _ hswap).2.2⟩
  · have hthree : reserved = 3 := (page.word_eq_number_iff.mp hreserved).trans (by decide)
    rw [← hthree]
    exact hreserved.2
  · exact (hfields ⟨0x4000000000000843⟩).mp (by decide)

end FrameScan
