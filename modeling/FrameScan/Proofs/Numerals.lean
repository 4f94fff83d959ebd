import FrameScan.Text.Numeral

/-!
# Written numerals

What is written in some base is read back in it. The word of sixteen hexadecimal digits has
a fixed form: `0x`, and sixteen digits whose value is the word.
-/

namespace FrameScan.Text.Numeral

theorem digitChar_cases {d : Nat} (h : d < 16) :
    ('0' ≤ Nat.digitChar d ∧ Nat.digitChar d ≤ '9') ∧
        (Nat.digitChar d).toNat - '0'.toNat = d ∨
      ¬ ('0' ≤ Nat.digitChar d ∧ Nat.digitChar d ≤ '9') ∧
        ('a' ≤ Nat.digitChar d ∧ Nat.digitChar d ≤ 'f') ∧
        (Nat.digitChar d).toNat - 'a'.toNat + 10 = d := by
  revert d
  decide

theorem digit?_digitChar {base d : Nat} (hbase : base ≤ 16) (h : d < base) :
    digit? base (Nat.digitChar d) = some d := by
  have hbelow : digit?.below base d = some d := if_pos h
  rcases digitChar_cases (Nat.lt_of_lt_of_le h hbase) with
    ⟨hdecimal, hvalue⟩ | ⟨hother, hletter, hvalue⟩
  · rw [digit?, if_pos hdecimal, hvalue, hbelow]
  · rw [digit?, if_neg hother, if_pos hletter, hvalue, hbelow]

def push (base n : Nat) (c : Char) : Option Nat :=
  (digit? base c).map (base * n + ·)

theorem value?_of_ne_nil {base : Nat} {digits : List Char} (h : digits ≠ []) :
    value? base digits = digits.foldlM (push base) 0 := by
  cases digits with
  | nil => exact absurd rfl h
  | cons c rest => rfl

theorem push_digitChar {base d : Nat} (hbase : base ≤ 16) (h : d < base) (n : Nat) :
    push base n (Nat.digitChar d) = some (base * n + d) := by
  rw [push, digit?_digitChar hbase h, Option.map_some]

/-- The digits of a number are read as the number. The induction is on its value, a digit
less for each step. -/
theorem foldlM_toDigits {base : Nat} (hone : 1 < base) (hbase : base ≤ 16) (n : Nat) :
    (Nat.toDigits base n).foldlM (push base) 0 = some n := by
  induction n using Nat.strongRecOn with
  | ind n ih =>
    by_cases h : n < base
    · rw [Nat.toDigits_of_lt_base h, List.foldlM_cons, push_digitChar hbase h]
      simp
    · have hle : base ≤ n := Nat.le_of_not_lt h
      have hdiv : n / base < n := Nat.div_lt_self (by omega) hone
      have hmod : n % base < base := Nat.mod_lt n (by omega)
      rw [Nat.toDigits_of_base_le hone hle, List.foldlM_append, ih _ hdiv]
      have hlast := push_digitChar hbase hmod (n / base)
      rw [Nat.div_add_mod] at hlast
      simp [hlast]

theorem value?_toDigits {base : Nat} (hone : 1 < base) (hbase : base ≤ 16) (n : Nat) :
    value? base (Nat.toDigits base n) = some n := by
  rw [value?_of_ne_nil Nat.toDigits_ne_nil, foldlM_toDigits hone hbase]

theorem foldlM_replicate_zero {base : Nat} (hone : 1 < base) (hbase : base ≤ 16) (count : Nat) :
    (List.replicate count '0').foldlM (push base) 0 = some 0 := by
  have hzero : push base 0 '0' = some 0 := push_digitChar hbase (by omega : 0 < base) 0
  induction count with
  | zero => rfl
  | succ count ih =>
    rw [List.replicate_succ, List.foldlM_cons, hzero]
    exact ih

theorem value?_leftpad {base : Nat} (hone : 1 < base) (hbase : base ≤ 16) (width n : Nat) :
    value? base ((Nat.toDigits base n).leftpad width '0') = some n := by
  have hne : (Nat.toDigits base n).leftpad width '0' ≠ [] := by
    rw [List.leftpad]
    exact List.append_ne_nil_of_right_ne_nil _ Nat.toDigits_ne_nil
  rw [value?_of_ne_nil hne, List.leftpad, List.foldlM_append, foldlM_replicate_zero hone hbase]
  exact foldlM_toDigits hone hbase n

theorem mem_toDigits {base : Nat} (hone : 1 < base) {n : Nat} {c : Char}
    (h : c ∈ Nat.toDigits base n) : ∃ d < base, c = Nat.digitChar d := by
  induction n using Nat.strongRecOn with
  | ind n ih =>
    by_cases hlt : n < base
    · rw [Nat.toDigits_of_lt_base hlt] at h
      exact ⟨n, hlt, List.mem_singleton.mp h⟩
    · rw [Nat.toDigits_of_base_le hone (Nat.le_of_not_lt hlt)] at h
      rcases List.mem_append.mp h with hmem | hmem
      · exact ih _ (Nat.div_lt_self (by omega) hone) hmem
      · exact ⟨n % base, Nat.mod_lt n (by omega), List.mem_singleton.mp hmem⟩

theorem mem_leftpad {base : Nat} (hone : 1 < base) {width n : Nat} {c : Char}
    (h : c ∈ (Nat.toDigits base n).leftpad width '0') : ∃ d < base, c = Nat.digitChar d := by
  rw [List.leftpad] at h
  rcases List.mem_append.mp h with hzero | hdigit
  · exact ⟨0, Nat.zero_lt_of_lt hone, List.eq_of_mem_replicate hzero⟩
  · exact mem_toDigits hone hdigit

def wordDigits (word : UInt64) : List Char :=
  (Nat.toDigits 16 word.toNat).leftpad 16 '0'

theorem toList_paddedHex (word : UInt64) :
    (paddedHex word).toList = '0' :: 'x' :: wordDigits word := by
  simp [paddedHex, wordDigits]

theorem length_wordDigits (word : UInt64) : (wordDigits word).length = 16 := by
  have hle : (Nat.toDigits 16 word.toNat).length ≤ 16 :=
    (Nat.length_toDigits_le_iff (by decide) (by decide)).mpr word.toNat_lt
  rw [wordDigits, List.length_leftpad]
  omega

theorem value?_wordDigits (word : UInt64) : value? 16 (wordDigits word) = some word.toNat :=
  value?_leftpad (by decide) (by decide) 16 word.toNat

theorem mem_wordDigits {word : UInt64} {c : Char} (h : c ∈ wordDigits word) :
    ∃ d < 16, c = Nat.digitChar d :=
  mem_leftpad (by decide) h

theorem toNat_digitChar {d : Nat} (h : d < 16) :
    32 < (Nat.digitChar d).toNat ∧ (Nat.digitChar d).toNat ≤ 127 := by
  revert d
  decide

end FrameScan.Text.Numeral
