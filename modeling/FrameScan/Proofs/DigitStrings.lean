import FrameScan.Proofs.Numerals
import Mathlib.Data.List.Induction
import Mathlib.Data.Nat.Digits.Defs

/-!
# Digit strings

Which strings are read as a number, and as which one: those of at least one digit of the base,
as the number that they denote in positional notation. Letters stand for digits in either case.
-/

namespace FrameScan.Text.Numeral

def alphabet : List Char :=
  ['0', '1', '2', '3', '4', '5', '6', '7', '8', '9', 'a', 'b', 'c', 'd', 'e', 'f']

def digitValue (c : Char) : Nat :=
  alphabet.idxOf c.toLower

def IsDigit (base : Nat) (c : Char) : Prop :=
  c.toLower ∈ alphabet ∧ digitValue c < base

instance (base : Nat) (c : Char) : Decidable (IsDigit base c) :=
  inferInstanceAs (Decidable (_ ∧ _))

/-- The number of a digit string, most significant digit first. -/
def positional (base : Nat) (digits : List Char) : Nat :=
  Nat.ofDigits base (digits.map digitValue).reverse

structure Denotes (base : Nat) (digits : List Char) (n : Nat) : Prop where
  nonempty : digits ≠ []
  isDigit : ∀ c ∈ digits, IsDigit base c
  value : positional base digits = n

theorem digit?_of_ascii : ∀ n < 128, digit? 16 (Char.ofNat n) =
    if (Char.ofNat n).toLower ∈ alphabet then some (digitValue (Char.ofNat n)) else none := by
  decide

theorem toNat_lt_of_mem_alphabet {c : Char} (h : c ∈ alphabet) : c.toNat < 128 := by
  have hall : alphabet.all (·.toNat < 128) = true := rfl
  exact of_decide_eq_true (List.all_eq_true.mp hall c h)

theorem digit?_eq (c : Char) :
    digit? 16 c = if c.toLower ∈ alphabet then some (digitValue c) else none := by
  by_cases h : c.toNat < 128
  · have hascii := digit?_of_ascii c.toNat h
    rwa [Char.ofNat_toNat] at hascii
  · have hbound {last : Char} (hlast : last.toNat < 128) : ¬ c ≤ last := by
      intro hle
      have := UInt32.le_iff_toNat_le.mp hle
      exact h (Nat.lt_of_le_of_lt this hlast)
    have hlower : c.toLower = c := by
      apply dif_neg
      rintro ⟨-, hle⟩
      exact hbound (by decide) hle
    have hmem : c.toLower ∉ alphabet := by
      rw [hlower]
      exact fun hmem => h (toNat_lt_of_mem_alphabet hmem)
    rw [if_neg hmem, digit?, if_neg fun hin => hbound (by decide) hin.2,
      if_neg fun hin => hbound (by decide) hin.2, if_neg fun hin => hbound (by decide) hin.2]

theorem digit?_eq_some_iff_of_le {base : Nat} (hbase : base ≤ 16) {c : Char} {d : Nat} :
    digit? base c = some d ↔ digit? 16 c = some d ∧ d < base := by
  have hbelow (value : Nat) :
      digit?.below base value = some d ↔ digit?.below 16 value = some d ∧ d < base := by
    unfold digit?.below
    constructor
    · intro h
      split at h
      next hlt =>
        cases h
        exact ⟨if_pos (Nat.lt_of_lt_of_le hlt hbase), hlt⟩
      next => cases h
    · rintro ⟨h, hlt⟩
      split at h
      next =>
        cases h
        exact if_pos hlt
      next => cases h
  unfold digit?
  split
  · exact hbelow _
  · split
    · exact hbelow _
    · split
      · exact hbelow _
      · simp

theorem digit?_eq_some_iff {base : Nat} (hbase : base ≤ 16) {c : Char} {d : Nat} :
    digit? base c = some d ↔ IsDigit base c ∧ digitValue c = d := by
  rw [digit?_eq_some_iff_of_le hbase, digit?_eq, IsDigit]
  by_cases hmem : c.toLower ∈ alphabet
  · rw [if_pos hmem, Option.some_inj]
    constructor
    · rintro ⟨rfl, hlt⟩
      exact ⟨⟨hmem, hlt⟩, rfl⟩
    · rintro ⟨⟨-, hlt⟩, rfl⟩
      exact ⟨rfl, hlt⟩
  · simp [hmem]

theorem isHexDigit_iff (c : Char) : isHexDigit c = true ↔ IsDigit 16 c := by
  rw [isHexDigit, Option.isSome_iff_exists]
  constructor
  · rintro ⟨d, hd⟩
    exact ((digit?_eq_some_iff (Nat.le_refl 16)).mp hd).1
  · intro h
    exact ⟨_, (digit?_eq_some_iff (Nat.le_refl 16)).mpr ⟨h, rfl⟩⟩

theorem positional_concat (base : Nat) (digits : List Char) (c : Char) :
    positional base (digits ++ [c]) = base * positional base digits + digitValue c := by
  rw [positional, List.map_append, List.reverse_append, List.map_singleton,
    List.reverse_singleton, List.singleton_append, Nat.ofDigits_cons, positional]
  exact Nat.add_comm _ _

theorem push_eq_some_iff {base : Nat} (hbase : base ≤ 16) {m n : Nat} {c : Char} :
    push base m c = some n ↔ IsDigit base c ∧ base * m + digitValue c = n := by
  rw [push, Option.map_eq_some_iff]
  constructor
  · rintro ⟨d, hd, rfl⟩
    obtain ⟨hdigit, rfl⟩ := (digit?_eq_some_iff hbase).mp hd
    exact ⟨hdigit, rfl⟩
  · rintro ⟨hdigit, rfl⟩
    exact ⟨_, (digit?_eq_some_iff hbase).mpr ⟨hdigit, rfl⟩, rfl⟩

theorem foldlM_push_eq_some_iff {base : Nat} (hbase : base ≤ 16) {digits : List Char} {n : Nat} :
    digits.foldlM (push base) 0 = some n ↔
      (∀ c ∈ digits, IsDigit base c) ∧ positional base digits = n := by
  -- The induction is on the last digit, which is the last one to be read.
  induction digits using List.reverseRecOn generalizing n with
  | nil => simp [positional]
  | append_singleton digits c ih =>
    rw [List.foldlM_append, positional_concat, List.forall_mem_append, List.forall_mem_singleton]
    simp only [Option.bind_eq_bind, Option.bind_eq_some_iff, ih, List.foldlM_cons,
      List.foldlM_nil, push_eq_some_iff hbase]
    constructor
    · rintro ⟨m, ⟨hdigits, rfl⟩, n, ⟨hdigit, rfl⟩, hn⟩
      exact ⟨⟨hdigits, hdigit⟩, Option.some_inj.mp hn⟩
    · rintro ⟨⟨hdigits, hdigit⟩, rfl⟩
      exact ⟨_, ⟨hdigits, rfl⟩, _, ⟨hdigit, rfl⟩, rfl⟩

theorem value?_eq_some_iff {base : Nat} (hbase : base ≤ 16) {digits : List Char} {n : Nat} :
    value? base digits = some n ↔ Denotes base digits n := by
  by_cases hempty : digits = []
  · subst hempty
    constructor
    · intro h
      cases h
    · intro h
      exact absurd rfl h.nonempty
  · rw [value?_of_ne_nil hempty, foldlM_push_eq_some_iff hbase]
    constructor
    · rintro ⟨hdigits, hvalue⟩
      exact ⟨hempty, hdigits, hvalue⟩
    · intro h
      exact ⟨h.isDigit, h.value⟩

end FrameScan.Text.Numeral
