import FrameScan.Target
import FrameScan.Proofs.DigitStrings

/-!
# Selectors

The texts that name a target. Two of them are words. All others are numbers, of a process that
has a number of 32 bits: decimal digits, any number of them zeros in front, after at most one
plus sign. Every other text is refused and quoted. `selector_iff_target` says so, and that the
number of a process is read back from its decimal digits.
-/

namespace FrameScan

namespace Text.Numeral

theorem isDigit_iff_le (c : Char) : c.isDigit = true ↔ '0' ≤ c ∧ c ≤ '9' := by
  rw [Char.isDigit, Bool.and_eq_true, decide_eq_true_eq, decide_eq_true_eq]
  exact Iff.rfl

theorem isSome_digit?_ten (c : Char) : (digit? 10 c).isSome = c.isDigit := by
  have hletter (n : Nat) : digit?.below 10 (n + 10) = none := if_neg (by omega)
  unfold digit?
  split
  next hdecimal =>
    have hhigh : c.toNat ≤ '9'.toNat := UInt32.le_iff_toNat_le.mp hdecimal.2
    have hlt : c.toNat - '0'.toNat < 10 := by
      have hzero : '0'.toNat = 48 := rfl
      have hnine : '9'.toNat = 57 := rfl
      omega
    rw [digit?.below, if_pos hlt, (isDigit_iff_le c).mpr hdecimal]
    rfl
  next hother =>
    rw [hletter, hletter, ite_self, ite_self]
    rw [← isDigit_iff_le, Bool.not_eq_true] at hother
    exact hother.symm

theorem isDigit_ten_iff (c : Char) : IsDigit 10 c ↔ c.isDigit = true := by
  rw [← isSome_digit?_ten, Option.isSome_iff_exists]
  constructor
  · intro h
    exact ⟨_, (digit?_eq_some_iff (by decide)).mpr ⟨h, rfl⟩⟩
  · rintro ⟨d, hd⟩
    exact ((digit?_eq_some_iff (by decide)).mp hd).1

theorem denotes_ten_iff {digits : List Char} {n : Nat} :
    Denotes 10 digits n ↔
      digits ≠ [] ∧ (∀ c ∈ digits, c.isDigit = true) ∧ positional 10 digits = n := by
  constructor
  · intro h
    exact ⟨h.nonempty, fun c hc => (isDigit_ten_iff c).mp (h.isDigit c hc), h.value⟩
  · rintro ⟨hnonempty, hdigits, hvalue⟩
    exact ⟨hnonempty, fun c hc => (isDigit_ten_iff c).mpr (hdigits c hc), hvalue⟩

end Text.Numeral

namespace Target

open Text.Numeral

/-- A text names a target: with a word, or with the number of a process. -/
inductive Selects : String → Target → Prop
  | kernel : Selects "kernel" .kernel
  | pageCache : Selects "pagecache" .pageCache
  | process {sign digits : List Char} {pid : UInt32} (hsign : sign = [] ∨ sign = ['+'])
      (hnonempty : digits ≠ []) (hdigits : ∀ c ∈ digits, c.isDigit = true)
      (hvalue : positional 10 digits = pid.toNat) :
      Selects (String.ofList (sign ++ digits)) (.process pid)

/-- What is left of a text without a plus sign in front. -/
def unsigned : List Char → List Char
  | '+' :: digits => digits
  | digits => digits

theorem exists_sign (cs : List Char) :
    ∃ sign, (sign = [] ∨ sign = ['+']) ∧ sign ++ unsigned cs = cs := by
  unfold unsigned
  split
  next digits => exact ⟨['+'], .inr rfl, rfl⟩
  next => exact ⟨[], .inl rfl, rfl⟩

theorem unsigned_append {sign digits : List Char} (hsign : sign = [] ∨ sign = ['+'])
    (hdigits : ∀ c ∈ digits, c.isDigit = true) : unsigned (sign ++ digits) = digits := by
  rcases hsign with rfl | rfl
  · rw [List.nil_append]
    unfold unsigned
    split
    next rest => exact absurd (hdigits '+' List.mem_cons_self) (by decide)
    next => rfl
  · rfl

theorem pid?_eq_some_iff_value {text : String} {pid : UInt32} :
    pid? text = some pid ↔ value? 10 (unsigned text.toList) = some pid.toNat := by
  unfold pid?
  dsimp only
  split
  next n hn =>
    have hvalue : value? 10 (unsigned text.toList) = some n := hn
    rw [hvalue, Option.some_inj, Option.ite_none_right_eq_some, Option.some_inj]
    constructor
    · rintro ⟨hlt, rfl⟩
      exact (UInt32.toNat_ofNat_of_lt' hlt).symm
    · rintro rfl
      exact ⟨pid.toNat_lt_size, UInt32.ofNat_toNat⟩
  next hn =>
    have hvalue : value? 10 (unsigned text.toList) = none := hn
    rw [hvalue]
    simp

theorem selects_of_pid? {text : String} {pid : UInt32} (h : pid? text = some pid) :
    Selects text (.process pid) := by
  obtain ⟨sign, hsign, htext⟩ := exists_sign text.toList
  obtain ⟨hnonempty, hdigits, hvalue⟩ := denotes_ten_iff.mp
    ((value?_eq_some_iff (by decide)).mp (pid?_eq_some_iff_value.mp h))
  have hselects := Selects.process hsign hnonempty hdigits hvalue
  rwa [htext, String.ofList_toList] at hselects

theorem pid?_of_selects {text : String} {pid : UInt32} (h : Selects text (.process pid)) :
    pid? text = some pid := by
  cases h with
  | process hsign hnonempty hdigits hvalue =>
    rw [pid?_eq_some_iff_value, String.toList_ofList, unsigned_append hsign hdigits,
      value?_eq_some_iff (by decide)]
    exact denotes_ten_iff.mpr ⟨hnonempty, hdigits, hvalue⟩

theorem ofText_of_pid? {text : String} {pid : UInt32} (h : pid? text = some pid) :
    ofText text = .ok (.process pid) := by
  -- Neither of the two words is a number.
  have hkernel : text ≠ "kernel" := by
    rintro rfl
    have hnone : pid? "kernel" = none := by decide +kernel
    exact nomatch hnone.symm.trans h
  have hpageCache : text ≠ "pagecache" := by
    rintro rfl
    have hnone : pid? "pagecache" = none := by decide +kernel
    exact nomatch hnone.symm.trans h
  rw [ofText, if_neg hkernel, if_neg hpageCache, h]

theorem ofText_eq_ok_iff {text : String} {target : Target} :
    ofText text = .ok target ↔ Selects text target := by
  constructor
  · intro h
    unfold ofText at h
    split at h
    next hkernel =>
      cases h
      exact hkernel ▸ .kernel
    next =>
      split at h
      next hpageCache =>
        cases h
        exact hpageCache ▸ .pageCache
      next =>
        split at h
        next pid hpid =>
          cases h
          exact selects_of_pid? hpid
        next => cases h
  · intro h
    cases target with
    | process pid => exact ofText_of_pid? (pid?_of_selects h)
    | kernel =>
      cases h
      rfl
    | pageCache =>
      cases h
      rfl

theorem ofText_eq_error_iff {text : String} {failure : Failure} :
    ofText text = .error failure ↔
      (∀ target, ¬ Selects text target) ∧ failure = .invalidArgument (.target text) := by
  constructor
  · intro h
    refine ⟨?_, ofText_eq_error h⟩
    intro target hselects
    rw [ofText_eq_ok_iff.mpr hselects] at h
    cases h
  · rintro ⟨hnone, rfl⟩
    cases hresult : ofText text with
    | ok target => exact absurd (ofText_eq_ok_iff.mp hresult) (hnone target)
    | error failure => rw [ofText_eq_error hresult]

theorem pid?_toString (pid : UInt32) : pid? (toString pid.toNat) = some pid := by
  have hdigits : (toString pid.toNat).toList = Nat.toDigits 10 pid.toNat := Nat.toList_repr
  have hread := value?_toDigits (by decide) (by decide : 10 ≤ 16) pid.toNat
  obtain ⟨-, hall, -⟩ := denotes_ten_iff.mp ((value?_eq_some_iff (by decide)).mp hread)
  have hunsigned := unsigned_append (.inl rfl) hall
  rw [List.nil_append] at hunsigned
  rw [pid?_eq_some_iff_value, hdigits, hunsigned, hread]

/-- A text is read as a target if and only if it names that target, and otherwise refused with a
message that quotes it. The decimal digits of a number of 32 bits name its process, and the
header line has that number. -/
theorem selector_iff_target (text : String) :
    (∀ target, ofText text = .ok target ↔ Selects text target) ∧
    (∀ failure, ofText text = .error failure ↔
      (∀ target, ¬ Selects text target) ∧ failure = .invalidArgument (.target text)) ∧
    (Failure.invalidArgument (.target text)).message =
      "First argument must be a pid, 'kernel' or 'pagecache', not '" ++ text ++ "'" ∧
    ∀ pid : UInt32, ofText (toString pid.toNat) = .ok (.process pid) ∧
      (Target.process pid).id = pid.toNat := by
  refine ⟨fun _ => ofText_eq_ok_iff, fun _ => ofText_eq_error_iff, rfl, ?_⟩
  intro pid
  exact ⟨ofText_of_pid? (pid?_toString pid), rfl⟩

end Target

end FrameScan
