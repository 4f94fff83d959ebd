import FrameScan.Proofs.LineReader
import Mathlib.Data.Nat.Digits.Defs
import Mathlib.Data.Nat.Log

/-!
# Written bytes

The bytes of lines, put together from numbers digit by digit. The lines of a survey have these
bytes, however their texts are put together.
-/

namespace FrameScan

open Text.Utf8 (encode)

namespace Text.Numeral

def lastDigits (base : Nat) : (count : Nat) → (n : Nat) → List Nat
  | 0, _ => []
  | count + 1, n => lastDigits base count (n / base) ++ [n % base]

/-- The byte of a digit. From ten on it is a letter. -/
def digitByte (d : Nat) : UInt8 :=
  if d < 10 then UInt8.ofNat (0x30 + d) else UInt8.ofNat (0x57 + d)

def decimal (n : Nat) : List UInt8 :=
  (lastDigits 10 (Nat.log 10 n + 1) n).map digitByte

/-- Sixteen hexadecimal digits of a number, after `0x`. -/
def sixteenDigits (n : Nat) : List UInt8 :=
  encode "0x" ++ (lastDigits 16 16 n).map digitByte

section Digits

variable {base : Nat} (hone : 1 < base)

include hone in
/-- A number is spelled with all its digits. The induction is on its value. -/
theorem toDigits_eq_lastDigits (n : Nat) :
    Nat.toDigits base n = (lastDigits base (Nat.log base n + 1) n).map Nat.digitChar := by
  induction n using Nat.strongRecOn with
  | ind n ih =>
    rw [lastDigits, List.map_append, List.map_singleton]
    by_cases h : n < base
    · rw [Nat.toDigits_of_lt_base h, Nat.log_of_lt h, Nat.mod_eq_of_lt h]
      rfl
    · have hle : base ≤ n := Nat.le_of_not_lt h
      have hdiv : n / base < n := Nat.div_lt_self (by omega) hone
      rw [Nat.toDigits_of_base_le hone hle, ih _ hdiv, Nat.log_of_one_lt_of_le hone hle]

theorem length_lastDigits (base count n : Nat) : (lastDigits base count n).length = count := by
  induction count generalizing n with
  | zero => rfl
  | succ count ih => rw [lastDigits, List.length_append, ih, List.length_singleton]

theorem lastDigits_zero (base count : Nat) : lastDigits base count 0 = List.replicate count 0 := by
  induction count with
  | zero => rfl
  | succ count ih => rw [lastDigits, Nat.zero_div, Nat.zero_mod, ih, List.replicate_succ']

theorem lastDigits_of_lt (more : Nat) {count n : Nat} (h : n < base ^ count) :
    lastDigits base (more + count) n = List.replicate more 0 ++ lastDigits base count n := by
  induction count generalizing n with
  | zero =>
    obtain rfl : n = 0 := Nat.lt_one_iff.mp h
    rw [lastDigits_zero, lastDigits, List.append_nil, Nat.add_zero]
  | succ count ih =>
    have hdiv : n / base < base ^ count :=
      Nat.div_lt_of_lt_mul (by rwa [Nat.mul_comm, ← Nat.pow_succ])
    rw [← Nat.add_assoc, lastDigits, ih hdiv, lastDigits, List.append_assoc]

theorem lt_of_mem_lastDigits (hpos : 0 < base) {count n d : Nat} (h : d ∈ lastDigits base count n) :
    d < base := by
  induction count generalizing n with
  | zero => exact absurd h List.not_mem_nil
  | succ count ih =>
    rcases List.mem_append.mp h with hmem | hmem
    · exact ih hmem
    · exact List.mem_singleton.mp hmem ▸ Nat.mod_lt n hpos

theorem wordDigits_eq_lastDigits (word : UInt64) :
    wordDigits word = (lastDigits 16 16 word.toNat).map Nat.digitChar := by
  let count := Nat.log 16 word.toNat + 1
  have hlt : word.toNat < 16 ^ count := Nat.lt_pow_succ_log_self (by decide) _
  have hle : count ≤ 16 := Nat.log_lt_of_lt_pow' (by decide) word.toNat_lt
  have hsplit := lastDigits_of_lt (16 - count) hlt
  rw [Nat.sub_add_cancel hle] at hsplit
  rw [wordDigits, List.leftpad, toDigits_eq_lastDigits (by decide), List.length_map,
    length_lastDigits, hsplit, List.map_append, List.map_replicate]
  rfl

end Digits

theorem utf8EncodeChar_digitChar {d : Nat} (h : d < 16) :
    String.utf8EncodeChar (Nat.digitChar d) = [digitByte d] := by
  revert d
  decide +kernel

theorem flatMap_lastDigits {base : Nat} (hpos : 0 < base) (hbase : base ≤ 16) (count n : Nat) :
    ((lastDigits base count n).map Nat.digitChar).flatMap String.utf8EncodeChar =
      (lastDigits base count n).map digitByte := by
  have hbyte : ∀ d ∈ lastDigits base count n,
      String.utf8EncodeChar (Nat.digitChar d) = [digitByte d] := fun d hd =>
    utf8EncodeChar_digitChar (Nat.lt_of_lt_of_le (lt_of_mem_lastDigits hpos hd) hbase)
  rw [List.flatMap_map, List.flatMap_def, List.map_congr_left hbyte, ← List.flatMap_def,
    List.map_eq_flatMap]

theorem encode_paddedHex (word : UInt64) :
    encode (paddedHex word) = sixteenDigits word.toNat := by
  have hdigits : encode (String.ofList (wordDigits word)) =
      (lastDigits 16 16 word.toNat).map digitByte := by
    rw [Utf8.encode_eq_flatMap, String.toList_ofList, wordDigits_eq_lastDigits]
    exact flatMap_lastDigits (by decide) (by decide) 16 _
  rw [sixteenDigits, ← hdigits]
  exact Utf8.encode_append "0x" (String.ofList (wordDigits word))

theorem encode_toString (n : Nat) : encode (toString n) = decimal n := by
  have hdigits : (toString n).toList = Nat.toDigits 10 n := String.toList_ofList
  rw [Utf8.encode_eq_flatMap, hdigits, toDigits_eq_lastDigits (by decide)]
  exact flatMap_lastDigits (by decide) (by decide) _ n

end Text.Numeral

namespace Line

open Text.Numeral

/-- The number of a target as a header has it. -/
def idBytes : Target → List UInt8
  | .process pid => decimal pid.toNat
  | .kernel => encode "0"
  | .pageCache => encode "-1"

/-- The bytes of a header: `= <id> <label>` and a line feed. -/
def headerBytes (target : Target) (label : List UInt8) : List UInt8 :=
  encode "= " ++ idBytes target ++ encode " " ++ label ++ encode "\n"

/-- The bytes that announce a span: `v <start> <end> <label>` and a line feed. -/
def spanBytes (s : Span) : List UInt8 :=
  encode "v " ++ sixteenDigits s.start.toNat ++ encode " " ++ sixteenDigits s.stop.toNat ++
    encode " " ++ encode s.label ++ encode "\n"

/-- The bytes of a page in a frame: `p <address> <physical> <exclusive> <shared>` and a line
feed. -/
def pageBytes (address physical : Nat) (exclusive shared : Bool) : List UInt8 :=
  encode "p " ++ sixteenDigits address ++ encode " " ++ sixteenDigits physical ++ encode " " ++
    decimal exclusive.toNat ++ encode " " ++ decimal shared.toNat ++ encode "\n"

theorem toList_stream (lines : List Line) :
    (stream lines).data.toList = lines.flatMap fun line => line.bytes.data.toList := by
  induction lines with
  | nil => rfl
  | cons line lines ih =>
    rw [stream_cons, ByteArray.data_append, Array.toList_append, ih, List.flatMap_cons]

theorem toList_bytes_header (target : Target) (label : String) :
    (Line.header target label).bytes.data.toList = headerBytes target (encode label) := by
  have hid : encode (toString target.id) = idBytes target := by
    cases target with
    | process pid => exact encode_toString pid.toNat
    | kernel => decide +kernel
    | pageCache => decide +kernel
  rw [toList_bytes, text_header]
  simp only [Text.Utf8.encode_append, hid, headerBytes]
  rfl

theorem toList_bytes_span (s : Span) : (Line.span s).bytes.data.toList = spanBytes s := by
  rw [toList_bytes, text_span]
  simp only [Text.Utf8.encode_append, encode_paddedHex, spanBytes]
  rfl

theorem toList_bytes_page (address physical : UInt64) (exclusive shared : Bool) :
    (Line.page address (.frame physical exclusive shared)).bytes.data.toList =
      pageBytes address.toNat physical.toNat exclusive shared := by
  have hbit (b : Bool) : encode (PageContent.bitText b) = decimal b.toNat := by
    rw [← encode_toString]
    cases b <;> decide +kernel
  rw [toList_bytes, text_page, text_frame]
  simp only [Text.Utf8.encode_append, encode_paddedHex, hbit, pageBytes, List.append_assoc]
  rfl

end Line

end FrameScan
