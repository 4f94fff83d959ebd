import FrameScan.Proofs.ListedText
import Mathlib.Data.List.Basic

/-!
# Listings of lines

What is read of a listing that was written line by line: in whatever chunks it comes, these
lines, each without a carriage return at its end.
-/

namespace FrameScan

open Text.Utf8

/-- A line without a carriage return at its end. -/
def Text.dropReturn (line : List Char) : List Char :=
  if line.getLast? = some '\r' then line.dropLast else line

theorem Text.dropReturn_concat (init : List Char) : dropReturn (init ++ ['\r']) = init := by
  simp [dropReturn]

theorem Text.dropReturn_of_getLast? {line : List Char} (h : line.getLast? ≠ some '\r') :
    dropReturn line = line :=
  if_neg h

theorem Text.dropReturn_append {front : List Char} (h : front.getLast? ≠ some '\r')
    (line : List Char) : dropReturn (front ++ line) = front ++ dropReturn line := by
  by_cases hempty : line = []
  · rw [hempty, List.append_nil, dropReturn_of_getLast? h]
    exact (List.append_nil front).symm
  · rw [dropReturn, dropReturn, List.getLast?_append_of_ne_nil _ hempty,
      List.dropLast_append_of_ne_nil hempty]
    split <;> rfl

namespace Listing

def written (lines : List String) : List UInt8 :=
  lines.flatMap fun line => encode line ++ [lineFeed]

/-- A listing that delivers some lines, and no failure. -/
structure Delivers (listing : Listing) (lines : List String) : Prop where
  readable : listing.Readable
  content : listing.content = written lines

theorem eq_return_of_mem {c : Char} (h : carriageReturn ∈ String.utf8EncodeChar c) : c = '\r' := by
  by_cases hle : c.toNat ≤ 127
  · rw [utf8EncodeChar_of_le hle, List.mem_singleton, ← UInt8.toNat_inj,
      UInt8.toNat_ofNat_of_lt' (Nat.lt_of_le_of_lt hle (by decide))] at h
    rw [← Char.toNat_inj]
    exact h.symm
  · have hhigh := le_of_mem_utf8EncodeChar (Nat.lt_of_not_le hle) h
    exact absurd hhigh (by decide)

theorem withoutReturn_flatMap (line : List Char) :
    withoutReturn (line.flatMap String.utf8EncodeChar) =
      (Text.dropReturn line).flatMap String.utf8EncodeChar := by
  rcases List.eq_nil_or_concat line with rfl | ⟨init, c, rfl⟩
  · rfl
  · rw [List.concat_eq_append, List.flatMap_append, List.flatMap_singleton]
    by_cases hreturn : c = '\r'
    · have hbyte : String.utf8EncodeChar '\r' = [carriageReturn] := by decide
      rw [hreturn, Text.dropReturn_concat, hbyte, withoutReturn, List.getLast?_concat, if_pos rfl,
        List.dropLast_concat]
    · have hlast : (init.flatMap String.utf8EncodeChar ++ String.utf8EncodeChar c).getLast? ≠
          some carriageReturn := by
        rw [List.getLast?_append_of_ne_nil _ String.utf8EncodeChar_ne_nil]
        intro hbyte
        exact hreturn (eq_return_of_mem (List.mem_of_getLast? hbyte))
      rw [Text.dropReturn_of_getLast? (by simpa using hreturn), withoutReturn, if_neg hlast,
        List.flatMap_append, List.flatMap_singleton]

theorem decode_flatMap (line : List Char) :
    decode (line.flatMap String.utf8EncodeChar) = .ok (String.ofList line) := by
  have hencode := encode_eq_flatMap (String.ofList line)
  rw [String.toList_ofList] at hencode
  rw [decode, ← hencode, decode?_encode]

theorem byteLines_written {lines : List String} (h : ∀ line ∈ lines, '\n' ∉ line.toList) :
    byteLines (written lines) =
      lines.map fun line => (Text.dropReturn line.toList).flatMap String.utf8EncodeChar := by
  induction lines with
  | nil => rfl
  | cons line rest ih =>
    obtain ⟨hline, hrest⟩ := List.forall_mem_cons.mp h
    rw [written, List.flatMap_cons, List.append_assoc, List.singleton_append,
      byteLines_append_cons (lineFeed_not_mem_encode hline), encode_eq_flatMap,
      withoutReturn_flatMap, List.map_cons]
    exact congrArg _ (ih hrest)

theorem Delivers.lines_eq {listing : Listing} {lines : List String} (h : listing.Delivers lines)
    (unbroken : ∀ line ∈ lines, '\n' ∉ line.toList) :
    listing.lines =
      lines.map fun line => .ok (String.ofList (Text.dropReturn line.toList)) := by
  rw [lines_of_readable h.readable, h.content, byteLines_written unbroken, List.map_map]
  apply List.map_congr_left
  intro line _
  exact decode_flatMap _

theorem Delivers.lines_eq_map {α : Type} {text : α → String} {listing : Listing} {list : List α}
    (h : listing.Delivers (list.map text)) (unbroken : ∀ a, '\n' ∉ (text a).toList) :
    listing.lines =
      list.map fun a => .ok (String.ofList (Text.dropReturn (text a).toList)) := by
  have hlines : ∀ line ∈ list.map text, '\n' ∉ line.toList := by
    rw [List.forall_mem_map]
    exact fun a _ => unbroken a
  rw [h.lines_eq hlines, List.map_map]
  rfl

end Listing

end FrameScan
