import FrameScan.Proofs.LineFeeds

/-!
# Reading lines

A reader of records, for the bytes of a line without its line feed. The two words of a record
stand at fixed places, so the reader takes them from there and leaves the rest to what the
first character says the line is of. `line?_span` and `line?_page` say that it reads what was
written, and `lines?_stream` that it divides a stream into what was written.
-/

namespace FrameScan

open Listing (lineFeed)
open Text.Numeral (paddedHex)
open Text.Utf8 (encode decode?)

namespace Text.Utf8

theorem length_encode_of_ascii {text : String} (h : ∀ c ∈ text.toList, c.toNat ≤ 127) :
    (encode text).length = text.toList.length := by
  have hone : text.toList.map (fun c => (String.utf8EncodeChar c).length) =
      text.toList.map fun _ => 1 := by
    refine List.map_congr_left fun c hc => ?_
    rw [utf8EncodeChar_of_le (h c hc), List.length_singleton]
  rw [encode_eq_flatMap, List.length_flatMap, hone, List.map_const', List.sum_replicate_nat,
    Nat.mul_one]

end Text.Utf8

namespace Line

def letterV : UInt8 := 0x76
def letterP : UInt8 := 0x70
def space : UInt8 := 0x20

theorem encode_space : encode " " = [space] := by decide +kernel

theorem encode_letterV : encode "v " = [letterV, space] := by decide +kernel

theorem encode_letterP : encode "p " = [letterP, space] := by decide +kernel

/-- The eighteen bytes of a line from a position on. -/
def column (position : Nat) (line : List UInt8) : List UInt8 :=
  (line.drop position).take 18

/-- A record: its letter, its two words, and what follows them. -/
def layout (letter : UInt8) (first second : UInt64) (tail : List UInt8) : List UInt8 :=
  letter :: space :: (encode (paddedHex first) ++ space :: (encode (paddedHex second) ++ tail))

section Layout

variable (letter : UInt8) (first second : UInt64) (tail : List UInt8)

theorem length_encode_paddedHex (word : UInt64) : (encode (paddedHex word)).length = 18 := by
  have hascii : ∀ c ∈ (paddedHex word).toList, c.toNat ≤ 127 := by
    rw [Text.Numeral.toList_paddedHex]
    intro c hc
    rcases List.mem_cons.mp hc with rfl | hc
    · decide
    rcases List.mem_cons.mp hc with rfl | hc
    · decide
    obtain ⟨d, hd, rfl⟩ := Text.Numeral.mem_wordDigits hc
    exact (Text.Numeral.toNat_digitChar hd).2
  rw [Text.Utf8.length_encode_of_ascii hascii, Text.Numeral.toList_paddedHex, List.length_cons,
    List.length_cons, Text.Numeral.length_wordDigits]

theorem column_first : column 2 (layout letter first second tail) = encode (paddedHex first) := by
  exact List.take_left' (length_encode_paddedHex first)

theorem drop_second :
    (layout letter first second tail).drop 21 = encode (paddedHex second) ++ tail := by
  have hdrop : (encode (paddedHex first) ++ space :: (encode (paddedHex second) ++ tail)).drop 18 =
      space :: (encode (paddedHex second) ++ tail) :=
    List.drop_left' (length_encode_paddedHex first)
  have hmore := congrArg (List.drop 1) hdrop
  rw [List.drop_drop] at hmore
  exact hmore

theorem column_second :
    column 21 (layout letter first second tail) = encode (paddedHex second) := by
  rw [column, drop_second]
  exact List.take_left' (length_encode_paddedHex second)

theorem drop_tail : (layout letter first second tail).drop 39 = tail := by
  have hdrop := congrArg (List.drop 18) (drop_second letter first second tail)
  rw [List.drop_drop, List.drop_left' (length_encode_paddedHex second)] at hdrop
  exact hdrop

end Layout

end Line

namespace PageContent

def word : PageContent → UInt64
  | .frame physical _ _ => physical
  | .flags f => f.word

def bitByte (b : Bool) : UInt8 :=
  if b then 0x31 else 0x30

def tail : PageContent → List UInt8
  | .frame _ exclusive shared => [Line.space, bitByte exclusive, Line.space, bitByte shared]
  | .flags _ => []

theorem encode_text (content : PageContent) :
    encode content.text = encode (paddedHex content.word) ++ content.tail := by
  cases content with
  | frame physical exclusive shared =>
    have hbit (b : Bool) : encode (bitText b) = [bitByte b] := by cases b <;> decide +kernel
    simp only [Line.text_frame, Text.Utf8.encode_append, hbit, Line.encode_space, word, tail,
      List.append_assoc, List.cons_append, List.nil_append]
  | flags f => exact (List.append_nil _).symm

end PageContent

namespace Line

theorem encode_span (s : Span) :
    encode (Line.span s).text = layout letterV s.start s.stop (space :: encode s.label) := by
  simp only [text_span, Text.Utf8.encode_append, encode_letterV, encode_space, layout,
    List.append_assoc, List.cons_append, List.nil_append]

theorem encode_page (address : UInt64) (content : PageContent) :
    encode (Line.page address content).text =
      layout letterP address content.word content.tail := by
  simp only [text_page, Text.Utf8.encode_append, content.encode_text, encode_letterP,
    encode_space, layout, List.append_assoc, List.cons_append, List.nil_append]

/-- The word that sixteen digits after `0x` spell. -/
def word? (field : List UInt8) : Option UInt64 :=
  match (decode? field).map String.toList with
  | some ('0' :: 'x' :: digits) => (Text.Numeral.value? 16 digits).map UInt64.ofNat
  | _ => none

theorem word?_encode (word : UInt64) : word? (encode (paddedHex word)) = some word := by
  rw [word?, Text.Utf8.decode?_encode, Option.map_some, Text.Numeral.toList_paddedHex]
  simp only [Text.Numeral.value?_wordDigits, Option.map_some, UInt64.ofNat_toNat]

def bit? (b : UInt8) : Option Bool :=
  if b = 0x31 then some true else if b = 0x30 then some false else none

theorem bit?_bitByte (b : Bool) : bit? (PageContent.bitByte b) = some b := by
  cases b <;> rfl

def content? (word : UInt64) : List UInt8 → Option PageContent
  | [] => some (.flags ⟨word⟩)
  | [_, exclusive, _, shared] => do
    return .frame word (← bit? exclusive) (← bit? shared)
  | _ => none

theorem content?_tail (content : PageContent) :
    content? content.word content.tail = some content := by
  cases content with
  | frame physical exclusive shared =>
    simp only [PageContent.tail, PageContent.word, content?, bit?_bitByte]
    rfl
  | flags f => rfl

def span? (start stop : UInt64) (tail : List UInt8) : Option Span := do
  let label ← decode? (tail.drop 1)
  if h : start ≤ stop then return ⟨start, stop, label, h⟩ else none

theorem span?_label (s : Span) : span? s.start s.stop (space :: encode s.label) = some s := by
  have hlabel : decode? ((space :: encode s.label).drop 1) = some s.label :=
    Text.Utf8.decode?_encode s.label
  rw [span?, hlabel, Option.bind_eq_bind, Option.bind_some, dif_pos s.start_le_stop]
  rfl

/-- The record that some bytes are the line of. -/
def line? (bytes : List UInt8) : Option Line := do
  let first ← word? (column 2 bytes)
  let second ← word? (column 21 bytes)
  if bytes.head? = some letterV then (span? first second (bytes.drop 39)).map .span
  else if bytes.head? = some letterP then (content? second (bytes.drop 39)).map (.page first)
  else none

theorem line?_layout (letter : UInt8) (first second : UInt64) (tail : List UInt8) :
    line? (layout letter first second tail) =
      if letter = letterV then (span? first second tail).map .span
      else if letter = letterP then (content? second tail).map (.page first)
      else none := by
  rw [line?, column_first, column_second, drop_tail, word?_encode, word?_encode]
  simp only [layout, List.head?_cons, Option.some.injEq]
  rfl

theorem line?_span (s : Span) : line? (encode (Line.span s).text) = some (.span s) := by
  rw [encode_span, line?_layout, if_pos rfl, span?_label]
  rfl

theorem line?_page (address : UInt64) (content : PageContent) :
    line? (encode (Line.page address content).text) = some (.page address content) := by
  rw [encode_page, line?_layout, if_neg (by decide), if_pos rfl, content?_tail]
  rfl

/-- The records that a stream consists of, if it ends with a line feed. -/
def lines? (stream : List UInt8) : Option (List Line) :=
  let pieces := stream.splitOn lineFeed
  if pieces.getLast? = some [] then pieces.dropLast.mapM line? else none

theorem mapM_line? {lines : List Line} (h : ∀ line ∈ lines, line? (encode line.text) = some line) :
    (lines.map fun line => encode line.text).mapM line? = some lines := by
  induction lines with
  | nil => rfl
  | cons line lines ih =>
    have hrest := ih fun line hline => h line (List.mem_cons_of_mem _ hline)
    rw [List.map_cons, List.mapM_cons, h line List.mem_cons_self, hrest]
    rfl

theorem lines?_stream {lines : List Line} (hfeeds : ∀ line ∈ lines, '\n' ∉ line.text.toList)
    (hread : ∀ line ∈ lines, line? (encode line.text) = some line) :
    lines? (stream lines).data.toList = some lines := by
  rw [lines?, splitOn_stream hfeeds]
  simp only [List.getLast?_concat, List.dropLast_concat, if_pos, mapM_line? hread]

end Line

end FrameScan
