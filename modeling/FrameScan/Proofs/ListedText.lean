import FrameScan.Proofs.LineFeeds
import FrameScan.Proofs.ProcessStream

/-!
# Text in listings

What becomes of a listing whose bytes are all read. The bytes are divided into lines at line
feeds, which are characters of their own in UTF-8, so they are text if and only if each line
is. A survey of a process announces the mappings up to the first line that is not text and
fails there; `survey_process_of_bytes` gives its result and what it announces.
-/

namespace FrameScan

namespace Text.Utf8

def isText (bytes : List UInt8) : Bool :=
  (decode? bytes).isSome

theorem isText_iff (bytes : List UInt8) :
    isText bytes = true ↔ ∃ chars : List Char, chars.flatMap String.utf8EncodeChar = bytes := by
  constructor
  · intro h
    obtain ⟨text, htext⟩ := Option.isSome_iff_exists.mp h
    refine ⟨text.toList, ?_⟩
    rw [← encode_eq_flatMap, encode_of_decode? htext]
  · rintro ⟨chars, rfl⟩
    have hencode := encode_eq_flatMap (String.ofList chars)
    rw [String.toList_ofList] at hencode
    rw [isText, ← hencode, decode?_encode]
    rfl

theorem utf8EncodeChar_of_mem {c : Char} {b : UInt8} (hb : b.toNat < 128)
    (h : b ∈ String.utf8EncodeChar c) : String.utf8EncodeChar c = [b] := by
  by_cases hle : c.toNat ≤ 127
  · rw [utf8EncodeChar_of_le hle] at h ⊢
    rw [List.mem_singleton.mp h]
  · have hhigh := le_of_mem_utf8EncodeChar (Nat.lt_of_not_le hle) h
    omega

theorem flatMap_eq_append_cons {chars : List Char} {first second : List UInt8} {b : UInt8}
    (hb : b.toNat < 128) (h : chars.flatMap String.utf8EncodeChar = first ++ b :: second) :
    ∃ before after : List Char, before.flatMap String.utf8EncodeChar = first ∧
      after.flatMap String.utf8EncodeChar = second := by
  induction chars generalizing first with
  | nil => simp at h
  | cons c rest ih =>
    rw [List.flatMap_cons] at h
    rcases List.append_eq_append_iff.mp h with ⟨more, hfirst, hrest⟩ | ⟨more, hc, hmore⟩
    · obtain ⟨before, after, hbefore, hafter⟩ := ih hrest
      refine ⟨c :: before, after, ?_, hafter⟩
      rw [List.flatMap_cons, hbefore, hfirst]
    · cases more with
      | nil =>
        have hrest : rest.flatMap String.utf8EncodeChar = [] ++ b :: second := hmore.symm
        obtain ⟨before, after, hbefore, hafter⟩ := ih hrest
        refine ⟨c :: before, after, ?_, hafter⟩
        rw [List.flatMap_cons, hbefore, hc, List.append_nil, List.append_nil]
      | cons b' more =>
        obtain ⟨rfl, hsecond⟩ := List.cons.inj hmore
        have hmem : b ∈ String.utf8EncodeChar c := by
          rw [hc]
          exact List.mem_append_right _ List.mem_cons_self
        rw [utf8EncodeChar_of_mem hb hmem] at hc
        rcases List.append_eq_singleton_iff.mp hc.symm with ⟨rfl, honly⟩ | ⟨-, hnone⟩
        · cases honly
          exact ⟨[], rest, rfl, hsecond.symm⟩
        · cases hnone

theorem isText_append_cons {b : UInt8} (hb : b.toNat < 128) (first second : List UInt8) :
    isText (first ++ b :: second) = (isText first && isText second) := by
  rw [Bool.eq_iff_iff, Bool.and_eq_true, isText_iff, isText_iff, isText_iff]
  constructor
  · rintro ⟨chars, hchars⟩
    obtain ⟨before, after, hbefore, hafter⟩ := flatMap_eq_append_cons hb hchars
    exact ⟨⟨before, hbefore⟩, ⟨after, hafter⟩⟩
  · rintro ⟨⟨before, rfl⟩, ⟨after, rfl⟩⟩
    have hvalid : b.toNat.isValidChar := .inl (by omega)
    have hvalue : (Char.ofNat b.toNat).toNat = b.toNat := by
      rw [Char.ofNat, dif_pos hvalid]
      rfl
    have hbyte : String.utf8EncodeChar (Char.ofNat b.toNat) = [b] := by
      rw [utf8EncodeChar_of_le (by omega), hvalue, UInt8.ofNat_toNat]
    refine ⟨before ++ Char.ofNat b.toNat :: after, ?_⟩
    rw [List.flatMap_append, List.flatMap_cons, hbyte]
    rfl

end Text.Utf8

namespace Listing

open Text.Utf8

def Signal.byte? : Signal → Option UInt8
  | .byte b => some b
  | .fault _ => none

def Signal.fault? : Signal → Option SystemError
  | .byte _ => none
  | .fault error => some error

def content (listing : Listing) : List UInt8 :=
  listing.signals.filterMap Signal.byte?

/-- No read of a listing fails, but for interrupted ones, which are asked again. -/
def Readable (listing : Listing) : Prop :=
  ∀ error ∈ listing.signals.filterMap Signal.fault?, error = .interrupted

instance (listing : Listing) : Decidable listing.Readable :=
  inferInstanceAs (Decidable (∀ error ∈ _, error = _))

/-- The bytes of a line without a carriage return at their end. -/
def withoutReturn (line : List UInt8) : List UInt8 :=
  if line.getLast? = some carriageReturn then line.dropLast else line

/-- The lines of some bytes: what is between line feeds, and what follows the last of them
unless that is nothing. -/
def byteLines (bytes : List UInt8) : List (List UInt8) :=
  let pieces := bytes.splitOn lineFeed
  pieces.dropLast.map withoutReturn ++ (pieces.getLast?.filter (· ≠ [])).toList

theorem byteLines_of_not_mem {bytes : List UInt8} (h : lineFeed ∉ bytes) :
    byteLines bytes = if bytes = [] then [] else [bytes] := by
  rw [byteLines, Line.splitOn_of_not_mem h]
  by_cases hempty : bytes = [] <;> simp [hempty]

theorem byteLines_append_cons {piece : List UInt8} (h : lineFeed ∉ piece) (rest : List UInt8) :
    byteLines (piece ++ lineFeed :: rest) = withoutReturn piece :: byteLines rest := by
  have hsplit : (piece ++ lineFeed :: rest).splitOn lineFeed =
      piece :: rest.splitOn lineFeed := by
    have happend := List.splitOnP_append_cons (p := (· == lineFeed)) piece rest
      (beq_self_eq_true lineFeed)
    rw [← List.splitOn, ← List.splitOn, ← List.splitOn, Line.splitOn_of_not_mem h] at happend
    exact happend
  obtain ⟨first, more, hpieces⟩ :=
    List.exists_cons_of_ne_nil (List.splitOn_ne_nil lineFeed rest)
  rw [byteLines, byteLines, hsplit, hpieces]
  simp [List.getLast?_cons]

theorem ended_eq (before : List UInt8) :
    ended before = decode (withoutReturn before.reverse) := by
  cases before with
  | nil => rfl
  | cons b before =>
    rw [ended, withoutReturn, List.getLast?_reverse, List.head?_cons, List.reverse_cons,
      List.dropLast_concat]
    by_cases hreturn : b = carriageReturn <;> simp [hreturn]

theorem linesAfter_of_readable {before : List UInt8} {signals : List Signal}
    (hread : ∀ error ∈ signals.filterMap Signal.fault?, error = .interrupted)
    (hbefore : lineFeed ∉ before) :
    linesAfter before signals =
      (byteLines (before.reverse ++ signals.filterMap Signal.byte?)).map decode := by
  fun_induction linesAfter before signals with
  | case1 => rfl
  | case2 b before =>
    have hpiece : lineFeed ∉ (b :: before).reverse := by rwa [List.mem_reverse]
    rw [List.filterMap_nil, List.append_nil, byteLines_of_not_mem hpiece, if_neg (by simp)]
    rfl
  | case3 before rest ih =>
    have hpiece : lineFeed ∉ before.reverse := by rwa [List.mem_reverse]
    have hrest := ih hread List.not_mem_nil
    rw [List.filterMap_cons_some (f := Signal.byte?) rfl, byteLines_append_cons hpiece,
      List.map_cons, ended_eq, hrest, List.reverse_nil, List.nil_append]
  | case4 before b rest hb ih =>
    have hcurrent : lineFeed ∉ b :: before := by
      rw [List.mem_cons, not_or]
      exact ⟨fun heq => hb heq.symm, hbefore⟩
    rw [ih hread hcurrent, List.filterMap_cons_some (f := Signal.byte?) rfl, List.reverse_cons,
      List.append_assoc]
    rfl
  | case5 before rest ih =>
    have hrest : ∀ error ∈ rest.filterMap Signal.fault?, error = .interrupted := by
      intro error hmem
      exact hread error (List.mem_cons_of_mem _ hmem)
    exact ih hrest hbefore
  | case6 before error rest hne ih => exact absurd (hread error List.mem_cons_self) hne

theorem lines_of_readable {listing : Listing} (h : listing.Readable) :
    listing.lines = (byteLines listing.content).map decode :=
  linesAfter_of_readable h List.not_mem_nil

/-- Bytes without a line feed, or a line and the bytes that follow it. -/
@[elab_as_elim]
theorem bytes_induction {p : List UInt8 → Prop}
    (last : ∀ piece, lineFeed ∉ piece → p piece)
    (line : ∀ piece rest, lineFeed ∉ piece → p rest → p (piece ++ lineFeed :: rest))
    (bytes : List UInt8) : p bytes := by
  induction hlength : bytes.length using Nat.strongRecOn generalizing bytes with
  | ind length ih =>
    by_cases hmem : lineFeed ∈ bytes
    · obtain ⟨piece, rest, rfl, hpiece⟩ := List.eq_append_cons_of_mem hmem
      have hlt : rest.length < length := by
        rw [← hlength, List.length_append, List.length_cons]
        omega
      exact line piece rest hpiece (ih rest.length hlt rest rfl)
    · exact last bytes hmem

theorem isText_withoutReturn (line : List UInt8) : isText (withoutReturn line) = isText line := by
  rw [withoutReturn]
  split
  next hreturn =>
    obtain ⟨init, rfl⟩ := List.getLast?_eq_some_iff.mp hreturn
    rw [List.dropLast_concat, isText_append_cons (by decide)]
    have hempty : isText [] = true := by decide
    rw [hempty, Bool.and_true]
  next => rfl

theorem all_isText_byteLines (bytes : List UInt8) :
    (byteLines bytes).all isText = isText bytes := by
  induction bytes using bytes_induction with
  | last piece hpiece =>
    rw [byteLines_of_not_mem hpiece]
    by_cases hempty : piece = []
    · subst hempty
      decide
    · simp [hempty]
  | line piece rest hpiece ih =>
    rw [byteLines_append_cons hpiece, List.all_cons, ih, isText_withoutReturn,
      isText_append_cons (by decide)]

theorem firstFault_decode (lines : List (List UInt8)) :
    firstFault (lines.map decode) = if lines.all isText then none else some .notText := by
  induction lines with
  | nil => rfl
  | cons line rest ih =>
    rw [List.map_cons, List.all_cons]
    cases hdecode : decode? line with
    | some text => simpa [firstFault, decode, isText, hdecode] using ih
    | none => simp [firstFault, decode, isText, hdecode]

end Listing

/-- The span that a line announces. -/
def Line.announced? : Line → Option Span
  | .span s => some s
  | _ => none

def Sink.announced (sink : Sink) : List Span :=
  sink.lines.toList.filterMap Line.announced?

theorem Sink.announced_push (sink : Sink) (lines : List Line) :
    (sink.push lines).announced = sink.announced ++ lines.filterMap Line.announced? := by
  rw [announced, announced, push, Array.toList_append, List.filterMap_append]

namespace Reference

open Text.Utf8

variable (size : PageSize)

/-- The spans of the lines that are text and begin with an address range. -/
def textSpans (lines : List (List UInt8)) : List Span :=
  lines.filterMap fun line =>
    (decode? line).bind fun text => Source.Maps.span? size text.toList

theorem spans_decode (lines : List (List UInt8)) :
    spans size (lines.map Listing.decode) = textSpans size (lines.takeWhile isText) := by
  induction lines with
  | nil => rfl
  | cons line rest ih =>
    rw [List.map_cons]
    cases hdecode : decode? line with
    | some text =>
      have hline : Listing.decode line = .ok text := by rw [Listing.decode, hdecode]
      have htext : isText line = true := by rw [isText, hdecode, Option.isSome_some]
      rw [hline, spans_cons_ok, ih, List.takeWhile_cons_of_pos htext, textSpans, textSpans,
        List.filterMap_cons, hdecode, Option.bind_some]
      cases Source.Maps.span? size text.toList <;> rfl
    | none =>
      have hline : Listing.decode line = .error .notText := by rw [Listing.decode, hdecode]
      have htext : ¬ isText line = true := by simp [isText, hdecode]
      rw [hline, List.takeWhile_cons_of_neg htext]
      rfl

theorem announced_sourceTrace (table : EntryTable) (policy : Policy) (earlier : Nat)
    (items : List (Except SystemError String)) :
    (Scan.sourceTrace size table policy earlier
      (items.map (Source.Maps.event size))).lines.filterMap Line.announced? = spans size items := by
  induction items generalizing earlier with
  | nil => rfl
  | cons item rest ih =>
    cases item with
    | error cause => rfl
    | ok line =>
      rw [spans_cons_ok, List.map_cons]
      cases hspan : Source.Maps.span? size line.toList with
      | none => simpa [Source.Maps.event, hspan, Scan.sourceTrace] using ih earlier
      | some s =>
        have hevent : Source.Maps.event size (.ok line) = .span s := by
          simp only [Source.Maps.event, hspan]
        have hpages : ((Trail.ofSpan size table earlier s).lines policy).filterMap
            Line.announced? = [] := by
          rw [List.filterMap_eq_nil_iff]
          intro line hline
          obtain ⟨address, content, rfl⟩ := Scan.mem_lines_trail policy hline
          rfl
        rw [hevent, Scan.sourceTrace, Trace.lines_append, List.filterMap_append, ih,
          Scan.lines_block, List.filterMap_cons_some (f := Line.announced?) rfl, hpages]
        rfl

end Reference

namespace Survey

open Reference Text.Utf8

variable {files : FileSystem} {settings : Settings} {pid : UInt32} {maps pagemap : OpenFile}

theorem process_of_open (hmaps : files.openFile (settings.path (mapsName pid)) = .ok maps)
    (hpagemap : files.openFile (settings.path (pagemapName pid)) = .ok pagemap) :
    let x := survey files settings (.process pid)
    x.result {} =
        (match Listing.firstFault maps.listing.lines with
        | none => .ok ()
        | some cause => .error (.resourceUnavailable "maps listing" cause)) ∧
      (x.final {}).sink.announced = spans settings.pageSize maps.listing.lines := by
  let process := ofProcess files settings pid maps pagemap
  have hfailure : Scan.firstFailure process.source =
      (Listing.firstFault maps.listing.lines).map (.resourceUnavailable "maps listing") :=
    firstFailure_maps settings.pageSize maps.listing.lines
  have hroom : ({} : Session).sink.room = none := rfl
  dsimp only
  rw [survey_of_process hmaps hpagemap]
  refine ⟨?_, ?_⟩
  · rw [(perform_of_unlimited process).1, ending, hfailure]
    cases Listing.firstFault maps.listing.lines <;> rfl
  · rw [process.sink_perform_of_unlimited hroom, Sink.announced_push, trace, Trace.lines_append,
      List.filterMap_append]
    exact announced_sourceTrace settings.pageSize process.table process.policy 0
      maps.listing.lines

/-- A survey of a process whose files can be opened and read succeeds if and only if the bytes
of its listing are text, which they are if each line is. It announces the mappings of the lines
before the first one that is not text, in their order, and that line makes it fail. -/
theorem survey_process_of_bytes
    (hmaps : files.openFile (settings.path (mapsName pid)) = .ok maps)
    (hpagemap : files.openFile (settings.path (pagemapName pid)) = .ok pagemap)
    (hread : maps.listing.Readable) :
    let x := survey files settings (.process pid)
    let lines := Listing.byteLines maps.listing.content
    x.result {} =
        (if lines.all isText then .ok ()
        else .error (.resourceUnavailable "maps listing" .notText)) ∧
      (x.final {}).sink.announced = textSpans settings.pageSize (lines.takeWhile isText) ∧
      isText maps.listing.content = lines.all isText := by
  obtain ⟨hresult, hannounced⟩ := process_of_open hmaps hpagemap
  dsimp only
  refine ⟨?_, ?_, (Listing.all_isText_byteLines maps.listing.content).symm⟩
  · rw [hresult, Listing.lines_of_readable hread, Listing.firstFault_decode]
    by_cases htext : (Listing.byteLines maps.listing.content).all isText <;> simp [htext]
  · rw [hannounced, Listing.lines_of_readable hread, spans_decode]

/-- A mapping of a file whose name has a character of two bytes, with an interrupted read
between the two. As a table, nothing. -/
def splitName : OpenFile where
  listing := [.bytes ("1000-2000 r--p 0 00:00 0 /caf".toByteArray.data.toList ++ [0xC3]),
    .fault .interrupted, .bytes [0xA9, 0x0A]]
  read _ _ := .ok []

/-- A mapping of a file whose name is not text, and one of another file. -/
def strayName : OpenFile where
  listing := [.bytes ("1000-2000 r--p 0 00:00 0 /caf".toByteArray.data.toList ++
    [0xE9, 0x0A] ++ "3000-4000 r--p 0 00:00 0 /b\n".toByteArray.data.toList)]
  read _ _ := .ok []

def filesOf (file : OpenFile) : FileSystem where
  openFile _ := .ok file
  linkTarget _ := .error .noSuchEntry

theorem survey_process_of_split_name :
    let settings : Settings := { pageSize := ⟨0x1000, 12, rfl⟩, pageCount := 16 }
    let x := survey (filesOf splitName) settings (.process 7)
    (filesOf splitName).openFile (settings.path (mapsName 7)) = .ok splitName ∧
      (filesOf splitName).openFile (settings.path (pagemapName 7)) = .ok splitName ∧
      splitName.listing.Readable ∧
      x.result {} = .ok () ∧
      (x.final {}).sink.announced = [⟨0x1000, 0x2000, "/caf\u00e9", by decide⟩] := by
  intro settings
  have hmaps : (filesOf splitName).openFile (settings.path (mapsName 7)) = .ok splitName := rfl
  have hpagemap : (filesOf splitName).openFile (settings.path (pagemapName 7)) =
      .ok splitName := rfl
  have hread : splitName.listing.Readable := by decide +kernel
  obtain ⟨hresult, hannounced, -⟩ := survey_process_of_bytes hmaps hpagemap hread
  have htext : (Listing.byteLines splitName.listing.content).all isText = true := by
    decide +kernel
  refine ⟨hmaps, hpagemap, hread, ?_, ?_⟩
  · rw [hresult, if_pos htext]
  · rw [hannounced]
    decide +kernel

/-- A line that is not text costs the survey all lines from it on. -/
theorem survey_process_stops_at_stray_name :
    let settings : Settings := { pageSize := ⟨0x1000, 12, rfl⟩, pageCount := 16 }
    let x := survey (filesOf strayName) settings (.process 7)
    strayName.listing.Readable ∧
      (Listing.byteLines strayName.listing.content).map
          (fun line => AddressRange.ofLeading? (lossy line).toList) =
        [some ⟨0x1000, 0x2000⟩, some ⟨0x3000, 0x4000⟩] ∧
      x.result {} = .error (.resourceUnavailable "maps listing" .notText) ∧
      (x.final {}).sink.announced = [] := by
  intro settings
  have hmaps : (filesOf strayName).openFile (settings.path (mapsName 7)) = .ok strayName := rfl
  have hpagemap : (filesOf strayName).openFile (settings.path (pagemapName 7)) =
      .ok strayName := rfl
  obtain ⟨hresult, hannounced⟩ := process_of_open hmaps hpagemap
  have hfault : Listing.firstFault strayName.listing.lines = some .notText := by decide +kernel
  refine ⟨by decide +kernel, by decide +kernel, ?_, ?_⟩
  · rw [hresult, hfault]
  · rw [hannounced]
    decide +kernel

end Survey

end FrameScan
