import FrameScan.Proofs.LineReader
import FrameScan.Proofs.Opening
import FrameScan.Proofs.ScanLines

/-!
# The header line

A stream is divided at its line feeds, and what a line is of is told by its first character.
The records of a survey keep to that. The header of a process has the target of a link as its
label, just as it is: `process_stream_orderly_iff` says that the stream is in order as long as
the target has no line feed, and that each line feed of it is one more line, which may look
like a record. `forged_span` is such a stream.
-/

namespace FrameScan

open Listing (lineFeed)
open Text.Utf8 (encode)

namespace FileSystem

/-- The bytes of the target of a link; none if it cannot be told. -/
def linkBytes (files : FileSystem) (path : Path) : List UInt8 :=
  match files.linkTarget path with
  | .ok target => target.bytes
  | .error _ => []

theorem count_linkText (files : FileSystem) (path : Path) :
    (files.linkText path).toList.count '\n' = (files.linkBytes path).count lineFeed := by
  unfold linkText linkBytes
  cases files.linkTarget path with
  | ok target => exact Text.Utf8.count_lossy target.bytes
  | error cause => rfl

end FileSystem

namespace Line

/-- Whether a line is a record, by its beginning. -/
def IsRecord (line : List UInt8) : Prop :=
  encode "v " <+: line ∨ encode "p " <+: line

theorem isRecord_span (s : Span) : IsRecord (encode (Line.span s).text) := by
  rw [IsRecord, encode_letterV, encode_span]
  exact .inl (List.prefix_append [letterV, space] _)

theorem isRecord_page (address : UInt64) (content : PageContent) :
    IsRecord (encode (Line.page address content).text) := by
  rw [IsRecord, encode_letterP, encode_page]
  exact .inr (List.prefix_append [letterP, space] _)

theorem isRecord_of_sourceTrace {size : PageSize} {table : EntryTable} {policy : Policy}
    {earlier : Nat} {events : Source} {line : Line}
    (h : line ∈ (Scan.sourceTrace size table policy earlier events).lines) :
    IsRecord (encode line.text) := by
  rcases Scan.mem_lines_sourceTrace _ _ _ h with ⟨s, rfl, -⟩ | ⟨address, content, rfl⟩
  · exact isRecord_span s
  · exact isRecord_page address content

theorem newline_not_mem_id (target : Target) : '\n' ∉ (toString target.id).toList := by
  cases target with
  | process pid =>
    have hdigits : (toString (Target.process pid).id).toList = Nat.toDigits 10 pid.toNat :=
      String.toList_ofList
    rw [hdigits]
    intro hmem
    obtain ⟨d, hd, heq⟩ := Text.Numeral.mem_toDigits (by decide) hmem
    have hlt := (Text.Numeral.toNat_digitChar (Nat.lt_trans hd (by decide))).1
    rw [← heq] at hlt
    exact absurd hlt (by decide)
  | kernel => decide +kernel
  | pageCache => decide +kernel

theorem count_header (target : Target) (label : String) :
    (Line.header target label).text.toList.count '\n' = label.toList.count '\n' := by
  have hid := List.count_eq_zero.mpr (newline_not_mem_id target)
  simp only [text_header, String.toList_append, List.count_append, hid]
  rw [show "= ".toList.count '\n' = 0 by decide, show " ".toList.count '\n' = 0 by decide]
  omega

/-- A stream whose first line is a header, and whose other lines are records, as many as
there are spans and pages by the counts. -/
structure Orderly (output : ByteArray) (header : Line) (tally : Tally) : Prop where
  lines : ∃ records, output.data.toList.splitOn lineFeed =
      encode header.text :: records ++ [[]] ∧ ∀ record ∈ records, IsRecord record
  lineFeeds : output.data.toList.count lineFeed = 1 + tally.spans + tally.pagesEmitted

end Line

namespace Survey

open Line

variable {files : FileSystem} {settings : Settings} {pid : UInt32} {room : Option Nat}
  {error : SystemError} {flushError : Option SystemError}

theorem length_lines_trace (survey : Survey) (earlier : Nat) :
    (survey.trace earlier).lines.length =
      1 + (survey.trace earlier).tally.spans + (survey.trace earlier).tally.pagesEmitted := by
  have hcounts := Scan.length_lines_sourceTrace survey.size survey.table survey.policy earlier
    survey.source
  rw [trace, Trace.lines_append, List.length_append, Trace.tally_append, zero_add, hcounts]
  exact (Nat.add_assoc _ _ _).symm

theorem stream_of_ok {target : Target}
    (h : (survey files settings target).result
      (({} : Session).into (.fresh room error flushError)) = .ok ()) :
    let after := (survey files settings target).final
      (({} : Session).into (.fresh room error flushError))
    let trace := (prepared files settings target).trace 0
    after.sink.accepted = stream trace.lines ∧ after.tally = trace.tally := by
  intro after trace
  have hopen : files.firstClosed (resources settings target) = none := by
    cases hclosed : files.firstClosed (resources settings target) with
    | none => rfl
    | some closed =>
      obtain ⟨path, cause⟩ := closed
      rw [Action.result_of_error (survey_of_closed hclosed _)] at h
      cases h
  obtain ⟨hresult, haccepted, htally⟩ := (prepared files settings target).perform_fresh
    room error flushError {}
  rw [← survey_of_open hopen] at hresult haccepted htally
  have hfits : ¬ Overflows room ((prepared files settings target).written 0) := by
    intro hover
    rw [h] at hresult
    cases hresult.trans (if_pos hover)
  refine ⟨?_, ?_⟩
  · exact haccepted.trans (upTo_of_not_overflows hfits)
  · exact (htally h).trans (zero_add _)

/-- The stream of a survey of a process that succeeds: the pieces of the header, then a record
for each span and page counted. It has one line feed more for each one in the target of the
link to the executable, and is in order only if there is none. -/
theorem process_stream_orderly_iff
    (h : (survey files settings (.process pid)).result
      (({} : Session).into (.fresh room error flushError)) = .ok ()) :
    let after := (survey files settings (.process pid)).final
      (({} : Session).into (.fresh room error flushError))
    let output := after.sink.accepted
    let tally := after.tally
    let executable := settings.path (executableName pid)
    let header := Line.header (.process pid) (files.linkText executable)
    (∃ records, output.data.toList.splitOn lineFeed =
        (encode header.text).splitOn lineFeed ++ records ++ [[]] ∧
      records.length = tally.spans + tally.pagesEmitted ∧
      ∀ record ∈ records, IsRecord record) ∧
    output.data.toList.count lineFeed =
      1 + tally.spans + tally.pagesEmitted + (files.linkBytes executable).count lineFeed ∧
    (Orderly output header tally ↔ lineFeed ∉ files.linkBytes executable) := by
  intro after output tally executable header
  obtain ⟨haccepted, htally⟩ := stream_of_ok h
  let source := Source.maps settings (files.contents (settings.path (mapsName pid)))
  let table := files.entries (settings.path (pagemapName pid))
  let records :=
    (Scan.sourceTrace settings.pageSize table (.resident settings.pageSize) 0 source).lines
  have hstream : output = stream (header :: records) := haccepted
  have hlength : records.length = tally.spans + tally.pagesEmitted := by
    have hlines : records.length + 1 = 1 + tally.spans + tally.pagesEmitted := by
      rw [show tally = _ from htally]
      exact length_lines_trace (prepared files settings (.process pid)) 0
    omega
  have hfeeds : ∀ line ∈ records, '\n' ∉ line.text.toList :=
    Scan.newline_not_mem_sourceTrace _ _ _ (Source.maps_unbroken _ _) 0
  have hcount : output.data.toList.count lineFeed =
      1 + tally.spans + tally.pagesEmitted + (files.linkBytes executable).count lineFeed := by
    rw [hstream, count_stream_cons, count_stream hfeeds, count_header,
      FileSystem.count_linkText, hlength]
    omega
  have hrecords : ∀ record ∈ records.map (fun line => encode line.text), IsRecord record := by
    intro record hrecord
    obtain ⟨line, hline, rfl⟩ := List.mem_map.mp hrecord
    exact isRecord_of_sourceTrace hline
  have hsplit := splitOn_stream_cons header records
  rw [← hstream, splitOn_stream hfeeds, ← List.append_assoc] at hsplit
  refine ⟨⟨_, hsplit, by rw [List.length_map, hlength], hrecords⟩, hcount, ?_⟩
  constructor
  · intro horderly
    have hzero := horderly.lineFeeds
    rw [hcount] at hzero
    exact List.count_eq_zero.mp (by omega)
  · intro hnone
    have hheader : '\n' ∉ header.text.toList := by
      rw [← List.count_eq_zero, count_header, FileSystem.count_linkText]
      exact List.count_eq_zero.mpr hnone
    rw [splitOn_of_not_mem (Text.Utf8.lineFeed_not_mem_encode hheader)] at hsplit
    refine ⟨⟨_, hsplit, hrecords⟩, ?_⟩
    rw [hcount, List.count_eq_zero.mpr hnone, Nat.add_zero]

def emptyProcess (executable : String) : FileSystem where
  openFile _ := .ok { listing := [], read _ _ := .ok [] }
  linkTarget _ := .ok (.ofText executable)

/-- A process with a mapping of two pages, of which one is present. -/
def residentProcess (executable : String) : FileSystem where
  openFile _ := .ok {
    listing := [.bytes (encode "1000-3000 r-xp 0 00:00 0 /bin/x\n")]
    read _ offset :=
      .ok (if offset = 8 then [5, 0, 0, 0, 0, 0, 0, 0x80] else List.replicate 8 0) }
  linkTarget _ := .ok (.ofText executable)

/-- A plain path keeps the stream in order: a header, the mapping and its present page. -/
theorem plain_stream_orderly :
    let settings : Settings := { pageSize := ⟨0x1000, 12, rfl⟩, pageCount := 16 }
    let x := survey (residentProcess "/bin/x") settings (.process 7)
    let start := ({} : Session).into (.fresh none (.numbered 28) none)
    x.result start = .ok () ∧
      (x.final start).tally = { spans := 1, pagesRead := 2, pagesEmitted := 1 } ∧
      (x.final start).sink.accepted.data.toList = encode ("= 7 /bin/x\n" ++
        "v 0x0000000000001000 0x0000000000003000 /bin/x\n" ++
        "p 0x0000000000001000 0x0000000000005000 0 0\n") ∧
      Orderly (x.final start).sink.accepted (.header (.process 7) "/bin/x")
        (x.final start).tally := by
  intro settings x start
  let files := residentProcess "/bin/x"
  let process := prepared files settings (.process 7)
  have hopen : files.firstClosed (resources settings (.process 7)) = none := rfl
  obtain ⟨hresult, hbytes, htally⟩ := process.perform_of_unlimited
  rw [← survey_of_open hopen] at hresult hbytes htally
  have hok : x.result start = .ok () := hresult.trans (by decide +kernel)
  have hlink : lineFeed ∉ files.linkBytes (settings.path (executableName 7)) := by
    decide +kernel
  have hlabel : files.linkText (settings.path (executableName 7)) = "/bin/x" :=
    Text.Utf8.lossy_encode "/bin/x"
  obtain ⟨-, -, horderly⟩ := process_stream_orderly_iff hok
  rw [hlabel] at horderly
  have hstream : (x.final start).sink.accepted = _ := hbytes
  refine ⟨hok, htally.trans (by decide +kernel), ?_, horderly.mpr hlink⟩
  rw [hstream]
  decide +kernel

/-- A line feed in the target of the link is written as it is: what follows it announces a
span, and none was scanned. -/
theorem forged_span :
    let settings : Settings := { pageSize := ⟨0x1000, 12, rfl⟩, pageCount := 16 }
    let x := survey (emptyProcess "a\nv x") settings (.process 7)
    let start := ({} : Session).into (.fresh none (.numbered 28) none)
    x.result start = .ok () ∧ (x.final start).tally = {} ∧
      (x.final start).sink.accepted.data.toList = encode "= 7 a\nv x\n" ∧
      ¬ Orderly (x.final start).sink.accepted (.header (.process 7) "a\nv x")
        (x.final start).tally := by
  intro settings x start
  have hok : x.result start = .ok () := by rfl
  have htally : (x.final start).tally = {} := by rfl
  have hbytes : (x.final start).sink.accepted.data.toList =
      encode "= 7 a\nv x\n" := by decide +kernel
  refine ⟨hok, htally, hbytes, ?_⟩
  intro horderly
  have hfeeds := horderly.lineFeeds
  rw [htally, hbytes] at hfeeds
  exact absurd hfeeds (by decide +kernel)

end Survey

end FrameScan
