import FrameScan.Proofs.ScanLines
import FrameScan.Proofs.ShownText
import FrameScan.Proofs.SurveyRun
import FrameScan.Proofs.WordFields
import FrameScan.Proofs.WrittenBytes
import Mathlib.Data.List.Basic

/-!
# The lines of a process

What a survey of a process writes and counts, said without a scan: the spans of the listed
mappings, with the records at their addresses up to the first read that does not yield one.
`survey_process_writes_reference` says that the survey writes just that, byte by byte.
-/

namespace FrameScan

open Text.Utf8 (encode)

def Listing.firstFault (items : List (Except SystemError String)) : Option SystemError :=
  items.findSome? fun
    | .ok _ => none
    | .error cause => some cause

namespace Reference

open Session

abbrev Answer := UInt64 × Except SystemError (List UInt8)

/-- The number that an answer of eight bytes is, least significant byte first. -/
def record? : Answer → Option (UInt64 × Nat)
  | (address, .ok bytes) => if bytes.length = 8 then some (address, Word.value bytes) else none
  | (_, .error _) => none

/-- The records among some answers, up to the first one that is none. -/
def records (answers : List Answer) : List (UInt64 × Nat) :=
  (answers.takeWhile (record? · |>.isSome)).filterMap record?

/-- How a scan ends that gets some answers: by the first one that is no record. -/
def outcome (answers : List Answer) : Outcome :=
  match answers.find? (record? · |>.isNone) with
  | none => .completed
  | some (_, .ok _) => .endOfTable
  | some (_, .error _) => .aborted

/-- A span, the records of its pages, and how they end. -/
structure Passage where
  span : Span
  records : List (UInt64 × Nat)
  outcome : Outcome

/-- The reads of a passage: one for each record, and one more where there is none. -/
def Passage.reads (passage : Passage) : Nat :=
  passage.records.length + if passage.outcome = .completed then 0 else 1

variable (size : PageSize)

/-- The bytes of the line of a page, if bit 63 of its record is set. -/
def recordBytes : UInt64 × Nat → List UInt8
  | (address, number) =>
    if number.testBit 63 then
      Line.pageBytes address.toNat (number % 2 ^ 55 * size.bytes.toNat % 2 ^ 64)
        (number.testBit 56) (number.testBit 61)
    else []

def Passage.bytes (passage : Passage) : List UInt8 :=
  Line.spanBytes passage.span ++ passage.records.flatMap (recordBytes size)

def counts (passages : List Passage) : Tally where
  spans := passages.length
  pagesRead := (passages.map fun passage => passage.records.length).sum
  pagesEmitted := (passages.map fun passage => passage.records.countP (·.2.testBit 63)).sum
  truncated := passages.countP (·.outcome = .endOfTable)
  aborted := passages.countP (·.outcome = .aborted)

variable (table : EntryTable)

/-- The answers to one read for each address, after a number of earlier reads. The record of
a page is eight bytes long, and at eight times the number of the page. -/
def answers (earlier : Nat) (addresses : List UInt64) : List Answer :=
  addresses.mapIdx fun i address =>
    (address,
      table.read (earlier + i) (UInt64.ofNat (8 * (address.toNat / size.bytes.toNat))))

def passage (earlier : Nat) (s : Span) : Passage :=
  let answers := answers size table earlier (size.addresses s.start s.stop)
  ⟨s, records answers, outcome answers⟩

/-- The passages of spans one after another, after a number of earlier reads. -/
def passages : Nat → List Span → List Passage
  | _, [] => []
  | earlier, s :: rest =>
    let first := passage size table earlier s
    first :: passages (earlier + first.reads) rest

/-- The spans of the mappings listed before the first item that is not a line. -/
def spans (items : List (Except SystemError String)) : List Span :=
  ((items.takeWhile Except.isOk).filterMap Except.toOption).filterMap fun line =>
    Source.Maps.span? size line.toList

theorem answers_cons (earlier : Nat) (address : UInt64) (rest : List UInt64) :
    answers size table earlier (address :: rest) =
      (address, table.read earlier (EntryTable.offset (size.index address))) ::
        answers size table (earlier + 1) rest := by
  have hoffset : UInt64.ofNat (8 * (address.toNat / size.bytes.toNat)) =
      EntryTable.offset (size.index address) := by
    rw [Nat.mul_comm, UInt64.ofNat_mul,
      UInt64.ofNat_div (UInt64.toNat_lt_size _) (UInt64.toNat_lt_size _), UInt64.ofNat_toNat,
      UInt64.ofNat_toNat]
    rfl
  simp only [answers, List.mapIdx_cons, Nat.add_zero, Nat.add_assoc, Nat.add_comm 1, hoffset]

theorem records_cons (answer : Answer) (rest : List Answer) :
    records (answer :: rest) =
      match record? answer with
      | some record => record :: records rest
      | none => [] := by
  rw [records]
  split
  next record hrecord => simp [records, hrecord]
  next hrecord => simp [hrecord]

theorem outcome_cons {answer : Answer} {record : UInt64 × Nat} (h : record? answer = some record)
    (rest : List Answer) : outcome (answer :: rest) = outcome rest := by
  rw [outcome, List.find?_cons_of_neg (by simp [h])]
  rfl

def trailRecords (trail : Trail) : List (UInt64 × Nat) :=
  trail.entries.map fun (address, entry) => (address, entry.word.toNat)

theorem trail_along (earlier : Nat) (addresses : List UInt64) :
    let answers := answers size table earlier addresses
    let trail := Trail.along size table earlier addresses
    records answers = trailRecords trail ∧ outcome answers = trail.outcome := by
  induction addresses generalizing earlier with
  | nil => exact ⟨rfl, rfl⟩
  | cons address rest ih =>
    dsimp only at ih ⊢
    obtain ⟨hrecords, houtcome⟩ := ih (earlier + 1)
    rw [answers_cons, records_cons]
    cases hread : table.read earlier (EntryTable.offset (size.index address)) with
    | error cause =>
      rw [Trail.along_of_halt (EntryTable.fetch_of_error hread)]
      exact ⟨rfl, rfl⟩
    | ok bytes =>
      by_cases hlength : bytes.length = 8
      · have hrecord : record? (address, .ok bytes) = some (address, Word.value bytes) :=
          if_pos hlength
        rw [Trail.along_of_entry (EntryTable.fetch_of_full hread hlength), outcome_cons hrecord,
          hrecord, hrecords, houtcome, ← Word.toNat_ofBytes hlength]
        exact ⟨rfl, rfl⟩
      · have hrecord : record? (address, .ok bytes) = none := if_neg hlength
        rw [Trail.along_of_halt (EntryTable.fetch_of_short hread hlength), hrecord, outcome,
          List.find?_cons_of_pos (by simp [hrecord])]
        exact ⟨rfl, rfl⟩

theorem passage_eq (earlier : Nat) (s : Span) :
    let trail := Trail.ofSpan size table earlier s
    passage size table earlier s = ⟨s, trailRecords trail, trail.outcome⟩ := by
  obtain ⟨hrecords, houtcome⟩ := trail_along size table earlier (size.addresses s.start s.stop)
  exact congrArg₂ (Passage.mk s) hrecords houtcome

theorem reads_eq (s : Span) (trail : Trail) :
    (Passage.mk s (trailRecords trail) trail.outcome).reads = trail.visited.length := by
  rcases trail with ⟨entries, _ | ⟨address, _ | _⟩⟩ <;>
    simp [Passage.reads, trailRecords, Trail.visited, Trail.outcome, Trail.ended, Halt.outcome]

theorem isSome_content?_resident (entry : Entry) :
    ((Policy.resident size).content? entry).isSome = entry.word.toNat.testBit 63 := by
  change (if Word.bit entry.word 63 then _ else none).isSome = Word.bit entry.word 63
  cases Word.bit entry.word 63 <;> rfl

theorem bytes_content?_resident (address : UInt64) (entry : Entry) :
    (((Policy.resident size).content? entry).map (Line.page address)).toList.flatMap
        (fun line => line.bytes.data.toList) =
      recordBytes size (address, entry.word.toNat) := by
  let page : VirtualPage := ⟨entry.word⟩
  have hphysical : (page.physicalAddress size.bytes).toNat =
      entry.word.toNat % 2 ^ 55 * size.bytes.toNat % 2 ^ 64 := by
    rw [VirtualPage.physicalAddress, UInt64.toNat_mul, VirtualPage.toNat_frame]
  have hcontent : (Policy.resident size).content? entry =
      if entry.word.toNat.testBit 63 then
        some (.frame (page.physicalAddress size.bytes) (entry.word.toNat.testBit 56)
          (entry.word.toNat.testBit 61))
      else none := rfl
  rw [hcontent, recordBytes]
  split
  · rw [Option.map_some, Option.toList_some, List.flatMap_singleton, Line.toList_bytes_page,
      hphysical]
  · rfl

theorem bytes_lines (trail : Trail) :
    (Line.stream (trail.lines (.resident size))).data.toList =
      (trailRecords trail).flatMap (recordBytes size) := by
  rw [Line.toList_stream, Trail.lines, List.filterMap_eq_flatMap_toList, List.flatMap_assoc,
    trailRecords, List.flatMap_map]
  exact congrArg (trail.entries.flatMap ·) (funext fun visit =>
    bytes_content?_resident size visit.1 visit.2)

theorem length_lines (trail : Trail) :
    (trail.lines (.resident size)).length = (trailRecords trail).countP (·.2.testBit 63) := by
  rw [Trail.lines, List.length_filterMap_eq_countP, trailRecords, List.countP_map]
  congr 1
  funext visit
  exact Option.isSome_map.trans (isSome_content?_resident size visit.2)

theorem counts_cons (first : Passage) (rest : List Passage) :
    counts (first :: rest) =
      ({ pagesRead := first.records.length,
         pagesEmitted := first.records.countP (·.2.testBit 63) } : Tally) +
        ({} : Tally).count first.outcome + counts rest := by
  cases houtcome : first.outcome <;> ext <;>
    simp [counts, houtcome, Tally.count, Tally.add_def, Nat.add_comm]

theorem blockTrace_eq (earlier : Nat) (s : Span) (rest : List Passage) :
    let block := Scan.blockTrace size table (.resident size) earlier s
    let first := passage size table earlier s
    (Line.stream block.lines).data.toList = first.bytes size ∧
      block.tally + counts rest = counts (first :: rest) ∧ block.probes.length = first.reads := by
  let trail := Trail.ofSpan size table earlier s
  intro block first
  have hfirst : first = ⟨s, trailRecords trail, trail.outcome⟩ := passage_eq size table earlier s
  rw [hfirst, reads_eq, counts_cons, Passage.bytes]
  refine ⟨?_, ?_, ?_⟩
  · rw [Scan.lines_block, Line.stream_cons, ByteArray.data_append, Array.toList_append,
      Line.toList_bytes_span, bytes_lines]
  · have hlength : (trailRecords trail).length = trail.entries.length := List.length_map _
    rw [hlength, ← length_lines size]
    simp [block, Scan.blockTrace, Scan.spanTrace, Trail.trace, trail]
  · simp [block, Scan.blockTrace, Scan.spanTrace, Trail.trace, trail]

theorem spans_cons_ok (line : String) (rest : List (Except SystemError String)) :
    spans size (.ok line :: rest) =
      (Source.Maps.span? size line.toList).toList ++ spans size rest := by
  rw [spans, List.takeWhile_cons_of_pos rfl, List.filterMap_cons_some (f := Except.toOption) rfl,
    List.filterMap_cons]
  cases Source.Maps.span? size line.toList <;> rfl

/-- What the scan of the listed mappings writes and counts. The induction is on the items of
the listing. -/
theorem sourceTrace_eq (earlier : Nat) (items : List (Except SystemError String)) :
    let added := Scan.sourceTrace size table (.resident size) earlier
      (items.map (Source.Maps.event size))
    let passages := passages size table earlier (spans size items)
    (Line.stream added.lines).data.toList = passages.flatMap (·.bytes size) ∧
      added.tally = counts passages := by
  dsimp only
  induction items generalizing earlier with
  | nil => exact ⟨rfl, rfl⟩
  | cons item rest ih =>
    cases item with
    | error cause => exact ⟨rfl, rfl⟩
    | ok line =>
      rw [spans_cons_ok]
      cases hspan : Source.Maps.span? size line.toList with
      | none =>
        simpa [Source.Maps.event, hspan, Scan.sourceTrace] using ih earlier
      | some s =>
        obtain ⟨hbytes, hcounts, hreads⟩ := blockTrace_eq size table earlier s
          (passages size table (earlier + (passage size table earlier s).reads) (spans size rest))
        obtain ⟨hrestBytes, hrestCounts⟩ := ih (earlier + (passage size table earlier s).reads)
        have hevent : Source.Maps.event size (.ok line) = .span s := by
          simp only [Source.Maps.event, hspan]
        rw [List.map_cons, hevent, Scan.sourceTrace, hreads, Option.toList_some,
          List.singleton_append, passages, List.flatMap_cons, Trace.lines_append,
          Line.stream_append, ByteArray.data_append, Array.toList_append, hbytes, hrestBytes,
          Trace.tally_append, hrestCounts, hcounts]
        exact ⟨rfl, rfl⟩

theorem firstFailure_maps (items : List (Except SystemError String)) :
    Scan.firstFailure (items.map (Source.Maps.event size)) =
      (Listing.firstFault items).map (.resourceUnavailable "maps listing") := by
  induction items with
  | nil => rfl
  | cons item rest ih =>
    cases item with
    | error cause => rfl
    | ok line =>
      cases hspan : Source.Maps.span? size line.toList <;>
        simpa [Scan.firstFailure, Listing.firstFault, Source.Maps.event, hspan] using ih

end Reference

namespace Survey

open Session Reference

def ofProcess (files : FileSystem) (settings : Settings) (pid : UInt32) (maps pagemap : OpenFile) :
    Survey where
  size := settings.pageSize
  target := .process pid
  label := files.linkText (settings.path (executableName pid))
  table := ⟨settings.path (pagemapName pid), pagemap.read⟩
  policy := .resident settings.pageSize
  source := .maps settings maps.listing

theorem survey_of_process {files : FileSystem} {settings : Settings} {pid : UInt32}
    {maps pagemap : OpenFile} (hmaps : files.openFile (settings.path (mapsName pid)) = .ok maps)
    (hpagemap : files.openFile (settings.path (pagemapName pid)) = .ok pagemap) :
    survey files settings (.process pid) =
      (ofProcess files settings pid maps pagemap).perform := by
  have hprepare : prepare files settings (.process pid) =
      .ok (ofProcess files settings pid maps pagemap) := by
    simp only [prepare, FileSystem.listing, FileSystem.table, hmaps, hpagemap]
    rfl
  rw [survey, hprepare]
  rfl

theorem perform_of_unlimited (survey : Survey) :
    let added := Scan.sourceTrace survey.size survey.table survey.policy 0 survey.source
    survey.perform.result {} = survey.ending ∧
      (survey.perform.final {}).sink.accepted =
        Line.stream (.header survey.target survey.label :: added.lines) ∧
      (survey.perform.final {}).tally = added.tally := by
  intro added
  obtain ⟨hresult, haccepted, -⟩ := survey.perform_fresh none (.numbered 28) none {}
  have hroom : ({} : Session).sink.room = none := rfl
  refine ⟨?_, haccepted, ?_⟩
  · refine hresult.trans ((if_neg (not_overflows_none (survey.written 0))).trans ?_)
    -- The output has no error for the last flush, so the survey ends as its source does.
    unfold ending
    cases Scan.firstFailure survey.source <;> rfl
  · rw [perform_eq, (closing_keeps survey.lines (.finished survey.target) {}).2,
      (survey.lines_of_unlimited hroom).2]
    exact (zero_add _).trans (zero_add _)

/-- The survey of a process writes `= <pid> <label>`, and for each listed mapping the line that
announces it and those of its present pages, up to the first read that yields no record. It
counts these, and fails only for a listing with an item that is not a line. The label is the
target of the link to the executable if that is text, and a link that cannot be read leaves it
empty. -/
theorem survey_process_writes_reference {files : FileSystem} {settings : Settings} {pid : UInt32}
    {maps pagemap : OpenFile} (hmaps : files.openFile (settings.path (mapsName pid)) = .ok maps)
    (hpagemap : files.openFile (settings.path (pagemapName pid)) = .ok pagemap) :
    let x := survey files settings (.process pid)
    let size := settings.pageSize
    let executable := settings.path (executableName pid)
    let label := files.linkText executable
    let table : EntryTable := ⟨settings.path (pagemapName pid), pagemap.read⟩
    let items := maps.listing.lines
    let passages := passages size table 0 (spans size items)
    x.result {} =
        (match Listing.firstFault items with
        | none => .ok ()
        | some cause => .error (.resourceUnavailable "maps listing" cause)) ∧
      (x.final {}).sink.accepted.data.toList =
        Line.headerBytes (.process pid) (encode label) ++ passages.flatMap (·.bytes size) ∧
      (x.final {}).tally = counts passages ∧
      (∀ text, files.linkTarget executable = .ok (.ofText text) → label = text) ∧
      (∀ cause, files.linkTarget executable = .error cause → label = "") := by
  obtain ⟨hresult, haccepted, htally⟩ :=
    perform_of_unlimited (ofProcess files settings pid maps pagemap)
  obtain ⟨hbytes, hcounts⟩ := sourceTrace_eq settings.pageSize
    ⟨settings.path (pagemapName pid), pagemap.read⟩ 0 maps.listing.lines
  dsimp only
  rw [survey_of_process hmaps hpagemap]
  refine ⟨?_, ?_, ?_, fun text htext => ?_, fun cause hcause => ?_⟩
  · rw [hresult, ending, ofProcess, Source.maps, firstFailure_maps]
    cases Listing.firstFault maps.listing.lines <;> rfl
  · rw [haccepted, Line.stream_cons, ByteArray.data_append, Array.toList_append,
      Line.toList_bytes_header]
    exact congrArg _ hbytes
  · exact htally.trans hcounts
  · rw [FileSystem.linkText, htext]
    exact Text.Utf8.lossy_encode text
  · rw [FileSystem.linkText, hcause]

/-- Three mappings, and a line that is none, then a read that fails. As a table, records of
pages that are present, one of a page that is not, a read that fails, and the end. -/
def brokenFile : OpenFile where
  listing :=
    [.bytes (encode "0-3000 r--p 0 00:00 0 /lib/y z\nx\n5000-7000\n8000-9000\n"),
      .fault (.numbered 5)]
  read _ offset :=
    if offset = 0 then .ok [5, 0, 0, 0, 0, 0, 0, 0x81]
    else if offset = 8 then .ok [0, 0, 0, 0, 0, 0, 0, 0x7F]
    else if offset = 16 then .ok [0xAB, 0xCD, 0, 0, 0, 0, 0xF0, 0xBE]
    else if offset = 40 then .ok [1, 0, 0, 0, 0, 0, 0, 0xFF]
    else if offset = 48 then .error (.numbered 5)
    else .ok []

def brokenFiles : FileSystem where
  openFile _ := .ok brokenFile
  linkTarget _ := .ok (.ofText "/bin/x")

/-- Of the third record more is left out than reserved bits: its frame number is too large for
an address, and loses what is above it. -/
theorem survey_process_of_broken_files :
    let settings : Settings := { pageSize := ⟨0x1000, 12, rfl⟩, pageCount := 16 }
    let x := survey brokenFiles settings (.process 7)
    brokenFiles.openFile (settings.path (mapsName 7)) = .ok brokenFile ∧
      brokenFiles.openFile (settings.path (pagemapName 7)) = .ok brokenFile ∧
      x.result {} = .error (.resourceUnavailable "maps listing" (.numbered 5)) ∧
      (x.final {}).sink.accepted.data.toList = encode ("= 7 /bin/x\n" ++
        "v 0x0000000000000000 0x0000000000003000 /lib/y z\n" ++
        "p 0x0000000000000000 0x0000000000005000 1 0\n" ++
        "p 0x0000000000002000 0x000000000cdab000 0 1\n" ++
        "v 0x0000000000005000 0x0000000000007000 \n" ++
        "p 0x0000000000005000 0x0000000000001000 1 1\n" ++
        "v 0x0000000000008000 0x0000000000009000 \n") ∧
      (x.final {}).tally =
        { spans := 3, pagesRead := 4, pagesEmitted := 3, truncated := 1, aborted := 1 } := by
  intro settings
  have hmaps : brokenFiles.openFile (settings.path (mapsName 7)) = .ok brokenFile := rfl
  have hpagemap : brokenFiles.openFile (settings.path (pagemapName 7)) = .ok brokenFile := rfl
  obtain ⟨hresult, hbytes, hcounts, hlabel, -⟩ := survey_process_writes_reference hmaps hpagemap
  have hfault : Listing.firstFault brokenFile.listing.lines = some (.numbered 5) := by
    decide +kernel
  refine ⟨hmaps, hpagemap, ?_, ?_, ?_⟩
  · rw [hresult, hfault]
  · rw [hbytes, hlabel "/bin/x" rfl]
    decide +kernel
  · rw [hcounts]
    decide +kernel

end Survey

end FrameScan
