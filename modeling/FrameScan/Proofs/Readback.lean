import FrameScan.Proofs.LineReader
import FrameScan.Proofs.Rounding
import FrameScan.Proofs.ScanLines

/-!
# Reading a scan back

What a scan has found is read off the bytes that it wrote: which spans it was told of, and what
it reported of the pages of each. Of a frame number its address keeps only the part below the
number of pages of the address space. `stream_read_back` says so of the three policies, and of
the spans of all three kinds of sources.
-/

namespace FrameScan

open Listing (lineFeed)
open Text.Numeral (paddedHex)
open Text.Utf8 (encode)

/-- What is found out of a page: the number of its frame, as far as an address tells it, or
the flag word of the frame. -/
inductive Finding where
  | frame (number : Nat) (exclusive shared : Bool)
  | flags (word : UInt64)
  deriving DecidableEq, Repr

/-- A span and what is found out of its pages. -/
structure Block where
  span : Span
  pages : List (UInt64 × Finding)
  deriving DecidableEq, Repr

inductive Mode where
  | resident
  | all
  | cache (filter : CacheFilter)
  deriving DecidableEq, Repr

inductive Origin where
  | maps (listing : Listing)
  | iomem (listing : Listing)
  | physical
  deriving DecidableEq, Repr

def Origin.source (settings : Settings) : Origin → Source
  | .maps listing => .maps settings listing
  | .iomem listing => .iomem settings listing
  | .physical => .physical settings

theorem Origin.unbroken (settings : Settings) (origin : Origin) :
    (origin.source settings).Unbroken := by
  cases origin with
  | maps listing => exact Source.maps_unbroken settings listing
  | iomem listing => exact Source.iomem_unbroken settings listing
  | physical => exact Source.physical_unbroken settings

namespace Mode

def policy (size : PageSize) : Mode → Policy
  | .resident => .resident size
  | .all => .all
  | .cache filter => .cache filter

/-- What a mode finds in the entry of a page, if it reports the page. -/
def finding? (size : PageSize) (mode : Mode) (entry : Entry) : Option Finding :=
  match mode with
  | .resident =>
    let page : VirtualPage := ⟨entry.word⟩
    if page.present then
      some (.frame (page.frame.toNat % (UInt64.size / size.bytes.toNat)) page.exclusive
        page.fileShared)
    else none
  | .all => some (.flags entry.word)
  | .cache filter => if filter.accepts ⟨entry.word⟩ then some (.flags entry.word) else none

end Mode

/-- What a reader of the line of a page finds. -/
def PageContent.finding (size : PageSize) : PageContent → Finding
  | .frame physical exclusive shared =>
    .frame (physical.toNat / size.bytes.toNat) exclusive shared
  | .flags f => .flags f.word

/-- The address of a frame wraps around, and so its number is known modulo the number of pages
that there are addresses for. -/
theorem VirtualPage.toNat_physicalAddress_div (size : PageSize) (page : VirtualPage) :
    (page.physicalAddress size.bytes).toNat / size.bytes.toNat =
      page.frame.toNat % (UInt64.size / size.bytes.toNat) := by
  have hpages : 2 ^ 64 = UInt64.size / size.bytes.toNat * size.bytes.toNat :=
    (Nat.div_mul_cancel size.dvd_size).symm
  rw [physicalAddress, UInt64.toNat_mul, hpages, Nat.mul_mod_mul_right,
    Nat.mul_div_cancel _ size.bytes_pos]

theorem Mode.finding?_eq (size : PageSize) (mode : Mode) (entry : Entry) :
    mode.finding? size entry =
      ((mode.policy size).content? entry).map (PageContent.finding size) := by
  cases mode with
  | resident =>
    have hnumber := VirtualPage.toNat_physicalAddress_div size ⟨entry.word⟩
    simp only [finding?, policy, Policy.resident]
    split
    · rw [Option.map_some, PageContent.finding, hnumber]
    · rfl
  | all => rfl
  | cache filter =>
    simp only [finding?, policy, Policy.cache]
    split <;> rfl

namespace Scan

variable (size : PageSize) (table : EntryTable) (mode : Mode)

def findings (trail : Trail) : List (UInt64 × Finding) :=
  trail.entries.filterMap fun (address, entry) =>
    (mode.finding? size entry).map fun finding => (address, finding)

/-- What is found in a source, up to the first failure in it. -/
def found : Nat → Source → List Block
  | _, [] => []
  | earlier, .span s :: rest =>
    let trail := Trail.ofSpan size table earlier s
    ⟨s, findings size mode trail⟩ :: found (earlier + trail.visited.length) rest
  | _, .failure _ :: _ => []
  | earlier, .notice _ :: rest => found earlier rest

/-- What lines say is found: of pages before the first span, and of the spans. -/
def gather : List Line → List (UInt64 × Finding) × List Block
  | [] => ([], [])
  | .span s :: rest => ([], ⟨s, (gather rest).1⟩ :: (gather rest).2)
  | .page address content :: rest =>
    ((address, content.finding size) :: (gather rest).1, (gather rest).2)
  | .header .. :: rest => gather rest

/-- Read a stream of records: each page belongs to the last span before it. -/
def read? (stream : List UInt8) : Option (List Block) :=
  match (Line.lines? stream).map (gather size) with
  | some ([], blocks) => some blocks
  | _ => none

theorem gather_lines (trail : Trail) (rest : List Line) :
    gather size (trail.lines (mode.policy size) ++ rest) =
      (findings size mode trail ++ (gather size rest).1, (gather size rest).2) := by
  rw [Trail.lines, findings]
  induction trail.entries with
  | nil => rfl
  | cons first entries ih =>
    obtain ⟨address, entry⟩ := first
    have hfinding := mode.finding?_eq size entry
    cases hcontent : (mode.policy size).content? entry with
    | none => simpa [hfinding, hcontent] using ih
    | some content => simp [hfinding, hcontent, gather, ih]

/-- The lines of a scan tell what it found. The induction is on the source: no page stands
before the first span, so what a span gathers ends where the next one begins. -/
theorem gather_sourceTrace (earlier : Nat) (events : Source) :
    gather size (sourceTrace size table (mode.policy size) earlier events).lines =
      ([], found size table mode earlier events) := by
  induction events generalizing earlier with
  | nil => rfl
  | cons event rest ih =>
    cases event with
    | span s =>
      have hprobes : (blockTrace size table (mode.policy size) earlier s).probes.length =
          (Trail.ofSpan size table earlier s).visited.length := by
        simp [blockTrace, spanTrace, Trail.trace]
      rw [sourceTrace, Trace.lines_append, lines_block, List.cons_append, gather, gather_lines,
        ih, hprobes, List.append_nil, found]
    | failure failure => rfl
    | notice notice => exact ih earlier

end Scan

namespace Line

/-- A line of a stream, with its letter and its two words in their places. -/
structure Columned (line : List UInt8) (letter : UInt8) (first second : UInt64) : Prop where
  letter : line.head? = some letter
  first : column 2 line = encode (paddedHex first)
  second : column 21 line = encode (paddedHex second)

theorem columned_layout (letter : UInt8) (first second : UInt64) (tail : List UInt8) :
    Columned (layout letter first second tail) letter first second where
  letter := rfl
  first := column_first letter first second tail
  second := column_second letter first second tail

theorem columned_span (s : Span) :
    Columned (encode (Line.span s).text) letterV s.start s.stop := by
  rw [encode_span]
  exact columned_layout letterV s.start s.stop _

theorem columned_page (address : UInt64) (content : PageContent) :
    Columned (encode (Line.page address content).text) letterP address content.word := by
  rw [encode_page]
  exact columned_layout letterP address content.word _

end Line

namespace Scan

open Line

/-- A scan by a scanner with a past, for an output of its own without a limit. -/
structure Pass where
  origin : Origin
  table : EntryTable
  before : Session

namespace Pass

variable (settings : Settings) (mode : Mode) (pass : Pass)

def bytes : List UInt8 :=
  let size := settings.pageSize
  let x := source size pass.table (mode.policy size) (pass.origin.source settings)
  (x.final (pass.before.into {})).sink.accepted.data.toList

def found : List Block :=
  Scan.found settings.pageSize pass.table mode pass.before.probes.size
    (pass.origin.source settings)

def lines : List Line :=
  let size := settings.pageSize
  (sourceTrace size pass.table (mode.policy size) pass.before.probes.size
    (pass.origin.source settings)).lines

theorem bytes_eq : pass.bytes settings mode = (stream (pass.lines settings mode)).data.toList := by
  have hroom : (pass.before.into {}).sink.room = none := rfl
  have hfinal := final_source_of_unlimited settings.pageSize pass.table
    (mode.policy settings.pageSize) hroom (pass.origin.source settings)
  have haccepted := Sink.accepted_push hroom (pass.lines settings mode)
  rw [bytes, hfinal]
  exact congrArg (·.data.toList) (haccepted.trans ByteArray.empty_append)

theorem newline_not_mem : ∀ line ∈ pass.lines settings mode, '\n' ∉ line.text.toList :=
  newline_not_mem_sourceTrace _ _ _ (pass.origin.unbroken settings) _

theorem read?_bytes :
    read? settings.pageSize (pass.bytes settings mode) = some (pass.found settings mode) := by
  have hread : ∀ line ∈ pass.lines settings mode, line? (encode line.text) = some line := by
    intro line hline
    rcases mem_lines_sourceTrace _ _ _ hline with ⟨s, rfl, -⟩ | ⟨address, content, rfl⟩
    · exact line?_span s
    · exact line?_page address content
  have hlines := lines?_stream (pass.newline_not_mem settings mode) hread
  have hgather := gather_sourceTrace settings.pageSize pass.table mode pass.before.probes.size
    (pass.origin.source settings)
  rw [read?, bytes_eq, hlines, Option.map_some, lines, hgather]
  rfl

end Pass

/-- The stream of a scan is divided into its lines, whose letters and words are in their
places, and what the scan found is read back from it. So two scans in the same mode that wrote
the same bytes found the same. -/
theorem stream_read_back (settings : Settings) (mode : Mode) :
    (∀ pass : Pass,
      (∃ pieces, (pass.bytes settings mode).splitOn lineFeed = pieces ++ [[]] ∧
        ∀ piece ∈ pieces,
          (∃ s, piece = encode (Line.span s).text ∧ Columned piece letterV s.start s.stop) ∨
          ∃ address content, piece = encode (Line.page address content).text ∧
            Columned piece letterP address content.word) ∧
      read? settings.pageSize (pass.bytes settings mode) = some (pass.found settings mode)) ∧
    ∀ first second : Pass, first.bytes settings mode = second.bytes settings mode →
      first.found settings mode = second.found settings mode := by
  refine ⟨?_, ?_⟩
  · intro pass
    have hsplit := splitOn_stream (pass.newline_not_mem settings mode)
    rw [← pass.bytes_eq settings mode] at hsplit
    refine ⟨⟨_, hsplit, ?_⟩, pass.read?_bytes settings mode⟩
    intro piece hpiece
    obtain ⟨line, hline, rfl⟩ := List.mem_map.mp hpiece
    rcases mem_lines_sourceTrace _ _ _ hline with ⟨s, rfl, -⟩ | ⟨address, content, rfl⟩
    · exact .inl ⟨s, rfl, columned_span s⟩
    · exact .inr ⟨address, content, rfl, columned_page address content⟩
  · intro first second hbytes
    have hfirst := first.read?_bytes settings mode
    rw [hbytes, second.read?_bytes settings mode] at hfirst
    exact (Option.some.inj hfirst).symm

/-- A scan of one physical page, whose table says that it is present in a frame. -/
def inFrame (frame : UInt64) : Pass where
  origin := .physical
  table := ⟨.ofText "pagemap", fun _ _ => .ok (Word.toBytes (frame ||| 0x8000000000000000))⟩
  before := {}

/-- Two frames whose addresses are the same modulo 2^64 are written and read back alike. -/
theorem wrapped_frames_read_back :
    let settings : Settings := { pageSize := ⟨0x1000, 12, rfl⟩, pageCount := 1 }
    let near := inFrame 5
    let far := inFrame 0x10000000000005
    near.bytes settings .resident = far.bytes settings .resident ∧
      far.found settings .resident = near.found settings .resident ∧
      near.found settings .resident =
        [⟨Span.ofBounds 0 0x1000 "physical", [(0, .frame 5 false false)]⟩] := by
  intro settings near far
  have hbytes : near.bytes settings .resident = far.bytes settings .resident := by
    rw [near.bytes_eq settings .resident, far.bytes_eq settings .resident]
    decide +kernel
  have hfound := (stream_read_back settings .resident).2 near far hbytes
  exact ⟨hbytes, hfound.symm, by decide +kernel⟩

end Scan

end FrameScan
