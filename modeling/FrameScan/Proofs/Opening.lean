import FrameScan.Proofs.ProcessStream

/-!
# Opening

The files that a survey needs are opened before it writes, and after that only its output
and its listing can make it fail. `survey_opens_before_writing` gives the result and the
output of a survey for every file system and every sink; no answer of a table is in it.
-/

namespace FrameScan

open Text.Utf8 (encode)

namespace Listing

theorem eq_notText_of_decode {line : List UInt8} {cause : SystemError}
    (h : decode line = .error cause) : cause = .notText := by
  unfold decode at h
  split at h
  · cases h
  · exact (Except.error.inj h).symm

theorem eq_notText_of_ended {before : List UInt8} {cause : SystemError}
    (h : ended before = .error cause) : cause = .notText := by
  unfold ended at h
  split at h
  · exact eq_notText_of_decode h
  · exact eq_notText_of_decode h

theorem fault_of_mem_linesAfter {before : List UInt8} {signals : List Signal}
    {cause : SystemError} (h : .error cause ∈ linesAfter before signals) :
    (.fault cause ∈ signals ∧ cause ≠ .interrupted) ∨ cause = .notText := by
  fun_induction linesAfter before signals with
  | case1 => exact absurd h List.not_mem_nil
  | case2 b before =>
    have heq := List.mem_singleton.mp h
    exact .inr (eq_notText_of_decode heq.symm)
  | case3 before rest ih =>
    rcases List.mem_cons.mp h with heq | hrest
    · exact .inr (eq_notText_of_ended heq.symm)
    · exact (ih hrest).imp_left (And.imp_left (List.mem_cons_of_mem _))
  | case4 before b rest hb ih =>
    exact (ih h).imp_left (And.imp_left (List.mem_cons_of_mem _))
  | case5 before rest ih =>
    exact (ih h).imp_left (And.imp_left (List.mem_cons_of_mem _))
  | case6 before error rest hne ih =>
    rcases List.mem_cons.mp h with heq | hrest
    · cases heq
      exact .inl ⟨List.mem_cons_self, hne⟩
    · exact (ih hrest).imp_left (And.imp_left (List.mem_cons_of_mem _))

theorem fault_of_mem_lines {listing : Listing} {cause : SystemError}
    (h : .error cause ∈ listing.lines) :
    (.fault cause ∈ listing ∧ cause ≠ .interrupted) ∨ cause = .notText := by
  refine (fault_of_mem_linesAfter h).imp_left fun ⟨hmem, hne⟩ => ⟨?_, hne⟩
  obtain ⟨chunk, hchunk, hsignal⟩ := List.mem_flatMap.mp hmem
  cases chunk with
  | bytes content =>
    obtain ⟨_, -, hbyte⟩ := List.mem_map.mp hsignal
    cases hbyte
  | fault error =>
    cases List.mem_singleton.mp hsignal
    exact hchunk

theorem mem_of_firstFault {items : List (Except SystemError String)} {cause : SystemError}
    (h : firstFault items = some cause) : .error cause ∈ items := by
  obtain ⟨item, hmem, hitem⟩ := List.exists_of_findSome?_eq_some h
  cases item with
  | ok line => cases hitem
  | error error =>
    cases hitem
    exact hmem

end Listing

theorem firstFailure_iomem (size : PageSize) (items : List (Except SystemError String)) :
    Scan.firstFailure (items.filterMap (Source.Iomem.event? size)) =
      (Listing.firstFault items).map (.resourceUnavailable "iomem listing") := by
  induction items with
  | nil => rfl
  | cons item rest ih =>
    cases item with
    | error cause => rfl
    | ok line =>
      have hfault : Listing.firstFault (.ok line :: rest) = Listing.firstFault rest := rfl
      rw [hfault, ← ih, List.filterMap_cons]
      cases hevent : Source.Iomem.event? size (.ok line) with
      | none => rfl
      | some event =>
        -- A line gives a span or a notice, and neither is a failure.
        cases event with
        | span s => rfl
        | notice n => rfl
        | failure failure =>
          simp only [Source.Iomem.event?] at hevent
          repeat' split at hevent
          all_goals cases hevent

theorem Entry.ofLeading_bytes (entry : Entry) : Entry.ofLeading entry.bytes = .ok entry := by
  have hlength := entry.length_eq
  have htake : entry.bytes.take 8 = entry.bytes := List.take_of_length_le (by omega)
  rw [ofLeading, dif_pos (by omega)]
  simp only [htake]

namespace FileSystem

variable (files : FileSystem)

/-- The first of some files that cannot be opened, and why. -/
def firstClosed : List Path → Option (Path × SystemError)
  | [] => none
  | path :: rest =>
    match files.openFile path with
    | .ok _ => firstClosed rest
    | .error cause => some (path, cause)

def contents (path : Path) : Listing :=
  match files.openFile path with
  | .ok file => file.listing
  | .error _ => []

def entries (path : Path) : EntryTable where
  path := path
  read :=
    match files.openFile path with
    | .ok file => file.read
    | .error cause => fun _ _ => .error cause

theorem openFile_of_firstFault {path : Path} {cause : SystemError}
    (h : Listing.firstFault (files.contents path).lines = some cause) :
    ∃ file, files.openFile path = .ok file ∧ .error cause ∈ file.listing.lines := by
  unfold contents at h
  split at h
  next file hopen => exact ⟨file, hopen, Listing.mem_of_firstFault h⟩
  next => cases h

end FileSystem

namespace Survey

variable (files : FileSystem) (settings : Settings) (target : Target)

/-- The listings and tables that a survey needs, in the order in which they are opened. -/
def resources : Target → List Path
  | .process pid => [settings.path (mapsName pid), settings.path (pagemapName pid)]
  | .kernel => [settings.path iomemName, settings.path frameTableName]
  | .pageCache => [settings.path frameTableName]

/-- The listing that a survey goes through, and what it is called in failures. -/
def listing? : Target → Option (Path × String)
  | .process pid => some (settings.path (mapsName pid), "maps listing")
  | .kernel => some (settings.path iomemName, "iomem listing")
  | .pageCache => none

/-- The survey of a target whose listings and tables can all be opened. -/
def prepared : Target → Survey
  | .process pid => {
      size := settings.pageSize
      target := .process pid
      label := files.linkText (settings.path (executableName pid))
      table := files.entries (settings.path (pagemapName pid))
      policy := .resident settings.pageSize
      source := .maps settings (files.contents (settings.path (mapsName pid))) }
  | .kernel => {
      size := settings.pageSize
      target := .kernel
      label := "kernel"
      table := files.entries (settings.path frameTableName)
      policy := .all
      source := .iomem settings (files.contents (settings.path iomemName)) }
  | .pageCache => {
      size := settings.pageSize
      target := .pageCache
      label := "pagecache"
      table := files.entries (settings.path frameTableName)
      policy := .cache settings.filter
      source := .physical settings }

theorem prepare_eq :
    prepare files settings target =
      match files.firstClosed (resources settings target) with
      | some (path, cause) => .error (.resourceUnavailable path.display cause)
      | none => .ok (prepared files settings target) := by
  cases target with
  | process pid =>
    cases hmaps : files.openFile (settings.path (mapsName pid)) <;>
      cases hpagemap : files.openFile (settings.path (pagemapName pid)) <;>
      simp only [prepare, resources, prepared, FileSystem.firstClosed, FileSystem.listing,
        FileSystem.table, FileSystem.contents, FileSystem.entries, hmaps, hpagemap] <;>
      rfl
  | kernel =>
    cases hiomem : files.openFile (settings.path iomemName) <;>
      cases hframes : files.openFile (settings.path frameTableName) <;>
      simp only [prepare, resources, prepared, FileSystem.firstClosed, FileSystem.listing,
        FileSystem.table, FileSystem.contents, FileSystem.entries, hiomem, hframes] <;>
      rfl
  | pageCache =>
    cases hframes : files.openFile (settings.path frameTableName) <;>
      simp only [prepare, resources, prepared, FileSystem.firstClosed, FileSystem.table,
        FileSystem.entries, hframes] <;>
      rfl

/-- What the header says of a target beside its number. -/
def labelOf : Target → String
  | .process pid => files.linkText (settings.path (executableName pid))
  | .kernel => "kernel"
  | .pageCache => "pagecache"

theorem trace_prepared (earlier : Nat) :
    ((prepared files settings target).trace earlier).lines =
      .header target (labelOf files settings target) ::
        (Scan.sourceTrace settings.pageSize (prepared files settings target).table
          (prepared files settings target).policy earlier
          (prepared files settings target).source).lines := by
  cases target <;> rfl

theorem header_prefix_written (earlier : Nat) :
    Line.headerBytes target (encode (labelOf files settings target)) <+:
      ((prepared files settings target).written earlier).data.toList := by
  rw [Survey.written, trace_prepared, Line.toList_stream, List.flatMap_cons,
    Line.toList_bytes_header]
  exact List.prefix_append _ _

def listingFailure : Option Failure :=
  match listing? settings target with
  | none => none
  | some (path, what) =>
    (Listing.firstFault (files.contents path).lines).map (.resourceUnavailable what)

theorem ending_prepared :
    (prepared files settings target).ending =
      match listingFailure files settings target with
      | none => .ok ()
      | some failure => .error failure := by
  cases target with
  | process pid => rw [ending, prepared, Source.maps, Reference.firstFailure_maps]; rfl
  | kernel => rw [ending, prepared, Source.iomem, firstFailure_iomem]; rfl
  | pageCache => rfl

variable {files settings target}

theorem survey_of_closed {path : Path} {cause : SystemError}
    (h : files.firstClosed (resources settings target) = some (path, cause))
    (session : Session) :
    survey files settings target session =
      .error (.resourceUnavailable path.display cause) session := by
  rw [survey, prepare_eq, h]
  rfl

theorem survey_of_open (h : files.firstClosed (resources settings target) = none) :
    survey files settings target = (prepared files settings target).perform := by
  rw [survey, prepare_eq, h]
  rfl

/-- How a survey ends whose files can be opened: for lack of room, or as its listing does,
or as the last flush of its output. -/
def ends (room : Option Nat) (error : SystemError) (flushError : Option SystemError)
    (written : ByteArray) (listingFailure : Option Failure) : Except Failure Unit :=
  if Overflows room written then .error (.output error)
  else match listingFailure, flushError with
    | some failure, _ => .error failure
    | none, some cause => .error (.output cause)
    | none, none => .ok ()

theorem ends_eq_error {room : Option Nat} {error : SystemError}
    {flushError : Option SystemError} {written : ByteArray} {listingFailure : Option Failure}
    {failure : Failure} (h : ends room error flushError written listingFailure = .error failure) :
    (∃ cause, failure = .output cause ∧
      (Overflows room written ∧ cause = error ∨ flushError = some cause)) ∨
    listingFailure = some failure := by
  unfold ends at h
  split at h
  next hover =>
    cases h
    exact .inl ⟨error, rfl, .inl ⟨hover, rfl⟩⟩
  next =>
    split at h
    next listed _ =>
      cases h
      exact .inr rfl
    next cause =>
      cases h
      exact .inl ⟨cause, rfl, .inr rfl⟩
    next => cases h

theorem of_listingFailure {failure : Failure}
    (h : listingFailure files settings target = some failure) :
    ∃ path what file cause, listing? settings target = some (path, what) ∧
      files.openFile path = .ok file ∧ failure = .resourceUnavailable what cause ∧
      .error cause ∈ file.listing.lines ∧
      (.fault cause ∈ file.listing ∧ cause ≠ .interrupted ∨ cause = .notText) := by
  unfold listingFailure at h
  split at h
  next => cases h
  next path what hlisting =>
    obtain ⟨cause, hfault, rfl⟩ := Option.map_eq_some_iff.mp h
    obtain ⟨file, hopen, hmem⟩ := files.openFile_of_firstFault hfault
    have hfault := Listing.fault_of_mem_lines hmem
    exact ⟨path, what, file, cause, hlisting, hopen, rfl, hmem, hfault⟩

variable (files settings target)

/-- A survey opens what it needs before it does anything else. If a file cannot be opened,
the first such file is named in its failure, and nothing was written, read or noted. If all
can be opened, a sink takes what it has room for of `= <id> <label>`, a line feed and what
follows it, and the survey fails only if the sink does, or if its listing has an item that is
not a line; whatever its table answers, no decoder refuses it. -/
theorem survey_opens_before_writing (session : Session) :
    let x := survey files settings target
    let written := (x.final (session.into {})).sink.accepted
    (∀ path cause, files.firstClosed (resources settings target) = some (path, cause) →
      ∀ sink, x (session.into sink) =
        .error (.resourceUnavailable path.display cause) (session.into sink)) ∧
    (files.firstClosed (resources settings target) = none →
      Line.headerBytes target (encode (labelOf files settings target)) <+: written.data.toList ∧
      ∀ room error flushError,
        let start := session.into (.fresh room error flushError)
        (x.final start).sink.accepted = upTo room written ∧
        x.result start =
          ends room error flushError written (listingFailure files settings target) ∧
        ∀ failure, x.result start = .error failure →
          (∃ cause, failure = .output cause ∧
            (Overflows room written ∧ cause = error ∨ flushError = some cause)) ∨
          ∃ path what file cause, listing? settings target = some (path, what) ∧
            files.openFile path = .ok file ∧ failure = .resourceUnavailable what cause ∧
            .error cause ∈ file.listing.lines ∧
            (.fault cause ∈ file.listing ∧ cause ≠ .interrupted ∨ cause = .notText)) ∧
    ∀ entry : Entry,
      VirtualPage.decode entry.bytes = .ok ⟨entry.word⟩ ∧
        FrameFlags.decode entry.bytes = .ok ⟨entry.word⟩ := by
  intro x written
  refine ⟨?_, ?_, ?_⟩
  · intro path cause hclosed sink
    exact survey_of_closed hclosed (session.into sink)
  · intro hopen
    have hx : x = (prepared files settings target).perform := survey_of_open hopen
    have hwritten : written = (prepared files settings target).written session.probes.size := by
      have hfree := (prepared files settings target).perform_fresh none (.numbered 28) none
        session
      rw [← hx] at hfree
      exact hfree.2.1
    refine ⟨?_, ?_⟩
    · rw [hwritten]
      exact header_prefix_written files settings target session.probes.size
    · intro room error flushError start
      obtain ⟨hresult, haccepted, -⟩ := (prepared files settings target).perform_fresh room error
        flushError session
      rw [← hx, ← hwritten] at hresult haccepted
      have hends : x.result start =
          ends room error flushError written (listingFailure files settings target) := by
        rw [hresult, ending_prepared]
        unfold ends
        cases listingFailure files settings target <;> cases flushError <;> rfl
      refine ⟨haccepted, hends, ?_⟩
      intro failure hfailure
      rw [hends] at hfailure
      exact (ends_eq_error hfailure).imp_right of_listingFailure
  · intro entry
    rw [VirtualPage.decode, FrameFlags.decode, Entry.ofLeading_bytes]
    exact ⟨rfl, rfl⟩

def listingOnly : FileSystem where
  openFile path := if path = .ofText "/proc/7/maps" then .ok brokenFile else .error .noSuchEntry
  linkTarget _ := .error .noSuchEntry

/-- Without its table a process is not announced. With it the survey gets as far as the read
of the listing that fails, and that is its failure although the output cannot be flushed. Each
kind of target is announced with its number. -/
theorem survey_of_missing_table :
    let settings : Settings := { pageSize := ⟨0x1000, 12, rfl⟩, pageCount := 16 }
    let start (sink : Sink) := ({} : Session).into sink
    let output (target : Target) :=
      ((survey brokenFiles settings target).final (start {})).sink.accepted.data.toList
    (∀ sink, survey listingOnly settings (.process 7) (start sink) =
      .error (.resourceUnavailable "/proc/7/pagemap" .noSuchEntry) (start sink)) ∧
    (survey brokenFiles settings (.process 7)).result
        (start (.fresh none (.numbered 28) (some (.numbered 9)))) =
      .error (.resourceUnavailable "maps listing" (.numbered 5)) ∧
    encode "= 7 /bin/x\n" <+: output (.process 7) ∧
    encode "= 0 kernel\n" <+: output .kernel ∧
    encode "= -1 pagecache\n" <+: output .pageCache := by
  intro settings start output
  have hopen (target : Target) :
      brokenFiles.firstClosed (resources settings target) = none := by cases target <;> rfl
  have hheader (target : Target) {header : List UInt8} (h : Line.headerBytes target
      (encode (labelOf brokenFiles settings target)) = header) : header <+: output target :=
    h ▸ ((survey_opens_before_writing brokenFiles settings target {}).2.1 (hopen target)).1
  refine ⟨?_, ?_, hheader _ ?_, hheader _ ?_, hheader _ ?_⟩
  · intro sink
    have hclosed : listingOnly.firstClosed (resources settings (.process 7)) =
        some (.ofText "/proc/7/pagemap", .noSuchEntry) := by decide +kernel
    have hshown : (Path.ofText "/proc/7/pagemap").display = "/proc/7/pagemap" :=
      Text.Utf8.lossy_encode _
    have herror :=
      (survey_opens_before_writing listingOnly settings (.process 7) {}).1 _ _ hclosed sink
    rw [hshown] at herror
    exact herror
  · have hfailure : listingFailure brokenFiles settings (.process 7) =
        some (.resourceUnavailable "maps listing" (.numbered 5)) := by decide +kernel
    obtain ⟨-, hsinks⟩ :=
      (survey_opens_before_writing brokenFiles settings (.process 7) {}).2.1 (hopen _)
    obtain ⟨-, hresult, -⟩ := hsinks none (.numbered 28) (some (.numbered 9))
    rw [hresult, hfailure]
    exact if_neg (not_overflows_none _)
  · decide +kernel
  · decide +kernel
  · decide +kernel

end Survey

end FrameScan
