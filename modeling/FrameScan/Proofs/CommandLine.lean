import FrameScan.Command
import FrameScan.Proofs.Opening

/-!
# The command line

Before it opens anything the command makes four checks, and of those that fail it reports
the first, whatever the later ones would find. After them only its survey can fail, and of
its failures those of an open or of a listing have a number to end with.
`run_reports_first_failure` gives status, output and messages of every run, the messages
letter by letter.
-/

namespace FrameScan

open Text.Utf8 (encode)

namespace SystemError

/-- What is said before a file that cannot be opened or read is named. -/
def hint : SystemError → String
  | .numbered code =>
    if code = 2 ∨ code = 3 then "No such process or listing: "
    else if code = 1 ∨ code = 13 then "Permission denied (pagemap and kpageflags need root): "
    else ""
  | .described .notFound _ | .bare .notFound => "No such process or listing: "
  | .described .permissionDenied _ | .bare .permissionDenied =>
    "Permission denied (pagemap and kpageflags need root): "
  | _ => ""

def status (cause : SystemError) : Nat :=
  match cause.code? with
  | some code => if 0 < code then code.toNat else 1
  | none => 1

theorem status_pos (cause : SystemError) : 0 < cause.status := by
  unfold status
  split
  · split <;> omega
  · omega

theorem exitCode_resourceUnavailable (what : String) (cause : SystemError) :
    (Failure.resourceUnavailable what cause).exitCode = cause.status := by
  cases cause with
  | numbered code =>
    by_cases h : 0 < code
    · simp only [Failure.exitCode, status, code?, if_pos h]
      omega
    · simp only [Failure.exitCode, status, code?, if_neg h]
      rfl
  | described => rfl
  | bare => rfl

/-- An error whose number, if it has one, is below 256. -/
def Small (cause : SystemError) : Prop :=
  ∀ code, cause.code? = some code → code < 256

theorem Small.of_lt {code : Int} (h : code < 256) : (numbered code).Small := by
  intro code' hcode
  cases hcode
  exact h

theorem Small.status_lt {cause : SystemError} (h : cause.Small) : cause.status < 256 := by
  unfold status
  split
  next code hcode =>
    have hlt := h code hcode
    split <;> omega
  next => omega

end SystemError

namespace FileSystem

variable {files : FileSystem}

theorem openFile_of_firstClosed {paths : List Path} {path : Path} {cause : SystemError}
    (h : files.firstClosed paths = some (path, cause)) : files.openFile path = .error cause := by
  induction paths with
  | nil => cases h
  | cons first rest ih =>
    unfold firstClosed at h
    split at h
    next => exact ih h
    next hopen =>
      cases h
      exact hopen

/-- The errors with which files fail to open or to be read as listings have small numbers. -/
structure SmallErrors (files : FileSystem) : Prop where
  opening : ∀ {path cause}, files.openFile path = .error cause → cause.Small
  listing : ∀ {path file cause}, files.openFile path = .ok file →
    .fault cause ∈ file.listing → cause.Small

theorem SmallErrors.of_firstFault (h : files.SmallErrors) {path : Path} {file : OpenFile}
    {cause : SystemError} (hopen : files.openFile path = .ok file)
    (hfirst : Listing.firstFault file.listing.lines = some cause) : cause.Small := by
  rcases Listing.fault_of_mem_lines (Listing.mem_of_firstFault hfirst) with ⟨hfault, -⟩ | rfl
  · exact h.listing hopen hfault
  · intro code hcode
    cases hcode

end FileSystem

theorem Level.ofName?_eq_none_iff {text : String} :
    ofName? text = none ↔
      text.map Char.toUpper ∉ ["OFF", "ERROR", "WARN", "INFO", "DEBUG", "TRACE"] := by
  simp [ofName?, all, name, eq_comm (b := text.map Char.toUpper)]

theorem CacheFilter.ofText_eq_error_iff {text : String} {failure : Failure} :
    ofText text = .error failure ↔
      text ∉ ["mapped-not-anon", "mapped-to-disk", "lru-not-anon"] ∧
        failure = .invalidArgument (.filter text) := by
  have hnone : all.find? (·.name == text) = none ↔
      text ∉ ["mapped-not-anon", "mapped-to-disk", "lru-not-anon"] := by
    simp [all, name, eq_comm (b := text)]
  rw [← hnone, ofText]
  cases all.find? (·.name == text) <;> simp [eq_comm]

theorem CacheFilter.ofText_complains {text : String} {failure : Failure}
    (h : ofText text = .error failure) : ∃ complaint, failure = .invalidArgument complaint :=
  ⟨_, (ofText_eq_error_iff.mp h).2⟩

namespace Environment

variable (environment : Environment)

def procRoot : Path :=
  match environment procRootVariable with
  | some root => ⟨root⟩
  | none => .ofText "/proc"

def filter : Except Failure CacheFilter :=
  match environment.text? filterVariable with
  | some text => CacheFilter.ofText text
  | none => .ok default

theorem settings_of_size {pageBytes : UInt64} {size : PageSize}
    (h : PageSize.ofBytes pageBytes = .ok size) (pageCount : UInt64) :
    environment.settings pageBytes pageCount =
      match environment.filter with
      | .ok filter => .ok { pageSize := size, pageCount, procRoot := environment.procRoot, filter }
      | .error failure => .error failure := by
  unfold settings filter procRoot
  rw [h]
  cases environment.text? filterVariable with
  | none => cases environment procRootVariable <;> rfl
  | some text =>
    cases hfilter : CacheFilter.ofText text <;> cases environment procRootVariable <;>
      simp only [bind, Except.bind, pure, Except.pure, hfilter]

variable {environment} {failure : Failure}

theorem text?_eq_some_iff {name text : String} :
    environment.text? name = some text ↔ environment name = some (encode text) := by
  rw [text?, Option.bind_eq_some_iff]
  constructor
  · rintro ⟨value, hvalue, htext⟩
    rw [hvalue, Text.Utf8.encode_of_decode? htext]
  · intro hvalue
    exact ⟨_, hvalue, Text.Utf8.decode?_encode text⟩

theorem logLevel_eq_error_iff :
    environment.logLevel = .error failure ↔
      ∃ text, environment levelVariable = some (encode text) ∧ Level.ofName? text = none ∧
        failure = .invalidArgument (.level levelVariable text) := by
  simp only [← text?_eq_some_iff, logLevel]
  cases environment.text? levelVariable with
  | none => simp
  | some text => cases hname : Level.ofName? text <;> simp [hname, eq_comm]

theorem filter_eq_error_iff :
    environment.filter = .error failure ↔
      ∃ text, environment filterVariable = some (encode text) ∧
        CacheFilter.ofText text = .error failure := by
  simp only [← text?_eq_some_iff, filter]
  cases environment.text? filterVariable <;> simp

end Environment

theorem Target.ofText_complains {text : String} {failure : Failure}
    (h : ofText text = .error failure) : ∃ complaint, failure = .invalidArgument complaint :=
  ⟨_, ofText_eq_error h⟩

namespace Action

variable {α : Type} {x : Action α} {session : Session}

theorem ok_of_result {a : α} (h : x.result session = .ok a) : ∃ after, x session = .ok a after := by
  unfold result at h
  split at h
  next after hx =>
    cases h
    exact ⟨after, hx⟩
  next => cases h

theorem error_of_result {failure : Failure} (h : x.result session = .error failure) :
    ∃ after, x session = .error failure after := by
  unfold result at h
  split at h
  next => cases h
  next after hx =>
    cases h
    exact ⟨after, hx⟩

end Action

theorem Session.forM_note (notices : List Notice) (session : Session) :
    notices.forM note session =
      .ok () { session with notices := session.notices ++ notices.toArray } := by
  induction notices generalizing session with
  | nil => simp [List.forM, pure, EStateM.pure]
  | cons notice rest ih =>
    change (note notice >>= fun _ => rest.forM note) session = _
    rw [Action.bind_of_ok (note_apply session notice), ih]
    simp

namespace Survey

variable {files : FileSystem} {settings : Settings} {target : Target}
  (room : Option Nat) (error : SystemError) (flushError : Option SystemError)

theorem result_of_open (h : files.firstClosed (resources settings target) = none)
    (session : Session) :
    (survey files settings target).result (session.into (.fresh room error flushError)) =
      ends room error flushError
        ((prepared files settings target).written session.probes.size)
        (listingFailure files settings target) := by
  have hresult :=
    ((prepared files settings target).perform_fresh room error flushError session).1
  rw [survey_of_open h, hresult, ending_prepared]
  unfold ends
  cases listingFailure files settings target <;> cases flushError <;> rfl

theorem firstFault_of_listingFailure {failure : Failure}
    (h : listingFailure files settings target = some failure) :
    ∃ path what file cause, listing? settings target = some (path, what) ∧
      files.openFile path = .ok file ∧ Listing.firstFault file.listing.lines = some cause ∧
      failure = .resourceUnavailable what cause := by
  unfold listingFailure at h
  split at h
  next => cases h
  next path what hlisting =>
    obtain ⟨cause, hfault, rfl⟩ := Option.map_eq_some_iff.mp h
    obtain ⟨file, hopen, -⟩ := files.openFile_of_firstFault hfault
    rw [FileSystem.contents, hopen] at hfault
    exact ⟨path, what, file, cause, hlisting, hopen, hfault, rfl⟩

theorem result_of_size_probes (first second : Session)
    (h : first.probes.size = second.probes.size) :
    (survey files settings target).result (first.into (.fresh room error flushError)) =
      (survey files settings target).result (second.into (.fresh room error flushError)) := by
  cases hclosed : files.firstClosed (resources settings target) with
  | none => rw [result_of_open room error flushError hclosed, h,
      result_of_open room error flushError hclosed]
  | some closed =>
    obtain ⟨path, cause⟩ := closed
    rw [Action.result_of_error (survey_of_closed hclosed _),
      Action.result_of_error (survey_of_closed hclosed _)]

end Survey

namespace Command

open Session

section Checks

variable (host : Host) (program : String) (arguments : List String)

def failed? {α : Type} : Except Failure α → Option Failure
  | .ok _ => none
  | .error failure => some failure

theorem failed?_eq_none {α : Type} {x : Except Failure α} :
    failed? x = none ↔ ∃ a, x = .ok a := by
  cases x <;> simp [failed?]

theorem failed?_eq_some {α : Type} {x : Except Failure α} {failure : Failure} :
    failed? x = some failure ↔ x = .error failure := by
  cases x <;> simp [failed?]

/-- What each check finds, in the order in which they are made. None depends on another one. -/
def checks : List (Option Failure) :=
  [failed? host.environment.logLevel,
    if arguments.length = 1 then none else some (.invalidArgument (.usage program)),
    arguments.head?.bind fun argument => failed? (Target.ofText argument),
    failed? host.environment.filter]

def refusal? : Option Failure :=
  (checks host program arguments).findSome? id

/-- What a command line stands for that passes all checks. -/
structure Accepts (limit : Level) (target : Target) (filter : CacheFilter) : Prop where
  level : host.environment.logLevel = .ok limit
  argument : ∃ argument, arguments = [argument] ∧ Target.ofText argument = .ok target
  filter : host.environment.filter = .ok filter

def settingsOf (size : PageSize) (filter : CacheFilter) : Settings :=
  { pageSize := size, pageCount := host.pageCount, procRoot := host.environment.procRoot, filter }

variable {host program arguments}

theorem refusal?_eq_none_iff :
    refusal? host program arguments = none ↔
      ∃ limit target filter, Accepts host arguments limit target filter := by
  constructor
  · intro h
    simp only [refusal?, checks, List.findSome?_eq_none_iff, List.forall_mem_cons, id] at h
    obtain ⟨hlevel, hcount, htarget, hfilter, -⟩ := h
    obtain ⟨limit, hlevel⟩ := failed?_eq_none.mp hlevel
    obtain ⟨filter, hfilter⟩ := failed?_eq_none.mp hfilter
    have hone : arguments.length = 1 := by
      by_cases hone : arguments.length = 1
      · exact hone
      · rw [if_neg hone] at hcount
        cases hcount
    obtain ⟨argument, rfl⟩ := List.length_eq_one_iff.mp hone
    obtain ⟨target, htarget⟩ := failed?_eq_none.mp htarget
    exact ⟨limit, target, filter, hlevel, ⟨argument, rfl, htarget⟩, hfilter⟩
  · rintro ⟨limit, target, filter, hlevel, ⟨argument, rfl, htarget⟩, hfilter⟩
    simp [refusal?, checks, failed?, hlevel, htarget, hfilter]

theorem refusal_complains {failure : Failure} (h : refusal? host program arguments = some failure) :
    ∃ complaint, failure = .invalidArgument complaint := by
  obtain ⟨found, hmem, hfound⟩ := List.exists_of_findSome?_eq_some h
  cases hfound
  simp only [checks, List.mem_cons, List.not_mem_nil, or_false] at hmem
  rcases hmem with hlevel | hcount | htarget | hfilter
  · obtain ⟨text, -, -, hfailure⟩ :=
      Environment.logLevel_eq_error_iff.mp (failed?_eq_some.mp hlevel.symm)
    exact ⟨_, hfailure⟩
  · split at hcount
    · cases hcount
    · exact ⟨_, Option.some.inj hcount⟩
  · obtain ⟨argument, -, hargument⟩ := Option.bind_eq_some_iff.mp htarget.symm
    exact Target.ofText_complains (failed?_eq_some.mp hargument)
  · obtain ⟨text, -, htext⟩ :=
      Environment.filter_eq_error_iff.mp (failed?_eq_some.mp hfilter.symm)
    exact CacheFilter.ofText_complains htext

variable (host program arguments) in
/-- The messages with which a command line is refused: by the first check that fails, so the
checks before it pass. -/
inductive Refused : String → Prop
  | level {value : String} (hset : host.environment "VIRT2PHYS_LOG" = some (encode value))
      (hother : value.map Char.toUpper ∉ ["OFF", "ERROR", "WARN", "INFO", "DEBUG", "TRACE"]) :
      Refused ("VIRT2PHYS_LOG: bad log level '" ++ value ++ "'\n")
  | usage {limit : Level} (hlevel : host.environment.logLevel = .ok limit)
      (hcount : arguments.length ≠ 1) :
      Refused ("Usage: " ++ program ++ " <pid|kernel|pagecache>\n")
  | target {limit : Level} {argument : String} (hlevel : host.environment.logLevel = .ok limit)
      (hargument : arguments = [argument])
      (hother : ∀ target, Target.ofText argument ≠ .ok target) :
      Refused ("First argument must be a pid, 'kernel' or 'pagecache', not '" ++ argument ++ "'\n")
  | filter {limit : Level} {argument value : String} {target : Target}
      (hlevel : host.environment.logLevel = .ok limit) (hargument : arguments = [argument])
      (htarget : Target.ofText argument = .ok target)
      (hset : host.environment "VIRT2PHYS_PAGECACHE_FILTER" = some (encode value))
      (hother : value ∉ ["mapped-not-anon", "mapped-to-disk", "lru-not-anon"]) :
      Refused ("unknown page cache filter '" ++ value ++
        "' (expected mapped-not-anon, mapped-to-disk or lru-not-anon)\n")

theorem failureLine_level (value : String) :
    failureLine (.invalidArgument (.level Environment.levelVariable value)) =
      "VIRT2PHYS_LOG: bad log level '" ++ value ++ "'\n" := by
  have hstart : Environment.levelVariable ++ ": bad log level '" =
      "VIRT2PHYS_LOG: bad log level '" := by decide
  have hend : "'" ++ "\n" = "'\n" := by decide
  rw [← hstart, ← hend, ← String.append_assoc]
  rfl

theorem failureLine_usage (program : String) :
    failureLine (.invalidArgument (.usage program)) =
      "Usage: " ++ program ++ " <pid|kernel|pagecache>\n" := by
  have hend : " <pid|kernel|pagecache>" ++ "\n" = " <pid|kernel|pagecache>\n" := by decide
  rw [← hend, ← String.append_assoc]
  rfl

theorem failureLine_target (argument : String) :
    failureLine (.invalidArgument (.target argument)) =
      "First argument must be a pid, 'kernel' or 'pagecache', not '" ++ argument ++ "'\n" := by
  have hend : "'" ++ "\n" = "'\n" := by decide
  rw [← hend, ← String.append_assoc]
  rfl

theorem failureLine_filter (value : String) :
    failureLine (.invalidArgument (.filter value)) =
      "unknown page cache filter '" ++ value ++
        "' (expected mapped-not-anon, mapped-to-disk or lru-not-anon)\n" := by
  have hend : "' " ++ ("(expected mapped-not-anon, mapped-to-disk or lru-not-anon)" ++ "\n") =
      "' (expected mapped-not-anon, mapped-to-disk or lru-not-anon)\n" := by decide
  rw [← hend, ← String.append_assoc, ← String.append_assoc]
  rfl

theorem failureLine_resourceUnavailable (what : String) (cause : SystemError) :
    failureLine (.resourceUnavailable what cause) =
      cause.hint ++ "can't open " ++ what ++ ": " ++ cause.message ++ "\n" := by
  let failure := Failure.resourceUnavailable what cause
  have hmessage : failure.message = "can't open " ++ what ++ ": " ++ cause.message := rfl
  have hline : failureLine failure = cause.hint ++ failure.message ++ "\n" := by
    cases cause with
    | numbered code =>
      by_cases hfound : code = 2 ∨ code = 3
      · rcases hfound with rfl | rfl <;> rfl
      by_cases hdenied : code = 1 ∨ code = 13
      · rcases hdenied with rfl | rfl <;> rfl
      have hhint : (SystemError.numbered code).hint = "" := by
        rw [SystemError.hint, if_neg hfound, if_neg hdenied]
      have hprocess : failure.isProcessNotFound = false := by
        simpa [failure, Failure.isProcessNotFound, SystemError.isNotFound, SystemError.code?]
          using hfound
      have hpermission : failure.isPermissionDenied = false := by
        simpa [failure, Failure.isPermissionDenied, SystemError.isPermissionDenied] using hdenied
      rw [failureLine, hprocess, hpermission, hhint, String.empty_append]
      rfl
    | described kind text => cases kind <;> rfl
    | bare kind => cases kind <;> rfl
  rw [hline, hmessage]
  simp only [String.append_assoc]

theorem failureLine_output (cause : SystemError) :
    failureLine (.output cause) = "can't write output: " ++ cause.message ++ "\n" := rfl

theorem refusal?_of_refused {message : String} (h : Refused host program arguments message) :
    ∃ failure, refusal? host program arguments = some failure ∧
      failureLine failure = message := by
  cases h with
  | @level value hset hother =>
    have hlevel := Environment.logLevel_eq_error_iff.mpr
      ⟨value, hset, Level.ofName?_eq_none_iff.mpr hother, rfl⟩
    refine ⟨_, ?_, failureLine_level value⟩
    rw [refusal?, checks, hlevel]
    rfl
  | usage hlevel hcount =>
    exact ⟨_, by simp [refusal?, checks, failed?, hlevel, hcount], failureLine_usage program⟩
  | @target limit argument hlevel hargument hother =>
    subst hargument
    cases htarget : Target.ofText argument with
    | ok target => exact absurd htarget (hother target)
    | error failure =>
      obtain rfl := Target.ofText_eq_error htarget
      exact ⟨_, by simp [refusal?, checks, failed?, hlevel, htarget], failureLine_target argument⟩
  | @filter limit argument value target hlevel hargument htarget hset hother =>
    subst hargument
    have hfilter := Environment.filter_eq_error_iff.mpr
      ⟨value, hset, CacheFilter.ofText_eq_error_iff.mpr ⟨hother, rfl⟩⟩
    exact ⟨_, by simp [refusal?, checks, failed?, hlevel, htarget, hfilter],
      failureLine_filter value⟩

theorem exists_refused (h : ∀ limit target filter, ¬ Accepts host arguments limit target filter) :
    ∃ message, Refused host program arguments message := by
  cases hlevel : host.environment.logLevel with
  | error failure =>
    obtain ⟨value, hset, hname, -⟩ := Environment.logLevel_eq_error_iff.mp hlevel
    exact ⟨_, .level hset (Level.ofName?_eq_none_iff.mp hname)⟩
  | ok limit =>
    by_cases hcount : arguments.length = 1
    · obtain ⟨argument, rfl⟩ := List.length_eq_one_iff.mp hcount
      by_cases hother : ∀ target, Target.ofText argument ≠ .ok target
      · exact ⟨_, .target hlevel rfl hother⟩
      · obtain ⟨target, htarget⟩ := not_forall_not.mp hother
        cases hfilter : host.environment.filter with
        | ok filter =>
          exact absurd ⟨hlevel, ⟨argument, rfl, htarget⟩, hfilter⟩ (h limit target filter)
        | error failure =>
          obtain ⟨value, hset, hvalue⟩ := Environment.filter_eq_error_iff.mp hfilter
          have hother := (CacheFilter.ofText_eq_error_iff.mp hvalue).1
          exact ⟨_, .filter hlevel rfl htarget hset hother⟩
    · exact ⟨_, .usage hlevel hcount⟩

end Checks

section Runs

variable {host : Host} {size : PageSize} {program : String} {arguments : List String}
  {limit : Level} {target : Target} {filter : CacheFilter}

theorem perform_of_target_error {argument : String} {failure : Failure}
    (h : Target.ofText argument = .error failure) (session : Session) :
    perform host program [argument] session = .error failure session := by
  simp only [perform, h]
  rfl

theorem perform_of_filter_error (hsize : PageSize.ofBytes host.pageBytes = .ok size)
    {argument : String} {failure : Failure} (htarget : Target.ofText argument = .ok target)
    (hfilter : host.environment.filter = .error failure) (session : Session) :
    perform host program [argument] session = .error failure session := by
  simp only [perform, htarget, host.environment.settings_of_size hsize, hfilter]
  rfl

theorem perform_of_refusal (hsize : PageSize.ofBytes host.pageBytes = .ok size)
    (hlevel : host.environment.logLevel = .ok limit) {failure : Failure}
    (h : refusal? host program arguments = some failure) (session : Session) :
    perform host program arguments session = .error failure session := by
  simp only [refusal?, checks, hlevel, List.findSome?_cons, failed?, id] at h
  match arguments with
  | [] =>
    cases h
    rfl
  | _ :: _ :: _ =>
    have hfailure : .invalidArgument (.usage program) = failure := by simpa using h
    cases hfailure
    rfl
  | [argument] =>
    cases htarget : Target.ofText argument with
    | error first =>
      have hfirst : first = failure := by simpa [htarget] using h
      rw [perform_of_target_error htarget, hfirst]
    | ok target =>
      cases hfilter : host.environment.filter with
      | error first =>
        have hfirst : first = failure := by simpa [htarget, hfilter] using h
        rw [perform_of_filter_error hsize htarget hfilter, hfirst]
      | ok filter => simp [htarget, hfilter] at h

theorem run_of_refusal (hsize : PageSize.ofBytes host.pageBytes = .ok size) {failure : Failure}
    (h : refusal? host program arguments = some failure) (sink : Sink) :
    run host sink program arguments = ⟨failure.exitCode, sink.accepted, failureLine failure⟩ := by
  unfold run
  cases hlevel : host.environment.logLevel with
  | error first =>
    simp only [refusal?, checks, hlevel, List.findSome?_cons, failed?, id] at h
    cases h
    rfl
  | ok limit =>
    have hperform := perform_of_refusal hsize hlevel h { sink }
    simp only [EStateM.run, hperform]
    rfl

theorem report_of_refusal (hsize : PageSize.ofBytes host.pageBytes = .ok size) {failure : Failure}
    (h : refusal? host program arguments = some failure) (sink : Sink) :
    let report := run host sink program arguments
    report.status = 1 ∧ report.output = sink.accepted ∧ report.messages = failureLine failure := by
  intro report
  have hreport : report = _ := run_of_refusal hsize h sink
  obtain ⟨complaint, rfl⟩ := refusal_complains h
  rw [hreport]
  exact ⟨rfl, rfl, rfl⟩

def begun (settings : Settings) (target : Target) : Session :=
  { notices := #[.settled settings, .started target] }

theorem perform_of_accepts (hsize : PageSize.ofBytes host.pageBytes = .ok size)
    (h : Accepts host arguments limit target filter) (sink : Sink) :
    perform host program arguments { sink } =
      (survey host.files (settingsOf host size filter) target >>= fun _ => get >>= fun after =>
        after.tally.summary.forM note >>= fun _ => note (.completed target))
        ((begun (settingsOf host size filter) target).into sink) := by
  obtain ⟨argument, rfl, htarget⟩ := h.argument
  have hsettings : host.environment.settings host.pageBytes host.pageCount =
      .ok (settingsOf host size filter) := by
    rw [host.environment.settings_of_size hsize, h.filter]
    rfl
  simp only [perform, htarget, hsettings]
  rfl

theorem run_of_survey_ok (hsize : PageSize.ofBytes host.pageBytes = .ok size)
    (h : Accepts host arguments limit target filter) {sink : Sink} {after : Session}
    (hsurvey : survey host.files (settingsOf host size filter) target
      ((begun (settingsOf host size filter) target).into sink) = .ok () after) :
    (run host sink program arguments).exitCode = 0 := by
  have hget : (get : Action Session) after = .ok after after := rfl
  have hperform : perform host program arguments { sink } = _ :=
    perform_of_accepts hsize h sink
  rw [Action.bind_of_ok hsurvey, Action.bind_of_ok hget, Action.bind_of_ok (forM_note _ after),
    note_apply] at hperform
  simp only [run, h.level, EStateM.run, hperform]

theorem run_of_survey_error (hsize : PageSize.ofBytes host.pageBytes = .ok size)
    (h : Accepts host arguments limit target filter) {sink : Sink} {after : Session}
    {failure : Failure}
    (hsurvey : survey host.files (settingsOf host size filter) target
      ((begun (settingsOf host size filter) target).into sink) = .error failure after) :
    run host sink program arguments =
      ⟨failure.exitCode, after.sink.accepted,
        noticeLines limit after.notices.toList ++ failureLine failure⟩ := by
  have hperform : perform host program arguments { sink } = _ :=
    perform_of_accepts hsize h sink
  rw [Action.bind_of_error hsurvey] at hperform
  simp only [run, h.level, EStateM.run, hperform]

/-- What a report shows of a survey that failed: whether it could not open a file, could not
read its listing or could not write its output. The messages end with the failure. Before it
stand the notices that the log admits, of which an open that fails has only those of the
beginning. -/
inductive SurveyFailed (files : FileSystem) (settings : Settings) (target : Target)
    (limit : Level) (report : Report) : Failure → Prop
  | opening {path : Path} {cause : SystemError}
      (hclosed : files.firstClosed (Survey.resources settings target) = some (path, cause))
      (hempty : report.output = .empty) (hstatus : report.status = cause.status)
      (hmessages : report.messages = noticeLines limit [.settled settings, .started target] ++
        (cause.hint ++ "can't open " ++ path.display ++ ": " ++ cause.message ++ "\n")) :
      SurveyFailed files settings target limit report (.resourceUnavailable path.display cause)
  | listing {path : Path} {what : String} {file : OpenFile} {cause : SystemError}
      {notices : List Notice}
      (hopened : files.firstClosed (Survey.resources settings target) = none)
      (hlisted : Survey.listing? settings target = some (path, what))
      (hopen : files.openFile path = .ok file)
      (hfirst : Listing.firstFault file.listing.lines = some cause)
      (hstatus : report.status = cause.status)
      (hmessages : report.messages = noticeLines limit notices ++
        (cause.hint ++ "can't open " ++ what ++ ": " ++ cause.message ++ "\n")) :
      SurveyFailed files settings target limit report (.resourceUnavailable what cause)
  | output {cause : SystemError} {notices : List Notice}
      (hopened : files.firstClosed (Survey.resources settings target) = none)
      (hstatus : report.status = 1)
      (hmessages : report.messages = noticeLines limit notices ++
        ("can't write output: " ++ cause.message ++ "\n")) :
      SurveyFailed files settings target limit report (.output cause)

namespace SurveyFailed

variable {files : FileSystem} {settings : Settings} {report : Report} {failure : Failure}

theorem status_pos (h : SurveyFailed files settings target limit report failure) :
    0 < report.status := by
  cases h with
  | @opening _ cause _ _ hstatus _ => exact hstatus ▸ cause.status_pos
  | @listing _ _ _ cause _ _ _ _ _ hstatus _ => exact hstatus ▸ cause.status_pos
  | output _ hstatus _ => omega

theorem of_closed (h : SurveyFailed files settings target limit report failure) {path : Path}
    {cause : SystemError}
    (hclosed : files.firstClosed (Survey.resources settings target) = some (path, cause)) :
    report.output = .empty ∧ report.status = cause.status ∧
      report.messages = noticeLines limit [.settled settings, .started target] ++
        (cause.hint ++ "can't open " ++ path.display ++ ": " ++ cause.message ++ "\n") := by
  cases h with
  | opening hclosed' hempty hstatus hmessages =>
    rw [hclosed] at hclosed'
    cases hclosed'
    exact ⟨hempty, hstatus, hmessages⟩
  | listing hopened => exact nomatch hclosed.symm.trans hopened
  | output hopened => exact nomatch hclosed.symm.trans hopened

theorem of_opened (h : SurveyFailed files settings target limit report failure)
    (hopened : files.firstClosed (Survey.resources settings target) = none) :
    (∀ what cause, failure = .resourceUnavailable what cause →
      report.status = cause.status ∧ ∃ notices, report.messages = noticeLines limit notices ++
        (cause.hint ++ "can't open " ++ what ++ ": " ++ cause.message ++ "\n")) ∧
    ∀ cause, failure = .output cause →
      report.status = 1 ∧ ∃ notices, report.messages = noticeLines limit notices ++
        ("can't write output: " ++ cause.message ++ "\n") := by
  cases h with
  | opening hclosed => exact nomatch hclosed.symm.trans hopened
  | listing _ _ _ _ hstatus hmessages =>
    refine ⟨fun what cause hfailure => ?_, nofun⟩
    cases hfailure
    exact ⟨hstatus, _, hmessages⟩
  | output _ hstatus hmessages =>
    refine ⟨nofun, fun cause hfailure => ?_⟩
    cases hfailure
    exact ⟨hstatus, _, hmessages⟩

end SurveyFailed

theorem status_of_resourceUnavailable {report : Report} {what : String} {cause : SystemError}
    (hcode : report.exitCode = (Failure.resourceUnavailable what cause).exitCode)
    (hsmall : cause.Small) : report.status = cause.status := by
  rw [Report.status, hcode, SystemError.exitCode_resourceUnavailable, Int.toNat_natCast]
  exact Nat.mod_eq_of_lt hsmall.status_lt

variable (room : Option Nat) (error : SystemError) (flushError : Option SystemError)

theorem report_of_survey_error (hsize : PageSize.ofBytes host.pageBytes = .ok size)
    (hsmall : host.files.SmallErrors) (h : Accepts host arguments limit target filter)
    {failure : Failure} :
    let settings := settingsOf host size filter
    let sink := Sink.fresh room error flushError
    (survey host.files settings target).result (Session.into {} sink) = .error failure →
      SurveyFailed host.files settings target limit (run host sink program arguments) failure := by
  intro settings sink hresult
  let report := run host sink program arguments
  -- The session in which the command surveys has notices, and the result does not depend on them.
  let start := (begun settings target).into sink
  have hstart : (survey host.files settings target).result start = .error failure :=
    (Survey.result_of_size_probes room error flushError (begun settings target) {} rfl).trans
      hresult
  obtain ⟨after, hsurvey⟩ := Action.error_of_result hstart
  have hreport : report = _ := run_of_survey_error hsize h hsurvey
  have hcode : report.exitCode = failure.exitCode := by rw [hreport]
  have hmessages : report.messages =
      noticeLines limit after.notices.toList ++ failureLine failure := by rw [hreport]
  cases hclosed : host.files.firstClosed (Survey.resources settings target) with
  | some closed =>
    obtain ⟨path, cause⟩ := closed
    have hfailed : survey host.files settings target start = _ :=
      Survey.survey_of_closed hclosed start
    rw [hsurvey] at hfailed
    cases hfailed
    have hcause : cause.Small := hsmall.opening (FileSystem.openFile_of_firstClosed hclosed)
    rw [failureLine_resourceUnavailable] at hmessages
    refine .opening hclosed ?_ (status_of_resourceUnavailable hcode hcause) hmessages
    change report.output = .empty
    rw [hreport]
    rfl
  | none =>
    rw [Survey.result_of_open room error flushError hclosed] at hresult
    rcases Survey.ends_eq_error hresult with ⟨cause, rfl, -⟩ | hlisting
    · rw [failureLine_output] at hmessages
      refine .output hclosed ?_ hmessages
      change report.status = 1
      rw [Report.status, hcode]
      rfl
    · obtain ⟨path, what, file, cause, hlisted, hopen, hfirst, rfl⟩ :=
        Survey.firstFault_of_listingFailure hlisting
      have hcause : cause.Small := hsmall.of_firstFault hopen hfirst
      rw [failureLine_resourceUnavailable] at hmessages
      exact .listing hclosed hlisted hopen hfirst (status_of_resourceUnavailable hcode hcause)
        hmessages

theorem status_of_survey_ok (hsize : PageSize.ofBytes host.pageBytes = .ok size)
    (h : Accepts host arguments limit target filter) :
    let sink := Sink.fresh room error flushError
    (survey host.files (settingsOf host size filter) target).result (Session.into {} sink) =
      .ok () → (run host sink program arguments).status = 0 := by
  intro sink hresult
  have hstart := (Survey.result_of_size_probes room error flushError
    (begun (settingsOf host size filter) target) {} rfl).trans hresult
  obtain ⟨after, hsurvey⟩ := Action.ok_of_result hstart
  rw [Report.status, run_of_survey_ok hsize h hsurvey]
  rfl

/-- The status is 0 exactly if all checks pass and the survey succeeds. If not all pass, what
the first one finds that fails is all that is said, with status 1 and no output. A survey that
fails after them is reported as its failure, whose number the status is if it has one: no
output if it is of an open, and status 1 if it is of the output. -/
theorem run_reports_first_failure (host : Host) (hsize : PageSize.ofBytes host.pageBytes = .ok size)
    (hsmall : host.files.SmallErrors) (program : String) (arguments : List String) :
    let sink := Sink.fresh room error flushError
    let report := run host sink program arguments
    let surveyed (target : Target) (filter : CacheFilter) : Except Failure Unit :=
      (survey host.files (settingsOf host size filter) target).result (Session.into {} sink)
    (report.status = 0 ↔ ∃ limit target filter,
      Accepts host arguments limit target filter ∧ surveyed target filter = .ok ()) ∧
    ((∀ limit target filter, ¬ Accepts host arguments limit target filter) →
      ∃ message, Refused host program arguments message) ∧
    (∀ message, Refused host program arguments message →
      report.status = 1 ∧ report.output = .empty ∧ report.messages = message) ∧
    ∀ limit target filter failure, Accepts host arguments limit target filter →
      surveyed target filter = .error failure →
        SurveyFailed host.files (settingsOf host size filter) target limit report failure := by
  intro sink report surveyed
  refine ⟨⟨?_, ?_⟩, exists_refused, ?_, ?_⟩
  · intro hzero
    cases hrefusal : refusal? host program arguments with
    | some failure =>
      have hone : report.status = 1 := (report_of_refusal hsize hrefusal sink).1
      omega
    | none =>
      obtain ⟨limit, target, filter, haccepts⟩ := refusal?_eq_none_iff.mp hrefusal
      cases hresult : surveyed target filter with
      | ok => exact ⟨limit, target, filter, haccepts, hresult⟩
      | error failure =>
        have hpos : 0 < report.status :=
          (report_of_survey_error room error flushError hsize hsmall haccepts hresult).status_pos
        omega
  · rintro ⟨limit, target, filter, haccepts, hresult⟩
    exact status_of_survey_ok room error flushError hsize haccepts hresult
  · intro message hrefused
    obtain ⟨failure, hrefusal, rfl⟩ := refusal?_of_refused hrefused
    exact report_of_refusal hsize hrefusal sink
  · intro limit target filter failure haccepts hresult
    exact report_of_survey_error room error flushError hsize hsmall haccepts hresult

end Runs

section Examples

open Survey (brokenFile brokenFiles listingOnly)

theorem small_of_mem_brokenFile {cause : SystemError} (h : .fault cause ∈ brokenFile.listing) :
    cause.Small := by
  have hcause : cause = .numbered 5 := by simpa [brokenFile] using h
  rw [hcause]
  exact .of_lt (by decide)

theorem smallErrors_brokenFiles : brokenFiles.SmallErrors where
  opening h := nomatch h
  listing := by
    intro path file cause hopen hfault
    cases hopen
    exact small_of_mem_brokenFile hfault

theorem smallErrors_listingOnly : listingOnly.SmallErrors where
  opening := by
    intro path cause hopen
    simp only [listingOnly] at hopen
    split at hopen
    · cases hopen
    · cases hopen
      exact .of_lt (by decide)
  listing := by
    intro path file cause hopen hfault
    simp only [listingOnly] at hopen
    split at hopen
    · cases hopen
      exact small_of_mem_brokenFile hfault
    · cases hopen

theorem result_process_brokenFiles (settings : Settings) (pid : UInt32) :
    (survey brokenFiles settings (.process pid)).result (Session.into {} {}) =
      .error (.resourceUnavailable "maps listing" (.numbered 5)) := by
  have hfirst : Listing.firstFault brokenFile.listing.lines = some (.numbered 5) := by
    decide +kernel
  have hlisting : Survey.listingFailure brokenFiles settings (.process pid) =
      some (.resourceUnavailable "maps listing" (.numbered 5)) :=
    congrArg (Option.map (Failure.resourceUnavailable "maps listing")) hfirst
  refine (Survey.result_of_open none (.numbered 28) none rfl {}).trans ?_
  rw [hlisting]
  exact if_neg (not_overflows_none _)

theorem result_pageCache_brokenFiles (settings : Settings) :
    (survey brokenFiles settings .pageCache).result (Session.into {} {}) = .ok () :=
  (Survey.result_of_open none (.numbered 28) none rfl {}).trans (if_neg (not_overflows_none _))

theorem result_pageCache_full (settings : Settings) :
    (survey brokenFiles settings .pageCache).result
        (Session.into {} (.fresh (some 3) (.numbered 28) none)) =
      .error (.output (.numbered 28)) := by
  let written := (Survey.prepared brokenFiles settings .pageCache).written 0
  have hheader := (Survey.header_prefix_written brokenFiles settings .pageCache 0).length_le
  have hlength : (Line.headerBytes .pageCache (encode "pagecache")).length = 15 := by
    decide +kernel
  have hsize : written.data.toList.length = written.size := Array.length_toList
  have hover : 3 < written.size := by
    rw [← hsize]
    exact Nat.lt_of_lt_of_le (by decide) (hlength ▸ hheader)
  exact (Survey.result_of_open (some 3) (.numbered 28) none rfl {}).trans
    (if_pos ⟨3, rfl, hover⟩)

/-- With every variable set to a name that none of them knows, and no argument, the log level
is what is complained of. A process without a table ends with the number of its open, one
whose listing breaks with that of the read, and frames need no listing, but an output. -/
theorem runs_on_broken_files :
    let size : PageSize := ⟨0x1000, 12, rfl⟩
    let unset : Environment := fun _ => none
    let unknown : Environment := fun _ => some [0x78]
    let host (environment : Environment) (files : FileSystem) : Host :=
      ⟨environment, size.bytes, 16, files⟩
    let full : Sink := .fresh (some 3) (.numbered 28) none
    let refused := run (host unknown brokenFiles) {} "frames" []
    let unused := run (host unset brokenFiles) {} "frames" []
    let closed := run (host unset listingOnly) {} "frames" ["7"]
    let unread := run (host unset brokenFiles) {} "frames" ["7"]
    let unwritten := run (host unset brokenFiles) full "frames" ["pagecache"]
    PageSize.ofBytes size.bytes = .ok size ∧ brokenFiles.SmallErrors ∧ listingOnly.SmallErrors ∧
      (refused.status = 1 ∧ refused.output = .empty ∧
        refused.messages = "VIRT2PHYS_LOG: bad log level 'x'\n") ∧
      (unused.status = 1 ∧ unused.output = .empty ∧
        unused.messages = "Usage: frames <pid|kernel|pagecache>\n") ∧
      (closed.status = 2 ∧ closed.output = .empty ∧
        closed.messages = "No such process or listing: " ++
          "can't open /proc/7/pagemap: No such file or directory (os error 2)\n") ∧
      (unread.status = 5 ∧ ∃ logged, unread.messages =
        logged ++ "can't open maps listing: Input/output error (os error 5)\n") ∧
      (unwritten.status = 1 ∧ ∃ logged, unwritten.messages =
        logged ++ "can't write output: No space left on device (os error 28)\n") ∧
      (run (host unset brokenFiles) {} "frames" ["pagecache"]).status = 0 := by
  intro size unset unknown host full refused unused closed unread unwritten
  let settings : Settings := settingsOf (host unset brokenFiles) size default
  have hsize : PageSize.ofBytes size.bytes = .ok size := dif_pos size.isPowerOfTwo
  have hpid : Target.ofText "7" = .ok (.process 7) := by
    have hnumber : Target.pid? "7" = some 7 := by decide +kernel
    simp [Target.ofText, hnumber]
  have hcache : Target.ofText "pagecache" = .ok .pageCache := by simp [Target.ofText]
  have haccepts (files : FileSystem) {text : String} {target : Target}
      (h : Target.ofText text = .ok target) :
      Accepts (host unset files) [text] .warn target default := ⟨rfl, ⟨text, rfl, h⟩, rfl⟩
  obtain ⟨-, -, hrefused, -⟩ := run_reports_first_failure none (.numbered 28) none
    (host unknown brokenFiles) hsize smallErrors_brokenFiles "frames" []
  obtain ⟨-, -, hunused, -⟩ := run_reports_first_failure none (.numbered 28) none
    (host unset brokenFiles) hsize smallErrors_brokenFiles "frames" []
  obtain ⟨-, -, -, hclosed⟩ := run_reports_first_failure none (.numbered 28) none
    (host unset listingOnly) hsize smallErrors_listingOnly "frames" ["7"]
  obtain ⟨-, -, -, hbroken⟩ := run_reports_first_failure none (.numbered 28) none
    (host unset brokenFiles) hsize smallErrors_brokenFiles "frames" ["7"]
  obtain ⟨-, -, -, hfull⟩ := run_reports_first_failure (some 3) (.numbered 28) none
    (host unset brokenFiles) hsize smallErrors_brokenFiles "frames" ["pagecache"]
  obtain ⟨hcached, -, -, -⟩ := run_reports_first_failure none (.numbered 28) none
    (host unset brokenFiles) hsize smallErrors_brokenFiles "frames" ["pagecache"]
  have hmissing : listingOnly.firstClosed (Survey.resources settings (.process 7)) =
      some (.ofText "/proc/7/pagemap", .noSuchEntry) := by decide +kernel
  have hmissed := (hclosed .warn (.process 7) default _ (haccepts listingOnly hpid)
    (Action.result_of_error (Survey.survey_of_closed hmissing _))).of_closed hmissing
  obtain ⟨hunread, -⟩ := (hbroken .warn (.process 7) default _ (haccepts brokenFiles hpid)
    (result_process_brokenFiles settings 7)).of_opened rfl
  obtain ⟨-, hunwritten⟩ := (hfull .warn .pageCache default _ (haccepts brokenFiles hcache)
    (result_pageCache_full settings)).of_opened rfl
  have hzero := hcached.mpr ⟨.warn, .pageCache, default, haccepts brokenFiles hcache,
    result_pageCache_brokenFiles settings⟩
  refine ⟨hsize, smallErrors_brokenFiles, smallErrors_listingOnly, ?_, ?_, ?_, ?_, ?_, hzero⟩
  · have hunknown : (host unknown brokenFiles).environment "VIRT2PHYS_LOG" =
        some (encode "x") := by decide +kernel
    exact hrefused _ (.level hunknown (by decide +kernel))
  · have hlevel : (host unset brokenFiles).environment.logLevel = .ok .warn := rfl
    exact hunused _ (.usage hlevel (by decide))
  · obtain ⟨hempty, hstatus, hmessages⟩ := hmissed
    exact ⟨hstatus, hempty, hmessages.trans (by decide +kernel)⟩
  · obtain ⟨hstatus, notices, hmessages⟩ := hunread _ _ rfl
    exact ⟨hstatus, noticeLines .warn notices, hmessages.trans (congrArg _ (by decide +kernel))⟩
  · obtain ⟨hstatus, notices, hmessages⟩ := hunwritten _ rfl
    exact ⟨hstatus, noticeLines .warn notices, hmessages.trans (congrArg _ (by decide +kernel))⟩

end Examples

end Command

end FrameScan
