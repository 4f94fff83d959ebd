import FrameScan.Environment
import FrameScan.Survey

/-!
# The command

One argument names the target. The lines go to the output; notices and the text
of a failure go to the messages.
-/

namespace FrameScan

/-- What the command finds on the machine it runs on. -/
structure Host where
  environment : Environment
  pageBytes : UInt64
  pageCount : UInt64
  files : FileSystem

structure Report where
  exitCode : Int
  output : ByteArray
  messages : String

/-- The exit code as far as the system keeps it: its last eight bits. -/
def Report.status (report : Report) : Nat :=
  report.exitCode.toNat % 256

namespace Command

open Session

def perform (host : Host) (program : String) (arguments : List String) : Action Unit := do
  let [argument] := arguments | throw (.invalidArgument (.usage program))
  let target ← require (Target.ofText argument)
  let settings ← require (host.environment.settings host.pageBytes host.pageCount)
  note (.settled settings)
  note (.started target)
  survey host.files settings target
  (← get).tally.summary.forM note
  note (.completed target)

def noticeLines (limit : Level) (notices : List Notice) : String :=
  String.join ((notices.filter fun notice => limit.admits notice.level).map fun notice =>
    s!"[{notice.level.name}] {notice.text}\n")

def failureLine (failure : Failure) : String :=
  if failure.isProcessNotFound then s!"No such process or listing: {failure.message}\n"
  else if failure.isPermissionDenied then
    s!"Permission denied (pagemap and kpageflags need root): {failure.message}\n"
  else s!"{failure.message}\n"

/-- Run the command. A bad log level is reported before the arguments are looked at. -/
def run (host : Host) (sink : Sink) (program : String) (arguments : List String) : Report :=
  match host.environment.logLevel with
  | .error failure => ⟨failure.exitCode, sink.accepted, failureLine failure⟩
  | .ok limit =>
    match (perform host program arguments).run { sink } with
    | .ok () session =>
      ⟨0, session.sink.accepted, noticeLines limit session.notices.toList⟩
    | .error failure session =>
      ⟨failure.exitCode, session.sink.accepted,
        noticeLines limit session.notices.toList ++ failureLine failure⟩

end Command

end FrameScan
