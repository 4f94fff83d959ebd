/-!
# Log levels

A notice has a level, and the log has a limit: it shows the notices up to its
limit, and none at all if the limit is `off`.
-/

namespace FrameScan

inductive Level where
  | off
  | error
  | warn
  | info
  | debug
  | trace
  deriving DecidableEq, Repr

namespace Level

def all : List Level := [.off, .error, .warn, .info, .debug, .trace]

def name : Level → String
  | .off => "OFF"
  | .error => "ERROR"
  | .warn => "WARN"
  | .info => "INFO"
  | .debug => "DEBUG"
  | .trace => "TRACE"

/-- The level of a name in ASCII letters of either case. -/
def ofName? (text : String) : Option Level :=
  all.find? (·.name == text.map Char.toUpper)

def rank : Level → Nat
  | .off => 0
  | .error => 1
  | .warn => 2
  | .info => 3
  | .debug => 4
  | .trace => 5

/-- Whether a log with this limit shows notices of the given level. -/
def admits (limit level : Level) : Bool :=
  level.rank ≤ limit.rank

end Level

end FrameScan
