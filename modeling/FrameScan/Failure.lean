import FrameScan.SystemError
import FrameScan.Text.Numeral

/-!
# Failures

Why a scan or the command gives up, the message it gives, and the status the
command then ends with.
-/

namespace FrameScan

/-- What is wrong with an argument or a setting. -/
inductive Complaint where
  | target (text : String)
  | filter (text : String)
  | level (setting text : String)
  | pageSize (bytes : UInt64)
  | usage (program : String)
  | other (text : String)
  deriving DecidableEq, Repr

def Complaint.message : Complaint → String
  | .target text => s!"First argument must be a pid, 'kernel' or 'pagecache', not '{text}'"
  | .filter text =>
    s!"unknown page cache filter '{text}' " ++
      "(expected mapped-not-anon, mapped-to-disk or lru-not-anon)"
  | .level setting text => s!"{setting}: bad log level '{text}'"
  | .pageSize bytes => s!"page size {bytes.toNat} is not a power of two"
  | .usage program => s!"Usage: {program} <pid|kernel|pagecache>"
  | .other text => text

/-- A malformed entry has an offset and a cause when it comes from a table whose
read failed, and neither when a decoder is handed too few bytes. -/
inductive Failure where
  | invalidArgument (complaint : Complaint)
  | resourceUnavailable (what : String) (cause : SystemError)
  | malformedEntry (offset : Option UInt64) (length : Nat) (cause : Option SystemError)
  | output (cause : SystemError)
  deriving DecidableEq, Repr

namespace Failure

def message : Failure → String
  | .invalidArgument complaint => complaint.message
  | .resourceUnavailable what cause => s!"can't open {what}: {cause.message}"
  | .malformedEntry offset length cause =>
    s!"malformed record: {length} of 8 bytes"
      ++ (match offset with
        | some offset => s!" at offset {Text.Numeral.hex offset.toNat}"
        | none => "")
      ++ (match cause with
        | some cause => s!": {cause.message}"
        | none => "")
  | .output cause => s!"can't write output: {cause.message}"

def cause? : Failure → Option SystemError
  | .invalidArgument _ => none
  | .resourceUnavailable _ cause => some cause
  | .malformedEntry _ _ cause => cause
  | .output cause => some cause

/-- A missing path, or error number 3: the process went away. -/
def isProcessNotFound : Failure → Bool
  | .resourceUnavailable _ cause => cause.isNotFound || cause.code? == some 3
  | _ => false

def isPermissionDenied : Failure → Bool
  | .resourceUnavailable _ cause => cause.isPermissionDenied
  | _ => false

/-- The number of the system error behind an open that failed, if it is positive; otherwise 1. -/
def exitCode : Failure → Int
  | .resourceUnavailable _ (.numbered code) => if 0 < code then code else 1
  | _ => 1

end Failure

end FrameScan
