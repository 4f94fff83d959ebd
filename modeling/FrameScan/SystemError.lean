import FrameScan.SystemError.Wording

/-!
# Errors of the system below

What a read, a write or an open reports when it fails: a numbered error of the
operating system, or one that arose above it and has a kind and perhaps a text
of its own.
-/

namespace FrameScan

namespace SystemError

inductive Kind where
  | notFound
  | permissionDenied
  | unsupported
  | invalidData
  | invalidInput
  | unexpectedEnd
  | brokenPipe
  | writeZero
  | other
  deriving DecidableEq, Repr

def Kind.text : Kind → String
  | .notFound => "entity not found"
  | .permissionDenied => "permission denied"
  | .unsupported => "unsupported"
  | .invalidData => "invalid data"
  | .invalidInput => "invalid input parameter"
  | .unexpectedEnd => "unexpected end of file"
  | .brokenPipe => "broken pipe"
  | .writeZero => "write zero"
  | .other => "other error"

end SystemError

inductive SystemError where
  | numbered (code : Int)
  | described (kind : SystemError.Kind) (text : String)
  | bare (kind : SystemError.Kind)
  deriving DecidableEq, Repr

namespace SystemError

def noSuchEntry : SystemError := .numbered 2
def interrupted : SystemError := .numbered 4
def fileExists : SystemError := .numbered 17
def notDirectory : SystemError := .numbered 20
def isDirectory : SystemError := .numbered 21
def invalidArgument : SystemError := .numbered 22
def nameTooLong : SystemError := .numbered 36
def tooManyLinks : SystemError := .numbered 40
def nulInPath : SystemError := .described .invalidInput "file name contained an unexpected NUL byte"
def notText : SystemError := .described .invalidData "stream did not contain valid UTF-8"
def nothingWritten : SystemError := .described .writeZero "failed to write whole buffer"

def message : SystemError → String
  | .numbered code => s!"{wording code} (os error {code})"
  | .described _ text => text
  | .bare kind => kind.text

/-- The number, of an error that has one. -/
def code? : SystemError → Option Int
  | .numbered code => some code
  | _ => none

def isNotFound : SystemError → Bool
  | .numbered code => code == 2
  | .described kind _ => kind == .notFound
  | .bare kind => kind == .notFound

def isPermissionDenied : SystemError → Bool
  | .numbered code => code == 1 || code == 13
  | .described kind _ => kind == .permissionDenied
  | .bare kind => kind == .permissionDenied

end SystemError

end FrameScan
