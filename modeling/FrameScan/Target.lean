import FrameScan.Failure

/-!
# Targets

What a survey looks at: the virtual pages of one process, or the physical pages
of the kernel image or of the page cache.
-/

namespace FrameScan

inductive Target where
  | process (pid : UInt32)
  | kernel
  | pageCache
  deriving DecidableEq, Repr

namespace Target

/-- The number on the header line. -/
def id : Target → Int
  | .process pid => pid.toNat
  | .kernel => 0
  | .pageCache => -1

def name : Target → String
  | .process pid => s!"process {pid.toNat}"
  | .kernel => "kernel"
  | .pageCache => "pagecache"

/-- A process number: decimal digits after an optional plus sign, below 2^32. -/
def pid? (text : String) : Option UInt32 :=
  let digits := match text.toList with
    | '+' :: digits => digits
    | digits => digits
  match Text.Numeral.value? 10 digits with
  | some n => if n < UInt32.size then some (UInt32.ofNat n) else none
  | none => none

def ofText (text : String) : Except Failure Target :=
  if text = "kernel" then .ok .kernel
  else if text = "pagecache" then .ok .pageCache
  else match pid? text with
    | some pid => .ok (.process pid)
    | none => .error (.invalidArgument (.target text))

theorem ofText_eq_error {text : String} {failure : Failure} (h : ofText text = .error failure) :
    failure = .invalidArgument (.target text) := by
  unfold ofText at h
  repeat' split at h
  all_goals cases h
  rfl

end Target

end FrameScan
