import FrameScan.Text.Utf8

/-!
# Paths

A path is a sequence of bytes with slashes in it. It need not be text.
-/

namespace FrameScan

structure Path where
  bytes : List UInt8
  deriving DecidableEq, Repr

namespace Path

def slash : UInt8 := 0x2F

def ofText (text : String) : Path :=
  ⟨Text.Utf8.encode text⟩

/-- The path as it is shown in messages. -/
def display (path : Path) : String :=
  Text.Utf8.lossy path.bytes

def isAbsolute (path : Path) : Bool :=
  path.bytes.head? == some slash

/-- One path followed from another: an absolute one stands for itself. -/
def join (base further : Path) : Path :=
  if further.isAbsolute || base.bytes.isEmpty then further
  else if base.bytes.getLast? == some slash then ⟨base.bytes ++ further.bytes⟩
  else ⟨base.bytes ++ slash :: further.bytes⟩

end Path

end FrameScan
