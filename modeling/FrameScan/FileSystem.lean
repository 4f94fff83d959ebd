import FrameScan.EntryTable
import FrameScan.Failure
import FrameScan.Listing

/-!
# File systems

All that is asked of a file system: to open a file, which can then be read as a
listing or at explicit offsets, and to tell the target of a symbolic link.
-/

namespace FrameScan

structure OpenFile where
  listing : Listing
  /-- The answer to a read of eight bytes at an offset, after a number of earlier reads. -/
  read : (earlier : Nat) → (offset : UInt64) → Except SystemError (List UInt8)

/-- Offsets in a file are signed words, and a read may not end past the last of them. -/
def OpenFile.reachable (offset : UInt64) : Bool :=
  offset.toNat + 8 < 0x8000000000000000

structure FileSystem where
  openFile : Path → Except SystemError OpenFile
  linkTarget : Path → Except SystemError Path

namespace FileSystem

variable (files : FileSystem)

def listing (path : Path) : Except Failure Listing :=
  match files.openFile path with
  | .ok file => .ok file.listing
  | .error cause => .error (.resourceUnavailable path.display cause)

def table (path : Path) : Except Failure EntryTable :=
  match files.openFile path with
  | .ok file => .ok ⟨path, file.read⟩
  | .error cause => .error (.resourceUnavailable path.display cause)

/-- The target of a link as text; nothing if it cannot be told. -/
def linkText (path : Path) : String :=
  match files.linkTarget path with
  | .ok target => target.display
  | .error _ => ""

end FileSystem

end FrameScan
