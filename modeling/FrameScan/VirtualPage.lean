import FrameScan.Entry

/-!
# Virtual pages

What a process's table says of one virtual page: bits 0 to 54 are the frame
number, or swap area and swap offset; bits 55 to 57 and 61 to 63 are flags;
bits 58 to 60 are reserved.
-/

namespace FrameScan

structure VirtualPage where
  word : UInt64
  deriving DecidableEq, Repr

/-- Where a page lies in swap: the number of the swap area, and the place in it. -/
structure SwapSlot where
  area : UInt64
  offset : UInt64
  deriving DecidableEq, Repr

namespace VirtualPage

/-- The low 55 bits. -/
def frameMask : UInt64 := 0x7FFFFFFFFFFFFF

/-- The low 5 bits. -/
def areaMask : UInt64 := 0x1F

def decode (bytes : List UInt8) : Except Failure VirtualPage :=
  (Entry.ofLeading bytes).map fun entry => ⟨entry.word⟩

variable (page : VirtualPage)

def frame : UInt64 := page.word &&& frameMask
def softDirty : Bool := Word.bit page.word 55
def exclusive : Bool := Word.bit page.word 56
def writeProtected : Bool := Word.bit page.word 57
def fileShared : Bool := Word.bit page.word 61
def swapped : Bool := Word.bit page.word 62
def present : Bool := Word.bit page.word 63

/-- The address of the frame, modulo 2^64. It says something of a present page only. -/
def physicalAddress (pageBytes : UInt64) : UInt64 :=
  page.frame * pageBytes

/-- The frame number of a page that is swapped out, read as a place in swap. -/
def swapSlot? : Option SwapSlot :=
  if page.swapped then some ⟨page.frame &&& areaMask, page.frame >>> 5⟩ else none

end VirtualPage

end FrameScan
