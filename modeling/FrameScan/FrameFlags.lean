import FrameScan.Entry

/-!
# Physical frame entries

What the table of physical frames says of one frame: a set of flags, of which
some bits have a name. Bits without a name are kept.
-/

namespace FrameScan

structure Flag where
  name : String
  bit : Nat
  deriving DecidableEq, Repr

namespace Flag

def lru : Flag := ⟨"LRU", 5⟩
def anon : Flag := ⟨"ANON", 12⟩
def mappedToDisk : Flag := ⟨"MAPPEDTODISK", 34⟩

/-- The flags that have a name, by ascending bit. -/
def declared : List Flag :=
  [⟨"LOCKED", 0⟩, ⟨"ERROR", 1⟩, ⟨"REFERENCED", 2⟩, ⟨"UPTODATE", 3⟩, ⟨"DIRTY", 4⟩, lru,
   ⟨"ACTIVE", 6⟩, ⟨"SLAB", 7⟩, ⟨"WRITEBACK", 8⟩, ⟨"RECLAIM", 9⟩, ⟨"BUDDY", 10⟩, ⟨"MMAP", 11⟩,
   anon, ⟨"SWAPCACHE", 13⟩, ⟨"SWAPBACKED", 14⟩, ⟨"COMPOUND_HEAD", 15⟩, ⟨"COMPOUND_TAIL", 16⟩,
   ⟨"HUGE", 17⟩, ⟨"UNEVICTABLE", 18⟩, ⟨"HWPOISON", 19⟩, ⟨"NOPAGE", 20⟩, ⟨"KSM", 21⟩,
   ⟨"THP", 22⟩, ⟨"OFFLINE", 23⟩, ⟨"ZERO_PAGE", 24⟩, ⟨"IDLE", 25⟩, ⟨"PGTABLE", 26⟩,
   ⟨"RESERVED", 32⟩, ⟨"MLOCKED", 33⟩, mappedToDisk, ⟨"PRIVATE", 35⟩, ⟨"PRIVATE_2", 36⟩,
   ⟨"OWNER_PRIVATE", 37⟩, ⟨"ARCH", 38⟩, ⟨"UNCACHED", 39⟩, ⟨"SOFTDIRTY", 40⟩, ⟨"ARCH_2", 41⟩]

end Flag

structure FrameFlags where
  word : UInt64
  deriving DecidableEq, Repr

namespace FrameFlags

def decode (bytes : List UInt8) : Except Failure FrameFlags :=
  (Entry.ofLeading bytes).map fun entry => ⟨entry.word⟩

def has (flags : FrameFlags) (flag : Flag) : Bool :=
  Word.bit flags.word flag.bit

/-- The names of the declared flags that are set, by ascending bit. -/
def names (flags : FrameFlags) : List String :=
  (Flag.declared.filter flags.has).map Flag.name

end FrameFlags

end FrameScan
