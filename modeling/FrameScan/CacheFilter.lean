import FrameScan.FrameFlags

/-!
# Page cache filters

Kernels differ in how they set the flags of cached file pages, so there is a
choice of three tests for them.
-/

namespace FrameScan

inductive CacheFilter where
  | mappedNotAnon
  | mappedToDisk
  | lruNotAnon
  deriving DecidableEq, Repr

namespace CacheFilter

instance : Inhabited CacheFilter := ⟨.mappedNotAnon⟩

def accepts (filter : CacheFilter) (flags : FrameFlags) : Bool :=
  match filter with
  | .mappedNotAnon => flags.has .mappedToDisk && !flags.has .anon
  | .mappedToDisk => flags.has .mappedToDisk
  | .lruNotAnon => flags.has .lru && !flags.has .anon

def name : CacheFilter → String
  | .mappedNotAnon => "mapped-not-anon"
  | .mappedToDisk => "mapped-to-disk"
  | .lruNotAnon => "lru-not-anon"

def all : List CacheFilter := [.mappedNotAnon, .mappedToDisk, .lruNotAnon]

def ofText (text : String) : Except Failure CacheFilter :=
  match all.find? (·.name == text) with
  | some filter => .ok filter
  | none => .error (.invalidArgument (.filter text))

end CacheFilter

end FrameScan
