/-!
# Little-endian words

Each page is described by one 64-bit word, stored least significant byte first.
-/

namespace FrameScan.Word

/-- The value of a byte sequence, least significant byte first, reduced to 64 bits. -/
def ofBytes (bytes : List UInt8) : UInt64 :=
  UInt64.ofNat (bytes.foldr (fun b rest => b.toNat + 256 * rest) 0)

def toBytes (word : UInt64) : List UInt8 :=
  (List.range 8).map fun i => UInt8.ofNat (word.toNat >>> (8 * i))

def bit (word : UInt64) (n : Nat) : Bool :=
  word.toNat.testBit n

end FrameScan.Word
