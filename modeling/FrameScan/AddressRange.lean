import FrameScan.Text.Numeral

/-!
# Address ranges

Two hexadecimal addresses with a hyphen between them, at the beginning of a
line. Each address may have `0x` before it, and each of the three parts may have
blanks before it. What follows the second address is left alone.
-/

namespace FrameScan

structure AddressRange where
  first : UInt64
  last : UInt64
  deriving DecidableEq, Repr

namespace AddressRange

/-- The text after an optional `0x`. -/
def afterMark : List Char → List Char
  | '0' :: 'x' :: rest => rest
  | text => text

/-- The address that a text begins with, of as many digits as there are, and the rest. -/
def address? (text : List Char) : Option (UInt64 × List Char) :=
  let digits := (afterMark text).takeWhile Text.Numeral.isHexDigit
  match Text.Numeral.value? 16 digits with
  | some n =>
    if n < UInt64.size then some (UInt64.ofNat n, (afterMark text).dropWhile Text.Numeral.isHexDigit)
    else none
  | none => none

def skipBlanks (text : List Char) : List Char :=
  text.dropWhile Char.isWhitespace

def ofLeading? (text : List Char) : Option AddressRange :=
  match address? (skipBlanks text) with
  | none => none
  | some (first, rest) =>
    match skipBlanks rest with
    | '-' :: rest => (address? (skipBlanks rest)).map fun (last, _) => ⟨first, last⟩
    | _ => none

end AddressRange

end FrameScan
