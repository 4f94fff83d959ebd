/-!
# Numerals

Reading of digit strings in bases up to sixteen, and the two hexadecimal
spellings of the output: the shortest one, and the one of sixteen digits.
-/

namespace FrameScan.Text.Numeral

/-- The value of an ASCII digit, letters of either case standing for ten to fifteen. -/
def digit? (base : Nat) (c : Char) : Option Nat :=
  if '0' ≤ c ∧ c ≤ '9' then below (c.toNat - '0'.toNat)
  else if 'a' ≤ c ∧ c ≤ 'f' then below (c.toNat - 'a'.toNat + 10)
  else if 'A' ≤ c ∧ c ≤ 'F' then below (c.toNat - 'A'.toNat + 10)
  else none
where
  below (value : Nat) : Option Nat := if value < base then some value else none

/-- The value of a non-empty digit string; any number of leading zeros is allowed. -/
def value? (base : Nat) : List Char → Option Nat
  | [] => none
  | digits => digits.foldlM (fun n c => (digit? base c).map (base * n + ·)) 0

def isHexDigit (c : Char) : Bool :=
  (digit? 16 c).isSome

/-- The lower-case hexadecimal spelling without leading zeros. -/
def hex (n : Nat) : String :=
  "0x" ++ String.ofList (Nat.toDigits 16 n)

/-- The lower-case hexadecimal spelling with sixteen digits. -/
def paddedHex (word : UInt64) : String :=
  "0x" ++ String.ofList ((Nat.toDigits 16 word.toNat).leftpad 16 '0')

end FrameScan.Text.Numeral
