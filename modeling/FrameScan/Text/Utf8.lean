/-!
# Bytes as text

`decode?` refuses bytes that are not UTF-8. `lossy` accepts all bytes: each
maximal piece of a character that is cut short, and each byte that belongs to
no character, becomes one replacement character.
-/

namespace FrameScan.Text.Utf8

def encode (text : String) : List UInt8 :=
  text.toByteArray.data.toList

def decode? (bytes : List UInt8) : Option String :=
  String.fromUTF8? bytes.toByteArray

def replacement : Char := '\uFFFD'

/-- How far a character has been read: nothing of it yet, or its leading bits with
the bounds of the next byte and the number of bytes after that one. -/
inductive Progress where
  | fresh
  | within (value : Nat) (low high : UInt8) (more : Nat)

/-- What a byte of 0x80 and above begins. The bounds of the second byte keep out
overlong spellings, surrogates and values past the last code point. -/
def Progress.ofLead? (b : UInt8) : Option Progress :=
  if 0xC2 ≤ b ∧ b ≤ 0xDF then some (.within (b.toNat - 0xC0) 0x80 0xBF 0)
  else if b = 0xE0 then some (.within 0 0xA0 0xBF 1)
  else if b = 0xED then some (.within 0xD 0x80 0x9F 1)
  else if 0xE1 ≤ b ∧ b ≤ 0xEF then some (.within (b.toNat - 0xE0) 0x80 0xBF 1)
  else if b = 0xF0 then some (.within 0 0x90 0xBF 2)
  else if 0xF1 ≤ b ∧ b ≤ 0xF3 then some (.within (b.toNat - 0xF0) 0x80 0xBF 2)
  else if b = 0xF4 then some (.within 4 0x80 0x8F 2)
  else none

def Progress.first (b : UInt8) : List Char × Progress :=
  if b < 0x80 then ([Char.ofNat b.toNat], .fresh)
  else match ofLead? b with
    | some progress => ([], progress)
    | none => ([replacement], .fresh)

/-- The characters that a byte completes, and what is then under way. -/
def Progress.next : Progress → UInt8 → List Char × Progress
  | .fresh, b => first b
  | .within value low high more, b =>
    if low ≤ b ∧ b ≤ high then
      let value := 64 * value + (b.toNat - 0x80)
      match more with
      | 0 => ([Char.ofNat value], .fresh)
      | more + 1 => ([], .within value 0x80 0xBF more)
    else
      let (chars, progress) := first b
      (replacement :: chars, progress)

def Progress.lossy : Progress → List UInt8 → List Char
  | .fresh, [] => []
  | .within .., [] => [replacement]
  | progress, b :: rest => (progress.next b).1 ++ (progress.next b).2.lossy rest

def lossy (bytes : List UInt8) : String :=
  String.ofList (Progress.fresh.lossy bytes)

end FrameScan.Text.Utf8
