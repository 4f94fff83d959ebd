import FrameScan.SystemError
import FrameScan.Text.Utf8

/-!
# Listings

A listing is read in chunks, and a read may fail. `lines` divides what is read
at line feeds, wherever the chunks end: a failed read and a line that is not
text are items of their own among the lines, and do not end them.
-/

namespace FrameScan

inductive Chunk where
  | bytes (content : List UInt8)
  | fault (error : SystemError)
  deriving DecidableEq, Repr

abbrev Listing := List Chunk

namespace Listing

inductive Signal where
  | byte (value : UInt8)
  | fault (error : SystemError)
  deriving DecidableEq, Repr

def signals (listing : Listing) : List Signal :=
  listing.flatMap fun
    | .bytes content => content.map .byte
    | .fault error => [.fault error]

def lineFeed : UInt8 := 0x0A
def carriageReturn : UInt8 := 0x0D

def decode (line : List UInt8) : Except SystemError String :=
  match Text.Utf8.decode? line with
  | some text => .ok text
  | none => .error .notText

/-- The line that a line feed ends, from its bytes in reverse. One carriage return
before the line feed belongs to the line's end. -/
def ended : List UInt8 → Except SystemError String
  | [] => decode []
  | b :: before => decode (if b = carriageReturn then before.reverse else (b :: before).reverse)

/-- The lines still to come, with the bytes of the current one in reverse. A failed
read drops these bytes; one that was only interrupted leaves no trace. -/
def linesAfter : List UInt8 → List Signal → List (Except SystemError String)
  | [], [] => []
  | b :: before, [] => [decode (b :: before).reverse]
  | before, .byte b :: rest =>
    if b = lineFeed then ended before :: linesAfter [] rest else linesAfter (b :: before) rest
  | before, .fault error :: rest =>
    if error = .interrupted then linesAfter before rest else .error error :: linesAfter [] rest

def lines (listing : Listing) : List (Except SystemError String) :=
  linesAfter [] listing.signals

end Listing

end FrameScan
