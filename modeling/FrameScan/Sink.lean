import FrameScan.Line
import FrameScan.SystemError

/-!
# Sinks

Where the lines go. A sink may have room for so many bytes only: of a line that
does not fit it takes the bytes that do, and reports an error. `accepted_write`
says what a line adds to the bytes taken, and `write_fst` when there is an error.
-/

namespace FrameScan

structure Sink where
  /-- The lines taken whole. -/
  lines : Array Line := #[]
  /-- The bytes taken of a line that did not fit. -/
  rest : ByteArray := .empty
  /-- The number of bytes there is room for, if it is limited. -/
  room : Option Nat := none
  /-- The error of a line that does not fit: by default, no space is left. -/
  fullError : SystemError := .numbered 28
  flushError : Option SystemError := none
  rest_eq_empty : room ≠ some 0 → rest = .empty := by intro _; rfl

namespace Sink

/-- All bytes taken. -/
def accepted (sink : Sink) : ByteArray :=
  sink.lines.foldl (fun bytes line => bytes ++ line.bytes) .empty ++ sink.rest

/-- The bytes of a line that there is room for. -/
def fitting (sink : Sink) (line : Line) : ByteArray :=
  match sink.room with
  | none => line.bytes
  | some room => line.bytes.extract 0 room

def write (sink : Sink) (line : Line) : Option SystemError × Sink :=
  match h : sink.room with
  | none => (none, { sink with
      lines := sink.lines.push line
      rest_eq_empty := sink.rest_eq_empty })
  | some room =>
    if line.bytes.size ≤ room then
      (none, { sink with
        lines := sink.lines.push line
        room := some (room - line.bytes.size)
        rest_eq_empty := fun hroom => sink.rest_eq_empty fun h0 => hroom (by
          rw [Option.some.inj (h.symm.trans h0), Nat.zero_sub]) })
    else
      (some sink.fullError, { sink with
        rest := sink.rest ++ sink.fitting line
        room := some 0
        rest_eq_empty := fun hroom => absurd rfl hroom })

theorem write_fst (sink : Sink) (line : Line) :
    (sink.write line).1 =
      if sink.room.all (line.bytes.size ≤ ·) then none else some sink.fullError := by
  unfold write
  split
  next h => simp [h]
  next room h => by_cases hle : line.bytes.size ≤ room <;> simp [h, hle]

theorem accepted_write (sink : Sink) (line : Line) :
    (sink.write line).2.accepted = sink.accepted ++ sink.fitting line := by
  unfold write
  split
  next h =>
    have hrest := sink.rest_eq_empty (by simp [h])
    simp [accepted, fitting, h, hrest]
  next room h =>
    split
    next hle =>
      have hpos := line.size_bytes_pos
      have hrest := sink.rest_eq_empty (by rw [h, ne_eq, Option.some.injEq]; omega)
      have hfit : line.bytes.extract 0 room = line.bytes := by
        ext1
        rw [ByteArray.data_extract]
        exact Array.extract_eq_self_of_le hle
      simp [accepted, fitting, h, hrest, hfit]
    next => simp [accepted, ByteArray.append_assoc]

end Sink

end FrameScan
