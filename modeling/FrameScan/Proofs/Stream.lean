import FrameScan.Sink

/-!
# Line streams

The bytes of a list of lines, and what a sink has taken as such a stream. A
line either fits a sink, and is then taken whole, or fills it.
-/

namespace FrameScan

theorem extract_of_size_le {bytes : ByteArray} {count : Nat} (h : bytes.size ≤ count) :
    bytes.extract 0 count = bytes := by
  ext1
  rw [ByteArray.data_extract]
  exact Array.extract_eq_self_of_le h

namespace Line

/-- The bytes of lines one after another. -/
def stream : List Line → ByteArray
  | [] => .empty
  | line :: lines => line.bytes ++ stream lines

@[simp] theorem stream_nil : stream [] = .empty := rfl

@[simp] theorem stream_cons (line : Line) (lines : List Line) :
    stream (line :: lines) = line.bytes ++ stream lines := rfl

@[simp] theorem stream_append (first second : List Line) :
    stream (first ++ second) = stream first ++ stream second := by
  induction first with
  | nil => simp
  | cons line first ih => simp [ih, ByteArray.append_assoc]

def isPage : Line → Bool
  | .page .. => true
  | _ => false

end Line

namespace Sink

variable {sink : Sink} {line : Line}

theorem accepted_eq (sink : Sink) :
    sink.accepted = Line.stream sink.lines.toList ++ sink.rest := by
  have hfold (lines : List Line) (bytes : ByteArray) :
      lines.foldl (fun bytes line => bytes ++ line.bytes) bytes = bytes ++ Line.stream lines := by
    induction lines generalizing bytes with
    | nil => simp
    | cons line lines ih => simp [ih, ByteArray.append_assoc]
  rw [accepted, ← Array.foldl_toList, hfold, ByteArray.empty_append]

def pageLines (sink : Sink) : Nat :=
  sink.lines.toList.countP Line.isPage

/-- A sink with room for all of some lines, after it has taken them. -/
def push (sink : Sink) (lines : List Line) : Sink :=
  { sink with
    lines := sink.lines ++ lines.toArray
    rest_eq_empty := sink.rest_eq_empty }

@[simp] theorem push_nil (sink : Sink) : sink.push [] = sink := by simp [push]

@[simp] theorem push_push (sink : Sink) (first second : List Line) :
    (sink.push first).push second = sink.push (first ++ second) := by
  simp [push, Array.append_assoc]

@[simp] theorem room_push (sink : Sink) (lines : List Line) :
    (sink.push lines).room = sink.room := rfl

theorem accepted_push (h : sink.room = none) (lines : List Line) :
    (sink.push lines).accepted = sink.accepted ++ Line.stream lines := by
  have hrest : sink.rest = .empty := sink.rest_eq_empty (by simp [h])
  simp [accepted_eq, push, hrest]

theorem write_of_unlimited (h : sink.room = none) (line : Line) :
    sink.write line = (none, sink.push [line]) := by
  unfold write push
  split
  next => simp
  next room hroom => simp [h] at hroom

theorem write_of_fits {room : Nat} (h : sink.room = some room) (hle : line.bytes.size ≤ room) :
    (sink.write line).1 = none ∧ (sink.write line).2.lines = sink.lines.push line ∧
      (sink.write line).2.rest = sink.rest ∧
      (sink.write line).2.room = some (room - line.bytes.size) := by
  unfold write
  split
  next hroom => simp [h] at hroom
  next room' hroom =>
    obtain rfl : room = room' := Option.some.inj (h.symm.trans hroom)
    simp [hle]

theorem write_of_overflow {room : Nat} (h : sink.room = some room)
    (hlt : room < line.bytes.size) :
    (sink.write line).1 = some sink.fullError ∧
      (sink.write line).2.accepted = sink.accepted ++ line.bytes.extract 0 room := by
  refine ⟨?_, ?_⟩
  · rw [write_fst, h]
    simp [hlt]
  · rw [accepted_write, fitting, h]

theorem write_fullError (sink : Sink) (line : Line) :
    (sink.write line).2.fullError = sink.fullError := by
  unfold write
  split
  next => rfl
  next => split <;> rfl

theorem write_flushError (sink : Sink) (line : Line) :
    (sink.write line).2.flushError = sink.flushError := by
  unfold write
  split
  next => rfl
  next => split <;> rfl

theorem write_lines (sink : Sink) (line : Line) :
    (sink.write line).2.lines =
      if (sink.write line).1 = none then sink.lines.push line else sink.lines := by
  unfold write
  split
  next => simp
  next => split <;> simp

end Sink

end FrameScan
