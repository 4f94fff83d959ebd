/-!
# Fixed contents

Bytes that are read at explicit offsets. Past the end there is nothing to read,
which is no error; `readAt_eq` gives the bytes that a read yields.
-/

namespace FrameScan

structure Content where
  bytes : ByteArray

namespace Content

def ofList (bytes : List UInt8) : Content :=
  ⟨bytes.toByteArray⟩

def toList (content : Content) : List UInt8 :=
  content.bytes.data.toList

/-- As many bytes from an offset on as are asked for and there are. -/
def readAt (content : Content) (offset : UInt64) (count : Nat) : List UInt8 :=
  if offset.toNat < content.bytes.size then
    (content.bytes.extract offset.toNat (offset.toNat + count)).data.toList
  else []

theorem readAt_eq (content : Content) (offset : UInt64) (count : Nat) :
    content.readAt offset count = (content.toList.drop offset.toNat).take count := by
  unfold readAt toList
  split
  next => simp [ByteArray.data_extract, List.extract_eq_take_drop]
  next h => simp [List.drop_eq_nil_of_le (Nat.le_of_not_lt h)]

/-- A read into a buffer: the number of bytes read, and the buffer with these at its front. -/
def readInto (content : Content) (offset : UInt64) (buffer : List UInt8) : Nat × List UInt8 :=
  let read := content.readAt offset buffer.length
  (read.length, read ++ buffer.drop read.length)

end Content

end FrameScan
