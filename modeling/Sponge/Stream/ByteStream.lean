import Sponge.Util.Buffer

/-!
# The byte stream (`byte_stream.hh`, `byte_stream.cc`)

A bounded in-order queue of bytes. The capacity bound and the agreement of the
two counters with the buffered bytes are fields of the structure, so
`remaining_capacity` is a true difference in every stream that can be built and
`pop_output` never asks the buffer list for bytes it does not hold.
-/

namespace Sponge

/-- `ByteStream`. -/
structure ByteStream where
  error : Bool := false
  buffer : BufferList := ⟨[]⟩
  capacity : Nat
  inputEnded : Bool := false
  writeCount : Nat := 0
  readCount : Nat := 0
  fits : buffer.size ≤ capacity
  counted : writeCount = readCount + buffer.size
  deriving DecidableEq

namespace ByteStream

/-- `ByteStream(capacity)`. -/
def new (capacity : Nat) : ByteStream where
  capacity := capacity
  fits := Nat.zero_le _
  counted := rfl

/-- `remaining_capacity`. -/
def remainingCapacity (s : ByteStream) : Nat := s.capacity - s.buffer.size

/-- `buffer_size`. -/
def bufferSize (s : ByteStream) : Nat := s.buffer.size

/-- `buffer_empty`. -/
def bufferEmpty (s : ByteStream) : Bool := s.buffer.size == 0

/-- `eof`. -/
def eof (s : ByteStream) : Bool := s.inputEnded && s.bufferEmpty

/-- `set_error`. -/
def setError (s : ByteStream) : ByteStream := { s with error := true }

/-- `end_input`. -/
def endInput (s : ByteStream) : ByteStream := { s with inputEnded := true }

/-- The number of bytes `write` accepts, which is its return value. -/
def writeLength (s : ByteStream) (data : List UInt8) : Nat := min data.length s.remainingCapacity

/-- The buffer after `write`: nothing is appended for the empty string, and an
empty buffer is appended when a nonempty string finds no room. -/
def writeBuffer (s : ByteStream) (data : List UInt8) : BufferList :=
  if data.length ≠ 0 then s.buffer.append (.ofString (data.take (s.writeLength data))) else s.buffer

theorem writeLength_le (s : ByteStream) (data : List UInt8) : s.writeLength data ≤ data.length :=
  Nat.min_le_left _ _

theorem size_writeBuffer (s : ByteStream) (data : List UInt8) :
    (s.writeBuffer data).size = s.buffer.size + s.writeLength data := by
  unfold writeBuffer
  split
  · rw [BufferList.size_append, BufferList.size_ofString, List.length_take,
      Nat.min_eq_left (s.writeLength_le data)]
  · have none : data.length = 0 := by omega
    simp [writeLength, none]

/-- `write`; the number of bytes accepted is `writeLength`. -/
def write (s : ByteStream) (data : List UInt8) : ByteStream where
  error := s.error
  buffer := s.writeBuffer data
  capacity := s.capacity
  inputEnded := s.inputEnded
  writeCount := s.writeCount + s.writeLength data
  readCount := s.readCount
  fits := by
    have room : s.writeLength data ≤ s.remainingCapacity := Nat.min_le_right _ _
    have fits := s.fits
    rw [size_writeBuffer]
    simp only [remainingCapacity] at room
    omega
  counted := by rw [size_writeBuffer, s.counted, Nat.add_assoc]

/-- `peek_output`. -/
def peekOutput (s : ByteStream) (len : Nat) : List UInt8 := s.buffer.concatenate.take len

/-- `pop_output`. -/
def popOutput (s : ByteStream) (len : Nat) : ByteStream where
  error := s.error
  buffer := s.buffer.dropPrefix (min s.buffer.size len)
  capacity := s.capacity
  inputEnded := s.inputEnded
  writeCount := s.writeCount
  readCount := s.readCount + min s.buffer.size len
  fits := by
    have fits := s.fits
    rw [BufferList.size_dropPrefix (Nat.min_le_left _ _)]
    omega
  counted := by
    have counted := s.counted
    rw [BufferList.size_dropPrefix (Nat.min_le_left _ _)]
    omega

/-- `read`: the bytes it returns and the stream it leaves. -/
def read (s : ByteStream) (len : Nat) : List UInt8 × ByteStream := (s.peekOutput len, s.popOutput len)

/-- The bytes written and not yet read. -/
def pending (s : ByteStream) : List UInt8 := s.buffer.concatenate

@[simp] theorem length_pending (s : ByteStream) : s.pending.length = s.buffer.size :=
  BufferList.length_concatenate _

/-- `write` appends the longest prefix that fits. -/
@[simp] theorem pending_write (s : ByteStream) (data : List UInt8) :
    (s.write data).pending = s.pending ++ data.take (s.writeLength data) := by
  simp only [pending, write, writeBuffer]
  split
  · simp
  · have none : data = [] := List.eq_nil_of_length_eq_zero (by omega)
    simp [none]

/-- Nothing is changed by an empty write. -/
@[simp] theorem write_nil (s : ByteStream) : s.write [] = s := by
  cases s
  simp [write, writeBuffer, writeLength]

@[simp] theorem pending_popOutput (s : ByteStream) (len : Nat) :
    (s.popOutput len).pending = s.pending.drop len := by
  simp only [pending, popOutput]
  rw [BufferList.concatenate_dropPrefix (Nat.min_le_left _ _), ← BufferList.length_concatenate, Nat.min_comm,
    ← List.drop_eq_drop_min]

theorem peekOutput_eq (s : ByteStream) (len : Nat) : s.peekOutput len = s.pending.take len := rfl

/-- What `read` returns followed by what it leaves is what was there. -/
theorem peek_append_pop (s : ByteStream) (len : Nat) :
    s.peekOutput len ++ (s.popOutput len).pending = s.pending := by
  rw [peekOutput_eq, pending_popOutput, List.take_append_drop]

/-- Reading nothing changes nothing. -/
theorem popOutput_of_peek_nil {s : ByteStream} {len : Nat} (empty : s.peekOutput len = []) : s.popOutput len = s := by
  have none : min s.buffer.size len = 0 := by
    have lengths := congrArg List.length empty
    rw [peekOutput_eq, List.length_take, length_pending] at lengths
    simpa [Nat.min_comm] using lengths
  cases s
  simp only [popOutput, none, BufferList.dropPrefix_zero, Nat.add_zero]

/-- A string that fits is accepted whole. -/
theorem writeLength_of_le {s : ByteStream} {data : List UInt8} (room : data.length ≤ s.remainingCapacity) :
    s.writeLength data = data.length :=
  Nat.min_eq_left room

/-- The right edge of the stream's room, in bytes ever written. -/
theorem writeCount_add_remaining (s : ByteStream) :
    s.writeCount + s.remainingCapacity = s.readCount + s.capacity := by
  have fits := s.fits
  have counted := s.counted
  simp only [remainingCapacity]
  omega

theorem remainingCapacity_write (s : ByteStream) (data : List UInt8) :
    (s.write data).remainingCapacity = s.remainingCapacity - s.writeLength data := by
  show s.capacity - (s.writeBuffer data).size = _
  rw [size_writeBuffer, remainingCapacity, Nat.sub_sub]

theorem remainingCapacity_popOutput (s : ByteStream) (len : Nat) :
    (s.popOutput len).remainingCapacity = s.remainingCapacity + min s.buffer.size len := by
  have fits := s.fits
  show s.capacity - (s.buffer.dropPrefix (min s.buffer.size len)).size = _
  rw [BufferList.size_dropPrefix (Nat.min_le_left _ _), remainingCapacity]
  omega

theorem bufferEmpty_iff (s : ByteStream) : s.bufferEmpty = true ↔ s.pending = [] := by
  rw [bufferEmpty, beq_iff_eq, ← length_pending, List.length_eq_zero_iff]

end ByteStream

end Sponge
