import Sponge.Logic.Component
import Sponge.Stream.ByteStream

/-!
# A byte stream is a bounded byte queue

What a `ByteStream` is for: a flat queue of bytes with room for `capacity` of
them. A client calls `write`, `peek_output`, `pop_output` and `read`, in any
order and with any strings and lengths, and looks at the counters after each
call. Everything it sees is what it would see of the queue (`call_refines`,
`refines_byte_queue`); the chunks of the `BufferList`, empty ones among them,
are not visible.
-/

namespace Sponge

/-- A call of the interface. -/
inductive StreamCall where
  | write (data : List UInt8)
  | peekOutput (len : Nat)
  | popOutput (len : Nat)
  | read (len : Nat)
  deriving DecidableEq

/-- What a call returns: a length, a string or nothing. -/
inductive StreamReply where
  | length (n : Nat)
  | string (bytes : List UInt8)
  | void
  deriving DecidableEq

/-- What a client sees of a call: its reply, the bytes it put in and the bytes it took out, and then the counters. -/
structure StreamView where
  reply : StreamReply
  entered : List UInt8
  left : List UInt8
  bufferSize : Nat
  bufferEmpty : Bool
  bytesWritten : Nat
  bytesRead : Nat
  remainingCapacity : Nat
  deriving DecidableEq

/-! ### The queue -/

/-- A flat queue of at most `capacity` bytes, with the numbers of bytes that ever entered and left it. -/
structure ByteQueue where
  capacity : Nat
  bytes : List UInt8 := []
  written : Nat := 0
  taken : Nat := 0
  fits : bytes.length ≤ capacity
  counted : written = taken + bytes.length

namespace ByteQueue

/-- An empty queue. -/
def new (capacity : Nat) : ByteQueue where
  capacity := capacity
  fits := Nat.zero_le _
  counted := rfl

/-- The longest part of the string that fits, from its start. -/
def admitted (q : ByteQueue) (data : List UInt8) : List UInt8 := data.take (q.capacity - q.bytes.length)

/-- The queue with what fits of the string at its end. -/
def push (q : ByteQueue) (data : List UInt8) : ByteQueue where
  capacity := q.capacity
  bytes := q.bytes ++ q.admitted data
  written := q.written + (q.admitted data).length
  taken := q.taken
  fits := by
    have fits := q.fits
    rw [List.length_append, admitted, List.length_take]
    omega
  counted := by rw [List.length_append, q.counted, Nat.add_assoc]

/-- The queue without its first `n` bytes, or without any if it has no more. -/
def drop (q : ByteQueue) (n : Nat) : ByteQueue where
  capacity := q.capacity
  bytes := q.bytes.drop n
  written := q.written
  taken := q.taken + (q.bytes.take n).length
  fits := by
    have fits := q.fits
    rw [List.length_drop]
    omega
  counted := by
    rw [q.counted, List.length_take, List.length_drop]
    omega

/-- The counters, beside the reply of a call; they are shown as 64-bit numbers. -/
def view (q : ByteQueue) (reply : StreamReply) (entered left : List UInt8) : StreamView where
  reply := reply
  entered := entered
  left := left
  bufferSize := q.bytes.length
  bufferEmpty := q.bytes.isEmpty
  bytesWritten := q.written % word64
  bytesRead := q.taken % word64
  remainingCapacity := q.capacity - q.bytes.length

/-- A call to the queue. -/
def call (q : ByteQueue) : StreamCall → StreamView × ByteQueue
  | .write data => ((q.push data).view (.length (q.admitted data).length) (q.admitted data) [], q.push data)
  | .peekOutput n => (q.view (.string (q.bytes.take n)) [] [], q)
  | .popOutput n => ((q.drop n).view .void [] (q.bytes.take n), q.drop n)
  | .read n => ((q.drop n).view (.string (q.bytes.take n)) [] (q.bytes.take n), q.drop n)

/-- Each call shows the counters of the queue it leaves. -/
theorem call_view (q : ByteQueue) (c : StreamCall) :
    ∃ reply entered left, (q.call c).1 = (q.call c).2.view reply entered left := by
  cases c with
  | write data => exact ⟨_, _, _, rfl⟩
  | peekOutput n => exact ⟨_, _, _, rfl⟩
  | popOutput n => exact ⟨_, _, _, rfl⟩
  | read n => exact ⟨_, _, _, rfl⟩

@[simp] theorem capacity_call (q : ByteQueue) (c : StreamCall) : (q.call c).2.capacity = q.capacity := by
  cases c with
  | write data => rfl
  | peekOutput n => rfl
  | popOutput n => rfl
  | read n => rfl

/-- A call loses, doubles and reorders no byte. -/
theorem bytes_call (q : ByteQueue) (c : StreamCall) :
    q.bytes ++ (q.call c).1.entered = (q.call c).1.left ++ (q.call c).2.bytes := by
  cases c with
  | write data => rfl
  | peekOutput n => exact List.append_nil _
  | popOutput n => exact (List.append_nil _).trans (List.take_append_drop n q.bytes).symm
  | read n => exact (List.append_nil _).trans (List.take_append_drop n q.bytes).symm

end ByteQueue

/-- The counters agree with each other and with the capacity, which is never exceeded. -/
structure StreamView.Consistent (capacity : Nat) (v : StreamView) : Prop where
  bounded : v.bufferSize ≤ capacity
  balance : v.bytesWritten = add64 v.bytesRead v.bufferSize
  room : v.remainingCapacity + v.bufferSize = capacity

theorem ByteQueue.view_consistent (q : ByteQueue) (reply : StreamReply) (entered left : List UInt8) :
    (q.view reply entered left).Consistent q.capacity where
  bounded := q.fits
  balance := by
    show q.written % word64 = add64 (q.taken % word64) q.bytes.length
    rw [add64_mod, q.counted]
  room := Nat.sub_add_cancel q.fits

/-! ### The stream -/

namespace ByteStream

/-- `pop_output`, where `remove_prefix` may throw. -/
def popOutput? (s : ByteStream) (len : Nat) : Option ByteStream :=
  (s.buffer.removePrefix (min s.buffer.size len)).map fun _ => s.popOutput len

/-- The counters, beside the reply of a call; `bytes_written` and `bytes_read` are 64-bit numbers. -/
def view (s : ByteStream) (reply : StreamReply) (entered left : List UInt8) : StreamView where
  reply := reply
  entered := entered
  left := left
  bufferSize := s.bufferSize
  bufferEmpty := s.bufferEmpty
  bytesWritten := s.writeCount % word64
  bytesRead := s.readCount % word64
  remainingCapacity := s.remainingCapacity

/-- A call to the stream. The bytes that enter are the first ones of the string, as many as `write` returns; those that
leave are what `peek_output` returns just before. -/
def call (s : ByteStream) : StreamCall → Option (StreamView × ByteStream)
  | .write data =>
    some ((s.write data).view (.length (s.writeLength data)) (data.take (s.writeLength data)) [], s.write data)
  | .peekOutput len => some (s.view (.string (s.peekOutput len)) [] [], s)
  | .popOutput len => (s.popOutput? len).map fun s' => (s'.view .void [] (s.peekOutput len), s')
  | .read len => (s.popOutput? len).map fun s' => (s'.view (.string (s.peekOutput len)) [] (s.peekOutput len), s')

/-- The queue a stream stands for. -/
def queue (s : ByteStream) : ByteQueue where
  capacity := s.capacity
  bytes := s.pending
  written := s.writeCount
  taken := s.readCount
  fits := by rw [length_pending]; exact s.fits
  counted := by rw [length_pending]; exact s.counted

/-- `remove_prefix` is only asked for bytes that are there. -/
theorem popOutput?_eq (s : ByteStream) (len : Nat) : s.popOutput? len = some (s.popOutput len) := by
  obtain ⟨rest, run, -⟩ := s.buffer.removePrefix_spec (min s.buffer.size len) (Nat.min_le_left _ _)
  rw [popOutput?, run, Option.map_some]

theorem view_queue (s : ByteStream) (reply : StreamReply) (entered left : List UInt8) :
    s.view reply entered left = s.queue.view reply entered left := by
  have size : s.queue.bytes.length = s.buffer.size := s.length_pending
  have empty : s.bufferEmpty = s.queue.bytes.isEmpty := by
    rw [Bool.eq_iff_iff, bufferEmpty_iff, List.isEmpty_iff]
    rfl
  rw [view, ByteQueue.view, size, empty]
  rfl

theorem admitted_queue (s : ByteStream) (data : List UInt8) :
    s.queue.admitted data = data.take (s.writeLength data) := by
  show data.take (s.capacity - s.pending.length) = data.take (min data.length (s.capacity - s.buffer.size))
  rw [length_pending, Nat.min_comm, ← List.take_eq_take_min]

theorem length_admitted_queue (s : ByteStream) (data : List UInt8) :
    (s.queue.admitted data).length = s.writeLength data := by
  rw [admitted_queue, List.length_take, Nat.min_eq_left (s.writeLength_le data)]

theorem queue_write (s : ByteStream) (data : List UInt8) : (s.write data).queue = s.queue.push data := by
  have bytes : (s.write data).pending = s.pending ++ s.queue.admitted data := by rw [pending_write, admitted_queue]
  simp only [queue, ByteQueue.push, ByteQueue.mk.injEq]
  exact ⟨rfl, bytes, congrArg (s.writeCount + ·) (s.length_admitted_queue data).symm, rfl⟩

theorem queue_popOutput (s : ByteStream) (len : Nat) : (s.popOutput len).queue = s.queue.drop len := by
  have length : (s.pending.take len).length = min s.buffer.size len := by
    rw [List.length_take, length_pending, Nat.min_comm]
  simp only [queue, ByteQueue.drop, ByteQueue.mk.injEq]
  exact ⟨rfl, s.pending_popOutput len, rfl, congrArg (s.readCount + ·) length.symm⟩

/-- **One call**: the stream answers as its queue does, and becomes the queue after the call. -/
theorem call_refines : Component.Refines queue call ByteQueue.call := by
  intro s c
  cases c with
  | write data =>
    refine ⟨s.write data, ?_, queue_write s data⟩
    rw [call, view_queue, queue_write, ByteQueue.call, length_admitted_queue, admitted_queue]
  | peekOutput len =>
    refine ⟨s, ?_, rfl⟩
    rw [call, view_queue]
    rfl
  | popOutput len =>
    refine ⟨s.popOutput len, ?_, queue_popOutput s len⟩
    rw [call, popOutput?_eq, Option.map_some, view_queue, queue_popOutput]
    rfl
  | read len =>
    refine ⟨s.popOutput len, ?_, queue_popOutput s len⟩
    rw [call, popOutput?_eq, Option.map_some, view_queue, queue_popOutput]
    rfl

/-- **A byte stream is a bounded byte queue.** For every capacity and every list of calls no call throws, and what the
client sees is what it sees of the queue; after each call the counters are consistent, and the bytes taken out over
all calls are, in order, the first of those that were accepted. -/
theorem refines_byte_queue (capacity : Nat) (calls : List StreamCall) :
    ∃ seen s, Component.answers call (new capacity) calls = some (seen, s) ∧
      seen = (Component.replies ByteQueue.call (.new capacity) calls).1 ∧
      (∀ v ∈ seen, v.Consistent capacity) ∧
      (seen.map StreamView.left).flatten <+: (seen.map StreamView.entered).flatten ∧
      s.bufferSize ≤ capacity ∧ s.writeCount = s.readCount + s.bufferSize ∧
      s.remainingCapacity + s.bufferSize = capacity := by
  have start : (new capacity).queue = .new capacity := rfl
  obtain ⟨s, run, ends⟩ := call_refines.answers (new capacity) calls
  rw [start] at run ends
  have step : ∀ (q : ByteQueue) c, q.capacity = capacity →
      (q.call c).1.Consistent capacity ∧ (q.call c).2.capacity = capacity := by
    intro q c same
    obtain ⟨reply, entered, left, shown⟩ := q.call_view c
    have kept := (q.capacity_call c).trans same
    refine ⟨?_, kept⟩
    rw [shown, ← kept]
    exact ByteQueue.view_consistent _ reply entered left
  obtain ⟨consistent, kept⟩ := Component.replies_invariant step (rfl : (ByteQueue.new capacity).capacity = capacity) calls
  have balance := Component.replies_balance ByteQueue.bytes_call (.new capacity) calls
  have same : s.capacity = capacity := (congrArg ByteQueue.capacity ends).trans kept
  refine ⟨_, s, run, rfl, consistent, ⟨_, balance.symm⟩, same ▸ s.fits, s.counted, ?_⟩
  rw [← same]
  exact Nat.sub_add_cancel s.fits

/-- A write that finds no room leaves an empty buffer behind; it is passed over by a later `pop_output`. -/
example : (Component.answers call (new 2) [.write [1, 2, 3], .write [4], .popOutput 1, .write [5, 6], .read 9]).map
    (fun (seen, s) => (seen.map StreamView.reply, s.buffer.buffers)) =
      some ([.length 2, .length 0, .void, .length 1, .string [2, 5]], []) := by decide

end ByteStream

end Sponge
