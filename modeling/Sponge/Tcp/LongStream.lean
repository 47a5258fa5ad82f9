import Sponge.Tcp.SenderTiling

/-!
# A stream of `2 ^ 64` numbers

The plainest run of a sender: one byte is written, sent into a window of one and
acknowledged. `Level` is the sender between two such rounds. A round takes it
from `n` numbers to `n + 1` as long as `n + 1` is a word; the byte sent in the
round after the last one takes `_next_abs_seqno` to 0.
-/

namespace Sponge

namespace TCPSender

/-- `n` numbers were sent and acknowledged, the stream has room, and the window is one. -/
structure Level (n : Nat) (s : TCPSender) : Prop where
  syned : s.syned = true
  unfinished : s.fined = false
  next : s.nextAbsSeqno = n
  acked : s.lastAckedAbsSeqno = n
  sent : s.sent = []
  window : s.windowSize = 1
  drained : s.stream.pending = []
  unended : s.stream.inputEnded = false
  room : 0 < s.stream.capacity

theorem level_iff (n : Nat) (s : TCPSender) : s.Level n ↔
    s.syned = true ∧ s.fined = false ∧ s.nextAbsSeqno = n ∧ s.lastAckedAbsSeqno = n ∧ s.sent = [] ∧ s.windowSize = 1 ∧
      s.stream.pending = [] ∧ s.stream.inputEnded = false ∧ 0 < s.stream.capacity := by
  constructor
  · rintro ⟨syned, unfinished, next, acked, sent, window, drained, unended, room⟩
    exact ⟨syned, unfinished, next, acked, sent, window, drained, unended, room⟩
  · rintro ⟨syned, unfinished, next, acked, sent, window, drained, unended, room⟩
    exact ⟨syned, unfinished, next, acked, sent, window, drained, unended, room⟩

instance (n : Nat) (s : TCPSender) : Decidable (s.Level n) := decidable_of_iff _ (level_iff n s).symm

/-- The byte of a round is in flight behind `n` numbers acknowledged. -/
structure Pushed (n : Nat) (s : TCPSender) : Prop where
  syned : s.syned = true
  unfinished : s.fined = false
  next : s.nextAbsSeqno = add64 n 1
  acked : s.lastAckedAbsSeqno = n
  sent : ∃ seg, s.sent = [⟨add64 n 1, seg⟩]
  drained : s.stream.pending = []
  unended : s.stream.inputEnded = false
  room : 0 < s.stream.capacity

/-- The segment with the byte of a round. -/
def roundSegment (s : TCPSender) : TCPSegment where
  header := { seqno := wrap s.nextAbsSeqno s.isn }
  payload := [0]

/-- A byte is written and sent. -/
def pushByte (s : TCPSender) : TCPSender := (s.write [0]).fillWindow

section Round

variable {s : TCPSender} {n : Nat}

theorem Level.bytesInFlight (h : s.Level n) : s.bytesInFlight = 0 := by
  rw [TCPSender.bytesInFlight, h.next, h.acked]
  simp only [sub64, word64]
  omega

theorem Level.inFlight (h : s.Level n) (below : n < word64) : s.InFlight n := by
  have acked := h.acked
  exact ⟨h.next.trans (Nat.mod_eq_of_lt below).symm, Nat.le_of_eq acked, by omega, by omega⟩

theorem Level.pending_write (h : s.Level n) : (s.write [0]).stream.pending = [0] := by
  have size : s.stream.buffer.size = 0 := by rw [← ByteStream.length_pending, h.drained]; rfl
  have room := h.room
  have fits : s.stream.writeLength [0] = 1 := ByteStream.writeLength_of_le (by
    simp only [ByteStream.remainingCapacity, size, List.length_singleton]
    omega)
  rw [TCPSender.write, ByteStream.pending_write, h.drained, fits]
  rfl

/-- The loop body takes the byte. -/
theorem Level.nextSegment (h : s.Level n) : (s.write [0]).readSize 0 = 1 ∧ (s.write [0]).nextSegment 0 = s.roundSegment := by
  have idle : (s.write [0]).bytesInFlight = 0 := h.bytesInFlight
  have allow : (s.write [0]).allowSize 0 = 1 := by
    rw [TCPSender.allowSize, idle, show (s.write [0]).windowSize = 1 from h.window, show (s.write [0]).syned = true from h.syned]
    decide
  have read : (s.write [0]).readSize 0 = 1 := by
    rw [readSize, allow]
    decide
  have payload : (s.write [0]).stream.peekOutput 1 = [0] := by
    rw [ByteStream.peekOutput_eq, h.pending_write]
    rfl
  have noFin : (s.write [0]).carriesFin 0 = false := by
    simp [carriesFin, TCPSender.write, ByteStream.write, ByteStream.popOutput, h.unended]
  refine ⟨read, ?_⟩
  rw [TCPSender.nextSegment, read, payload, noFin, show (s.write [0]).syned = true from h.syned]
  rfl

/-- **The byte of a round** is sent in one segment. -/
theorem Level.pushByte (h : s.Level n) (below : n < word64) : s.pushByte = (s.write [0]).create 0 := by
  have acked : (s.write [0]).lastAckedAbsSeqno = n := h.acked
  have window : (s.write [0]).windowSize = 1 := h.window
  have one : ((s.write [0]).nextSegment 0).lengthInSequenceSpace = 1 := by
    rw [h.nextSegment.2]
    rfl
  have flight : (s.write [0]).InFlight n := (h.inFlight below).of_same rfl rfl
  have can : (s.write [0]).CanCreate 0 := by
    refine ⟨h.unfinished, ?_, Or.inl rfl, by omega⟩
    rw [show (s.write [0]).bytesInFlight = 0 from h.bytesInFlight, window]
    decide
  have full : ¬ ((s.write [0]).create 0).bytesInFlight < ((s.write [0]).create 0).windowSize.toNat + 0 := by
    rw [(flight.create can).bytesInFlight, one, create_lastAckedAbsSeqno, acked, create_windowSize, window,
      Nat.add_sub_cancel_left]
    decide
  have first : fillLoop 2 (s.write [0]) 0 = fillLoop 1 ((s.write [0]).create 0) 0 := by
    rw [fillLoop, if_pos can.room, fillBody_create can.unfinished can.nonempty]
    rfl
  have second : fillLoop 1 ((s.write [0]).create 0) 0 = (s.write [0]).create 0 := by
    rw [fillLoop, if_neg full]
  rw [TCPSender.pushByte, fillWindow, window]
  exact first.trans second

theorem Level.pushed (h : s.Level n) (below : n < word64) : s.pushByte.Pushed n := by
  obtain ⟨read, segment⟩ := h.nextSegment
  have next : (s.write [0]).nextAbsSeqno = n := h.next
  have sent : (s.write [0]).sent = [] := h.sent
  rw [h.pushByte below]
  refine ⟨rfl, ?_, ?_, h.acked, ⟨s.roundSegment, ?_⟩, ?_, h.unended, h.room⟩
  · rw [create_fined, segment]
    rfl
  · rw [create_nextAbsSeqno, segment, next]
    rfl
  · rw [create_sent, segment, next, sent]
    rfl
  · rw [create_stream, read, ByteStream.pending_popOutput, h.pending_write]
    rfl

/-- **The byte is acknowledged**, if the number that does it is a word. -/
theorem Pushed.acknowledged (h : s.Pushed n) (below : n + 1 < word64) :
    (s.ackReceived (wrap (n + 1) s.isn) 1).Level (n + 1) := by
  have next := h.next
  rw [add64_eq below] at next
  have spec := s.ackReceived_spec (wrap (n + 1) s.isn) 1
  rw [h.acked, unwrap_wrap_nearest s.isn below (by omega) (Or.inl (by omega))] at spec
  have acked : (s.ackReceived (wrap (n + 1) s.isn) 1).lastAckedAbsSeqno = n + 1 := by
    rw [spec.acked, h.acked, next, if_pos (by omega)]
  refine ⟨spec.syned.trans h.syned, spec.fined.trans h.unfinished, spec.next.trans next, acked, ?_, spec.window, ?_, ?_, ?_⟩
  · rcases spec.sent with ⟨-, same⟩ | ⟨-, left⟩
    · rw [acked, h.acked] at same
      omega
    · obtain ⟨seg, sent⟩ := h.sent
      rw [left, acked, sent, add64_eq below]
      simp
  · rw [spec.stream]
    exact h.drained
  · rw [spec.stream]
    exact h.unended
  · rw [spec.stream]
    exact h.room

/-- Between two rounds there is nothing to send. -/
theorem Level.fillWindow (h : s.Level n) : s.fillWindow = s := by
  have idle : s.bytesInFlight < s.windowSize.toNat + 0 := by
    rw [h.bytesInFlight, h.window]
    decide
  have payload : s.stream.peekOutput (s.readSize 0) = [] := by
    rw [ByteStream.peekOutput_eq, h.drained, List.take_nil]
  have empty : (s.nextSegment 0).lengthInSequenceSpace = 0 := by
    simp [TCPSender.nextSegment, TCPSegment.lengthInSequenceSpace, carriesFin, payload, h.syned, ByteStream.popOutput, h.unended]
  have loops : fillLoop 2 s 0 = s := by
    rw [fillLoop, if_pos idle, fillBody_empty h.unfinished empty]
    rfl
  rw [TCPSender.fillWindow, h.window]
  exact loops

end Round

end TCPSender

end Sponge
