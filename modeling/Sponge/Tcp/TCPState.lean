import Sponge.Tcp.SenderTiling
import Sponge.Tcp.ReceiverFlags
import Sponge.Tcp.TCPConnection

/-!
# The state of a connection (`tcp_helpers/tcp_state.hh`, `tcp_helpers/tcp_state.cc`)

There is no state machine in the source. `TCPState` is computed from a summary of
the sender, one of the receiver and two flags, and compared with the values that
belong to the official names. The summaries are strings in the source, one
constant for each case, and enumerations here.
-/

namespace Sponge

/-- `TCPReceiverStateSummary`. -/
inductive TCPReceiverStateSummary where
  | error
  | listen
  | synRecv
  | finRecv
  deriving DecidableEq, Repr

/-- `TCPSenderStateSummary`. -/
inductive TCPSenderStateSummary where
  | error
  | closed
  | synSent
  | synAcked
  | finSent
  | finAcked
  deriving DecidableEq, Repr

/-- `TCPState`. -/
structure TCPState where
  sender : TCPSenderStateSummary
  receiver : TCPReceiverStateSummary
  active : Bool := true
  lingerAfterStreamsFinish : Bool := true
  deriving DecidableEq, Repr

namespace TCPState

/-- `TCPState::State`, the official names. -/
inductive State where
  | listen
  | synRcvd
  | synSent
  | established
  | closeWait
  | lastAck
  | finWait1
  | finWait2
  | closing
  | timeWait
  | closed
  | reset
  deriving DecidableEq, Repr

/-- The names in the order of the enumeration. -/
def State.all : List State :=
  [.listen, .synRcvd, .synSent, .established, .closeWait, .lastAck, .finWait1, .finWait2, .closing, .timeWait, .closed,
    .reset]

theorem State.mem_all (s : State) : s ∈ State.all := by
  cases s <;> decide

/-- `TCPState(state)`. -/
def ofState : State → TCPState
  | .listen => { receiver := .listen, sender := .closed }
  | .synRcvd => { receiver := .synRecv, sender := .synSent }
  | .synSent => { receiver := .listen, sender := .synSent }
  | .established => { receiver := .synRecv, sender := .synAcked }
  | .closeWait => { receiver := .finRecv, sender := .synAcked, lingerAfterStreamsFinish := false }
  | .lastAck => { receiver := .finRecv, sender := .finSent, lingerAfterStreamsFinish := false }
  | .closing => { receiver := .finRecv, sender := .finSent }
  | .finWait1 => { receiver := .synRecv, sender := .finSent }
  | .finWait2 => { receiver := .synRecv, sender := .finAcked }
  | .timeWait => { receiver := .finRecv, sender := .finAcked }
  | .reset => { receiver := .error, sender := .error, lingerAfterStreamsFinish := false, active := false }
  | .closed => { receiver := .finRecv, sender := .finAcked, lingerAfterStreamsFinish := false, active := false }

end TCPState

/-- `state_summary(receiver)`. -/
def TCPReceiver.stateSummary (r : TCPReceiver) : TCPReceiverStateSummary :=
  if r.streamOut.error then .error
  else if r.ackno.isNone then .listen
  else if r.streamOut.inputEnded then .finRecv
  else .synRecv

/-- `state_summary(sender)`. -/
def TCPSender.stateSummary (s : TCPSender) : TCPSenderStateSummary :=
  if s.stream.error then .error
  else if s.nextAbsSeqno = 0 then .closed
  else if s.nextAbsSeqno = s.bytesInFlight then .synSent
  else if !s.stream.eof then .synAcked
  else if s.nextAbsSeqno < add64 s.stream.writeCount 2 then .synAcked
  else if s.bytesInFlight ≠ 0 then .finSent
  else .finAcked

/-- `state()`, with `TCPState(sender, receiver, active, linger)`. -/
def TCPConnection.state (c : TCPConnection) : TCPState where
  sender := c.sender.stateSummary
  receiver := c.receiver.stateSummary
  active := c.active
  lingerAfterStreamsFinish := if c.active then c.lingerAfterStreamsFinish else false

/-! ### The summaries in terms of the flags -/

/-- The receiver's summary, by the SYN and the end of the stream. -/
theorem TCPReceiver.Flagged.stateSummary {r : TCPReceiver} (h : r.Flagged) (fine : r.streamOut.error = false) :
    r.stateSummary = if r.syn then (if r.fullFined then .finRecv else .synRecv) else .listen := by
  have none : r.ackno.isNone = !r.syn := by
    rw [← h.ackno_isSome, ← Option.not_isSome]
  rw [TCPReceiver.stateSummary, fine, none, h.fullFined]
  cases r.syn <;> simp

section Numbers

variable {created : List TCPSegment} {written : List UInt8} {s : TCPSender}

/-- The SYN is out as soon as a number is used. -/
theorem TCPSender.Tiled.next_eq_zero (h : TCPSender.Tiled created written s) (few : TCPSender.seqLength created < word64) :
    s.nextAbsSeqno = 0 ↔ s.syned = false := by
  have total := h.total
  rw [h.flight.next_eq few]
  constructor
  · intro none
    cases syned : s.syned with
    | false => rfl
    | true =>
      rw [syned, if_pos rfl] at total
      omega
  · intro unsyned
    have nothing : created = [] := by
      by_contra some
      rw [h.syned.2 some] at unsyned
      cases unsyned
    rw [nothing, seqLength_nil]

theorem TCPSender.Tiled.fined_next (h : TCPSender.Tiled created written s) (few : TCPSender.seqLength created < word64)
    (fined : s.fined = true) : s.nextAbsSeqno ≠ 0 := by
  have total := h.total
  rw [fined, if_pos rfl] at total
  rw [h.flight.next_eq few]
  omega

/-- The bytes written are those that the stream has counted. -/
theorem TCPSender.Tiled.writeCount (h : TCPSender.Tiled created written s) : s.stream.writeCount = written.length := by
  rw [← h.bytes, List.length_append, ByteStream.length_pending, ← h.read, s.stream.counted]

end Numbers

/-- The sender's summary, by the SYN, the FIN and the number acknowledged, as long as the FIN is behind everything
written and `bytes_written() + 2` is a word. -/
theorem TCPSender.Tiled.stateSummary {created : List TCPSegment} {written : List UInt8} {s : TCPSender}
    (h : Tiled created written s) (short : written.length + 2 < word64) (closed : s.Closed)
    (fine : s.stream.error = false) : s.stateSummary =
      if s.nextAbsSeqno = 0 then .closed
      else if s.lastAckedAbsSeqno = 0 then .synSent
      else if s.fined then (if s.nextAbsSeqno = s.lastAckedAbsSeqno then .finAcked else .finSent)
      else .synAcked := by
  have few : seqLength created < word64 := Nat.lt_of_le_of_lt h.seqLength_le short
  have next := h.flight.next_eq few
  have flight := h.flight.bytesInFlight
  have acked := h.flight.acked
  have total := h.total
  have read := h.read
  have counted := s.stream.counted
  rw [← h.writeCount] at short
  rw [TCPSender.stateSummary, fine, flight, add64_eq short]
  simp only [Bool.false_eq_true, if_false]
  by_cases started : s.nextAbsSeqno = 0
  · rw [if_pos started, if_pos started]
  rw [if_neg started, if_neg started]
  by_cases none : s.lastAckedAbsSeqno = 0
  · rw [if_pos none, if_pos (by omega)]
  rw [if_neg none, if_neg (by omega)]
  have syned : s.syned = true := by
    rw [h.next_eq_zero few] at started
    simpa using started
  rw [syned, if_pos rfl] at total
  cases fined : s.fined with
  | true =>
    obtain ⟨ended, empty⟩ := closed fined
    have size : s.stream.buffer.size = 0 := by rw [← ByteStream.length_pending, empty]; rfl
    have eof : s.stream.eof = true := by
      rw [ByteStream.eof, ended, (ByteStream.bufferEmpty_iff _).2 empty]
      rfl
    rw [fined, if_pos rfl] at total
    rw [eof, if_neg (by decide), if_neg (by omega), if_pos rfl]
    by_cases level : s.nextAbsSeqno = s.lastAckedAbsSeqno
    · rw [if_pos level, if_neg (by omega)]
    · rw [if_neg level, if_pos (by omega)]
  | false =>
    rw [fined, if_neg (by decide)] at total
    have early : s.nextAbsSeqno < s.stream.writeCount + 2 := by omega
    simp [early]

end Sponge
