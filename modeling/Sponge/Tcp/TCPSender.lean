import Sponge.Stream.ByteStream
import Sponge.Tcp.TCPSegment

/-!
# The sender (`tcp_sender.hh`, `tcp_sender.cc`)

The absolute sequence numbers `_next_abs_seqno`, `_last_acked_abs_seqno` and
`expected_ack`, and the sizes computed from them in `fill_window`, are 64-bit
values, the timer's `_timeout` and the retransmission count 32-bit ones.

`fill_window` is its loop body, `fillBody`, iterated. Each iteration that goes on
puts at least one more sequence number in flight, so the loop's condition fails
after at most as many iterations as the window has numbers.
-/

namespace Sponge

/-- `_sent_t`: an outstanding segment and the number that acknowledges it. -/
structure SentSegment where
  expectedAck : Nat
  seg : TCPSegment
  deriving DecidableEq

/-- `TCPSender`. -/
structure TCPSender where
  isn : WrappingInt32
  segmentsOut : List TCPSegment := []
  initialRetransmissionTimeout : Nat
  timeout : Nat
  stream : ByteStream
  nextAbsSeqno : Nat := 0
  lastAckedAbsSeqno : Nat := 0
  sent : List SentSegment := []
  resendTryTimes : Nat := 0
  lastTime : Nat := 0
  syned : Bool := false
  fined : Bool := false
  windowSize : UInt16 := 1
  deriving DecidableEq

namespace TCPSender

/-- `TCPSender(capacity, retx_timeout, fixed_isn)`. -/
def new (capacity : Nat) (retxTimeout : UInt16) (isn : WrappingInt32) : TCPSender where
  isn := isn
  initialRetransmissionTimeout := retxTimeout.toNat
  timeout := retxTimeout.toNat
  stream := .new capacity

/-- `bytes_in_flight`. -/
def bytesInFlight (s : TCPSender) : Nat := sub64 s.nextAbsSeqno s.lastAckedAbsSeqno

/-- `full_fined`. -/
def fullFined (s : TCPSender) : Bool := s.fined && s.nextAbsSeqno == s.lastAckedAbsSeqno

/-- `next_seqno`. -/
def nextSeqno (s : TCPSender) : WrappingInt32 := wrap s.nextAbsSeqno s.isn

/-- `allow_size` when the payload is read: the window less the numbers in flight,
and less the SYN. -/
def allowSize (s : TCPSender) (ex : Nat) : Nat :=
  let allowSize := add64 (sub64 s.windowSize.toNat s.bytesInFlight) ex
  if s.syned then allowSize else sub64 allowSize 1

/-- `read_size`. -/
def readSize (s : TCPSender) (ex : Nat) : Nat :=
  if s.allowSize ex < TCPConfig.maxPayloadSize then s.allowSize ex else TCPConfig.maxPayloadSize

/-- Whether the segment carries the FIN. -/
def carriesFin (s : TCPSender) (ex : Nat) : Bool :=
  let payload := s.stream.peekOutput (s.readSize ex)
  let stream := s.stream.popOutput (s.readSize ex)
  decide (0 < sub64 (s.allowSize ex) payload.length) && (stream.inputEnded && stream.bufferEmpty)

/-- The segment the loop body makes. -/
def nextSegment (s : TCPSender) (ex : Nat) : TCPSegment where
  header := { seqno := wrap s.nextAbsSeqno s.isn, syn := !s.syned, fin := s.carriesFin ex }
  payload := s.stream.peekOutput (s.readSize ex)

/-- The body of `fill_window`'s loop, and whether the loop goes on. -/
def fillBody (s : TCPSender) (ex : Nat) : TCPSender × Bool :=
  if s.fined then (s, false)
  else
    let segment := s.nextSegment ex
    let s := { s with
      syned := true
      stream := s.stream.popOutput (s.readSize ex)
      fined := segment.header.fin }
    if segment.lengthInSequenceSpace = 0 then (s, false)
    else
      let next := add64 s.nextAbsSeqno segment.lengthInSequenceSpace
      ({ s with
        segmentsOut := s.segmentsOut ++ [segment]
        nextAbsSeqno := next
        sent := s.sent ++ [⟨next, segment⟩] }, true)

/-- The loop of `fill_window`, for at most `fuel` iterations. `ex` is 0 from the
second iteration on. -/
def fillLoop : Nat → TCPSender → Nat → TCPSender
  | 0, s, _ => s
  | fuel + 1, s, ex =>
    if s.bytesInFlight < s.windowSize.toNat + ex then
      let (s', more) := s.fillBody ex
      if more then fillLoop fuel s' 0 else s'
    else s

/-- `fill_window`. -/
def fillWindow (s : TCPSender) : TCPSender :=
  fillLoop (s.windowSize.toNat + 1) s (if s.windowSize = 0 then 1 else 0)

/-- `ack_received`. The loop over `_sent` pops its front while that is
acknowledged. -/
def ackReceived (s : TCPSender) (ackno : WrappingInt32) (windowSize : UInt16) : TCPSender :=
  let s := { s with windowSize }
  let tmp := unwrap ackno s.isn s.lastAckedAbsSeqno
  if tmp ≤ s.lastAckedAbsSeqno ∨ s.nextAbsSeqno < tmp then s
  else
    let s := { s with lastAckedAbsSeqno := tmp }
    if s.sent ≠ [] then
      { s with
        timeout := s.initialRetransmissionTimeout
        lastTime := 0
        resendTryTimes := 0
        sent := s.sent.dropWhile fun e => decide (e.expectedAck ≤ tmp) }
    else s

/-- `tick`. -/
def tick (s : TCPSender) (msSinceLastTick : Nat) : TCPSender :=
  let s := { s with lastTime := add64 s.lastTime msSinceLastTick }
  match s.sent with
  | oldest :: _ =>
    if s.timeout ≤ s.lastTime then
      let s := { s with segmentsOut := s.segmentsOut ++ [oldest.seg], lastTime := 0 }
      if s.windowSize ≠ 0 then
        { s with timeout := 2 * s.timeout % word32, resendTryTimes := (s.resendTryTimes + 1) % word32 }
      else s
    else s
  | [] => { s with lastTime := 0 }

/-- The segment `send_empty_segment` makes. -/
def emptySegment (s : TCPSender) : TCPSegment where
  header := { seqno := wrap s.nextAbsSeqno s.isn }

/-- `send_empty_segment`. -/
def sendEmptySegment (s : TCPSender) : TCPSender :=
  { s with segmentsOut := s.segmentsOut ++ [s.emptySegment] }

/-- `stream_in().write`; the bytes accepted are those of `ByteStream.write`. -/
def write (s : TCPSender) (data : List UInt8) : TCPSender := { s with stream := s.stream.write data }

/-- `stream_in().end_input`. -/
def endInput (s : TCPSender) : TCPSender := { s with stream := s.stream.endInput }

/-- `stream_in().set_error()`. -/
def setError (s : TCPSender) : TCPSender := { s with stream := s.stream.setError }

end TCPSender

end Sponge
