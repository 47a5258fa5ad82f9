import Sponge.Stream.StreamReassembler
import Sponge.Tcp.TCPSegment

/-!
# The receiver (`tcp_receiver.hh`, `tcp_receiver.cc`)

`segment_received` is cut at the source's own comments: the segments it ignores,
the index in the stream, and the updates after `push_substring`.
-/

namespace Sponge

/-- The values 0, 1, 2 of `_fin`: no FIN received; FIN received, bytes missing;
the end of the reassembler reached. -/
inductive FinState where
  | notReceived
  | received
  | reached
  deriving DecidableEq, Repr

/-- `TCPReceiver`. -/
structure TCPReceiver where
  reassembler : StreamReassembler
  capacity : Nat
  syn : Bool := false
  fin : FinState := .notReceived
  isn : WrappingInt32 := .ofNat 0
  lastAbseqno : Nat := 0
  lastAckno : Option WrappingInt32 := none
  deriving DecidableEq

namespace TCPReceiver

/-- `TCPReceiver(capacity)`. -/
def new (capacity : Nat) : TCPReceiver where
  reassembler := .new capacity
  capacity := capacity

/-- `stream_out`. -/
def streamOut (r : TCPReceiver) : ByteStream := r.reassembler.output

/-- `full_fined`. -/
def fullFined (r : TCPReceiver) : Bool := r.fin == .reached

/-- `fined`. -/
def fined (r : TCPReceiver) : Bool := r.fin == .received

/-- `ackno`. When `_fin` is 2 a SYN has been received, so `_ackno` has a value. -/
def ackno (r : TCPReceiver) : Option WrappingInt32 :=
  if r.fin = .reached then r.lastAckno.map (·.add 1) else r.lastAckno

/-- `window_size`. -/
def windowSize (r : TCPReceiver) : Nat := r.streamOut.remainingCapacity

/-- The two early returns of `segment_received`: a segment before the SYN, a
second SYN, or one numbered as the SYN. -/
def ignores (r : TCPReceiver) (seg : TCPSegment) : Bool :=
  (!seg.header.syn && !r.syn) || (seg.header.syn && r.syn) ||
    (r.syn && unwrap seg.header.seqno r.isn r.lastAbseqno == 0)

/-- `stream_index`. -/
def streamIndex (r : TCPReceiver) (seg : TCPSegment) : Nat :=
  if r.syn then unwrap (seg.header.seqno.sub 1) r.isn r.lastAbseqno else 0

/-- `_last_abseqno` and `_ackno` from the first unassembled index. -/
def noteAssembled (r : TCPReceiver) : TCPReceiver :=
  if r.reassembler.firstUnassembled ≠ 0 then
    let last := r.reassembler.firstUnassembled - 1
    let ackno := (wrap (last + 1) r.isn).add 1
    { r with
      lastAbseqno := last
      lastAckno := some (if r.syn then ackno else ackno.sub 1) }
  else r

/-- `if (hder.syn) { ... }`. -/
def noteSyn (r : TCPReceiver) (hder : TCPHeader) : TCPReceiver :=
  if hder.syn then
    { r with
      syn := true
      isn := hder.seqno
      lastAckno := some (match r.lastAckno with
        | some ackno => (hder.seqno.add 1).add ackno.rawValue
        | none => hder.seqno.add 1) }
  else r

/-- `if (hder.fin) { ... }` and the change to `_fin = 2`. -/
def noteFin (r : TCPReceiver) (hder : TCPHeader) : TCPReceiver :=
  let r := if hder.fin then { r with fin := .received } else r
  if r.fin = .received ∧ r.reassembler.eofed = true then
    { r with
      reassembler := { r.reassembler with output := r.reassembler.output.endInput }
      fin := .reached }
  else r

/-- The updates after `push_substring` has left `reassembler`. -/
def afterPush (r : TCPReceiver) (hder : TCPHeader) (reassembler : StreamReassembler) : TCPReceiver :=
  ({ r with reassembler }.noteAssembled.noteSyn hder).noteFin hder

/-- `segment_received`. -/
def segmentReceived? (r : TCPReceiver) (seg : TCPSegment) : Option TCPReceiver :=
  if r.ignores seg then some r
  else
    (r.reassembler.pushSubstring? seg.payload (r.streamIndex seg) seg.header.fin).map (r.afterPush seg.header)

/-- The reader takes up to `len` bytes from `stream_out()`. -/
def popOutput (r : TCPReceiver) (len : Nat) : TCPReceiver :=
  { r with reassembler := r.reassembler.popOutput len }

/-- `stream_out().set_error()`. -/
def setError (r : TCPReceiver) : TCPReceiver :=
  { r with reassembler := { r.reassembler with output := r.reassembler.output.setError } }

end TCPReceiver

end Sponge
