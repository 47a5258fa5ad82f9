import Sponge.Tcp.TCPReceiver
import Sponge.Tcp.TCPSender

/-!
# The connection (`tcp_connection.hh`, `tcp_connection.cc`)

A connection is a receiver and a sender. What the sender puts out is pulled,
given the receiver's acknowledgment number and window, and put in the
connection's own `segments_out`, from which the owner takes it; here that queue
is never emptied and so is the history of what was sent.

`segment_received` is `none` when the receiver throws.
-/

namespace Sponge

/-- `TCPConnection`. -/
structure TCPConnection where
  cfg : TCPConfig
  receiver : TCPReceiver
  sender : TCPSender
  segmentsOut : List TCPSegment := []
  lingerAfterStreamsFinish : Bool := true
  active : Bool := true
  rst : Bool := false
  lastSegTimer : Nat := 0
  deriving DecidableEq

namespace TCPConnection

/-- `TCPConnection(cfg)`. -/
def new (cfg : TCPConfig) : TCPConnection where
  cfg := cfg
  receiver := .new cfg.recvCapacity
  sender := .new cfg.sendCapacity cfg.rtTimeout cfg.isn

/-- `inbound_stream`. -/
def inboundStream (c : TCPConnection) : ByteStream := c.receiver.streamOut

/-- The window of an outgoing segment: the receiver's, cut at `UINT16_MAX`. -/
def advertised (c : TCPConnection) : UInt16 :=
  if c.receiver.windowSize ≤ 65535 then .ofNat c.receiver.windowSize else 65535

/-- The header as `pull_push_segments` completes it. -/
def outgoing (c : TCPConnection) (seg : TCPSegment) : TCPSegment :=
  if c.rst then { seg with header := { seg.header with rst := true } }
  else
    match c.receiver.ackno with
    | some ackno => { seg with header := { seg.header with ack := true, ackno, win := c.advertised } }
    | none => { seg with header := { seg.header with win := c.advertised } }

/-- `pull_push_segments`. -/
def pullPushSegments (c : TCPConnection) : TCPConnection :=
  { c with
    segmentsOut := c.segmentsOut ++ c.sender.segmentsOut.map c.outgoing
    sender := { c.sender with segmentsOut := [] } }

/-- `fully_dead(0)`: the normal close. -/
def closeCleanly (c : TCPConnection) : TCPConnection :=
  { { c with sender := c.sender.fillWindow }.pullPushSegments with active := false }

/-- `fully_dead(1)`, an error of the peer, and `fully_dead(2)`, one of our own, which is told to the peer. -/
def closeWithError (c : TCPConnection) (ownError : Bool) : TCPConnection :=
  let sender := if ownError && c.sender.segmentsOut.isEmpty then c.sender.sendEmptySegment else c.sender
  let c := { c with rst := true, receiver := c.receiver.setError, sender := sender.setError }
  { c.pullPushSegments with active := false }

/-- The lingering time of `judge_do` has passed: both streams are finished, and nothing has arrived for ten timeouts. -/
def lingered (c : TCPConnection) : Bool :=
  c.lingerAfterStreamsFinish && c.sender.fullFined && c.receiver.fullFined &&
    decide (10 * c.cfg.rtTimeout.toNat ≤ c.lastSegTimer)

/-- `judge_do`. -/
def judgeDo (c : TCPConnection) : TCPConnection :=
  if !c.active then c
  else if c.rst then c.closeWithError false
  else if TCPConfig.maxRetxAttempts < c.sender.resendTryTimes then c.closeWithError true
  else if c.lingered then { c with lingerAfterStreamsFinish := false }.closeCleanly
  else if !c.lingerAfterStreamsFinish && c.sender.fullFined then c.closeCleanly
  else c.pullPushSegments

/-- `if (_sender.syned()) _sender.fill_window();`. -/
def fillIfSyned (c : TCPConnection) : TCPConnection :=
  if c.sender.syned then { c with sender := c.sender.fillWindow } else c

/-- `connect`. -/
def connect (c : TCPConnection) : TCPConnection := { c with sender := c.sender.fillWindow }.judgeDo

/-- `if (seg.header().ack) { ... }`. -/
def ackSender (c : TCPConnection) (seg : TCPSegment) : TCPConnection :=
  if seg.header.ack then { c with sender := c.sender.ackReceived seg.header.ackno seg.header.win } else c

/-- `if (_receiver.full_fined() && not _sender.fined()) { ... }`. -/
def noteLinger (c : TCPConnection) : TCPConnection :=
  if c.receiver.fullFined && !c.sender.fined then { c with lingerAfterStreamsFinish := false } else c

/-- Whether an empty segment is sent in reply: a segment that occupies sequence numbers is acknowledged if nothing
else goes out, and one numbered one before the acknowledgment number asks for the window. -/
def repliesEmpty (c : TCPConnection) (seg : TCPSegment) : Bool :=
  (c.sender.segmentsOut.isEmpty && seg.lengthInSequenceSpace != 0) ||
    (seg.lengthInSequenceSpace == 0 && c.receiver.ackno.any fun ackno => seg.header.seqno == ackno.sub 1)

/-- `if (send_empty) { ... }`. -/
def replyEmpty (c : TCPConnection) (seg : TCPSegment) : TCPConnection :=
  if c.repliesEmpty seg then { c with sender := c.sender.sendEmptySegment } else c

/-- `segment_received` after the receiver has taken the segment. -/
def afterReceive (c : TCPConnection) (seg : TCPSegment) : TCPConnection :=
  if seg.header.syn && !c.sender.syned then c.connect
  else ((c.ackSender seg).fillIfSyned.noteLinger.replyEmpty seg).judgeDo

/-- `segment_received`. -/
def segmentReceived? (c : TCPConnection) (seg : TCPSegment) : Option TCPConnection :=
  let c := { c with lastSegTimer := 0 }
  if seg.header.rst then some { c with rst := true }.judgeDo
  else (c.receiver.segmentReceived? seg).map fun receiver => { c with receiver }.afterReceive seg

/-- `write`; its result is the number of bytes the sender's stream accepts. -/
def write (c : TCPConnection) (data : List UInt8) : TCPConnection :=
  { c with sender := c.sender.write data }.fillIfSyned.judgeDo

/-- The return value of `write`. -/
def written (c : TCPConnection) (data : List UInt8) : Nat := c.sender.stream.writeLength data

/-- `tick`. -/
def tick (c : TCPConnection) (msSinceLastTick : Nat) : TCPConnection :=
  { c with
    lastSegTimer := add64 c.lastSegTimer msSinceLastTick
    sender := c.sender.tick msSinceLastTick }.fillIfSyned.judgeDo

/-- `end_input_stream`. -/
def endInputStream (c : TCPConnection) : TCPConnection :=
  { c with sender := c.sender.endInput.fillWindow }.judgeDo

/-- `inbound_stream().pop_output`, the reader's side of `read`. -/
def popInbound (c : TCPConnection) (len : Nat) : TCPConnection := { c with receiver := c.receiver.popOutput len }

end TCPConnection

end Sponge
