import Sponge.Tcp.FdAdapter
import Sponge.Tcp.OfficialStates
import Sponge.Util.EventLoop

/-!
# The socket (`tcp_helpers/tcp_sponge_socket.{hh,cc}`)

A `TCPSpongeSocket` runs a connection between two descriptors: the adapter of a
datagram device, and one end of a pair of stream sockets of which the owner has
the other. `_initialize_TCP` gives the event loop four rules, one for each
direction of each descriptor; `_tcp_loop` calls it and lets time pass.

The state has, beside the fields of the source, the bytes read from the owner and
those written to it. `segments_out` is never emptied, so what is still to be
written to the device is what lies behind `pulled`.

What `poll` finds, what the system calls return, when the owner gives up and what
time it is are the arguments of a round. A round in which an exception is thrown
is `none`.
-/

namespace Sponge

/-- What the system calls of the callbacks return: for a `read` of the adapter, for its `write` of the segment with this
number, for a `read` and a `writev` of so many bytes on the owner's socket, and whether `shutdown` succeeds. -/
structure Kernel (ι : Type) where
  datagram : Option ι := none
  sends : Nat → Sends := fun _ => .all
  read : Nat → Option (List UInt8) := fun _ => none
  write : Nat → Option Nat := fun _ => none
  shutdown : Bool := true

/-- `TCPSpongeSocket`, as the connection's thread sees it once `_tcp` has a value. -/
structure TCPSpongeSocket (α : Type) where
  threadData : FDWrapper := {}
  datagramAdapter : α
  tcp : Endpoint
  pulled : Nat := 0
  inboundShutdown : Bool := false
  outboundShutdown : Bool := false
  fullyAcked : Bool := false
  received : List UInt8 := []
  delivered : List UInt8 := []
  deriving DecidableEq

/-- `remaining_outbound_capacity`. -/
def TCPConnection.remainingOutboundCapacity (c : TCPConnection) : Nat := c.sender.stream.remainingCapacity

/-- `bytes_in_flight`. -/
def TCPConnection.bytesInFlight (c : TCPConnection) : Nat := c.sender.bytesInFlight

/-- `~TCPConnection`. -/
def TCPConnection.destruct (c : TCPConnection) : TCPConnection := if c.active then c.closeWithError true else c

namespace TCPSpongeSocket

variable {α ι : Type}

/-- `_tcp->segments_out()`. -/
def segmentsOut (s : TCPSpongeSocket α) : List TCPSegment := s.tcp.conn.segmentsOut.drop s.pulled

/-- `_tcp->inbound_stream()`. -/
def inbound (s : TCPSpongeSocket α) : ByteStream := s.tcp.conn.inboundStream

/-- The debugging output of the first rule, which is made once. -/
def noteAcked (s : TCPSpongeSocket α) : TCPSpongeSocket α :=
  { s with fullyAcked := s.fullyAcked || (s.threadData.eof && s.tcp.conn.bytesInFlight == 0) }

/-- A segment, if there is one, is given to the connection. -/
def segmentReceived (s : TCPSpongeSocket α) : Option TCPSegment → Option (TCPSpongeSocket α)
  | none => some s
  | some seg => (s.tcp.step (.segmentReceived seg)).map fun tcp => { s with tcp }

/-- `end_input_stream`, and the flag: the end of the second rule's callback, and its cancellation. -/
def endOutbound (s : TCPSpongeSocket α) : Option (TCPSpongeSocket α) :=
  (s.tcp.step .endInputStream).map fun tcp => { s with tcp, outboundShutdown := true }

/-- The bytes that were read are written to the connection, which must accept them all. -/
def writeOutbound (s : TCPSpongeSocket α) (data : List UInt8) : Option (TCPSpongeSocket α) :=
  (s.tcp.step (.write data)).bind fun tcp =>
    if s.tcp.conn.written data ≠ data.length then none
    else
      let s := { s with tcp, received := s.received ++ data }
      if s.threadData.eof then s.endOutbound else some s

/-- The callback of the second rule. -/
def readOutbound (s : TCPSpongeSocket α) (k : Kernel ι) : Option (TCPSpongeSocket α) :=
  let limit := s.tcp.conn.remainingOutboundCapacity
  (s.threadData.read limit (k.read (min FDWrapper.bufferSize limit))).bind fun r =>
    writeOutbound { s with threadData := r.1 } r.2

/-- At the end of the inbound stream, or on its error, the owner is told. -/
def closeInbound (s : TCPSpongeSocket α) (k : Kernel ι) : Option (TCPSpongeSocket α) :=
  if s.inbound.eof || s.inbound.error then
    (s.threadData.shutdown .shutWR k.shutdown).map fun threadData => { s with threadData, inboundShutdown := true }
  else some s

/-- The callback of the third rule. A `writev` on a socket that was shut down for writing fails. -/
def writeInbound (s : TCPSpongeSocket α) (k : Kernel ι) : Option (TCPSpongeSocket α) :=
  let buffer := s.inbound.peekOutput (min 65536 s.inbound.bufferSize)
  let result := if s.inboundShutdown then none else k.write buffer.length
  (s.threadData.write (.ofString buffer) false [result]).bind fun w =>
    (s.tcp.step (.read w.total)).bind fun tcp =>
      closeInbound { s with threadData := w.fd, tcp, delivered := s.delivered ++ w.out } k

variable [FdAdapter α ι]

/-- The callback of the first rule. -/
def readDatagram (s : TCPSpongeSocket α) (k : Kernel ι) : Option (TCPSpongeSocket α) :=
  k.datagram.bind fun i => (FdAdapter.read s.datagramAdapter i).bind fun r =>
    (segmentReceived { s with datagramAdapter := r.1 } r.2).map noteAcked

/-- The loop of the fourth rule, from the segment with the number `j` on. -/
def writeSegments (sends : Nat → Sends) (j : Nat) : List TCPSegment → α → Option α
  | [], a => some a
  | seg :: rest, a => (FdAdapter.write a seg (sends j)).bind (writeSegments sends (j + 1) rest)

/-- The callback of the fourth rule. -/
def writeDatagrams (s : TCPSpongeSocket α) (k : Kernel ι) : Option (TCPSpongeSocket α) :=
  (writeSegments k.sends 0 s.segmentsOut s.datagramAdapter).map fun datagramAdapter =>
    { s with datagramAdapter, pulled := s.tcp.conn.segmentsOut.length }

/-- The four rules. -/
inductive Tag where
  | datagramIn
  | ownerIn
  | ownerOut
  | datagramOut
  deriving DecidableEq

open EventLoop (Rule Poll waitNextEvent)

/-- The rules that `_initialize_TCP` adds. -/
def rule : Tag → Rule (TCPSpongeSocket α) (Kernel ι)
  | .datagramIn => {
      fd := fun s => FdAdapter.fd s.datagramAdapter
      direction := .In
      callback := fun k s => s.readDatagram k
      interest := fun s => s.tcp.conn.active }
  | .ownerIn => {
      fd := threadData
      direction := .In
      callback := fun k s => s.readOutbound k
      interest := fun s => s.tcp.conn.active && !s.outboundShutdown && decide (0 < s.tcp.conn.remainingOutboundCapacity)
      cancel := endOutbound }
  | .ownerOut => {
      fd := threadData
      direction := .Out
      callback := fun k s => s.writeInbound k
      interest := fun s => !s.inbound.bufferEmpty || ((s.inbound.eof || s.inbound.error) && !s.inboundShutdown) }
  | .datagramOut => {
      fd := fun s => FdAdapter.fd s.datagramAdapter
      direction := .Out
      callback := fun k s => s.writeDatagrams k
      interest := fun s => !s.segmentsOut.isEmpty }

/-- The order in which they are added. -/
def rules : List Tag := [.datagramIn, .ownerIn, .ownerOut, .datagramOut]

/-- `_tcp.value().tick(ms); _datagram_adapter.tick(ms);`. -/
def tick (s : TCPSpongeSocket α) (ms : Nat) (sends : Sends) : Option (TCPSpongeSocket α) :=
  (s.tcp.step (.tick ms)).bind fun tcp =>
    (FdAdapter.tick s.datagramAdapter ms sends).map fun datagramAdapter => { s with tcp, datagramAdapter }

end TCPSpongeSocket

open EventLoop (Poll waitNextEvent)
open TCPSpongeSocket (Tag)

/-- Where the calls of `_tcp_loop` stand: in `connect`, in `listen_and_accept`, in `_tcp_main`, or past it. -/
inductive Phase where
  | connecting
  | accepting
  | running
  | finished
  deriving DecidableEq

/-- The socket and the loop that runs it. `unclean` is the warning of `~TCPConnection`. -/
structure TCPThread (α : Type) where
  socket : TCPSpongeSocket α
  rules : List Tag := TCPSpongeSocket.rules
  phase : Phase
  baseTime : Nat
  unclean : Bool := false
  deriving DecidableEq

/-- One iteration of `_tcp_loop`: what `poll` finds, whether the owner has set `_abort`, the time after it, and what the
system calls of the adapter's `tick` return. -/
structure Round (ι : Type) where
  poll : Poll (Kernel ι)
  abort : Bool := false
  now : Nat
  sends : Sends := .all

namespace TCPThread

variable {α ι : Type}

/-- The condition of the loop. -/
def goesOn (t : TCPThread α) : Bool :=
  let state := t.socket.tcp.conn.state
  match t.phase with
  | .connecting => state == .ofState .synSent
  | .accepting => state == .ofState .listen || state == .ofState .synRcvd || state == .ofState .synSent
  | .running => true
  | .finished => false

/-- What follows the loop: `_tcp_main` is started, or it destroys the connection. What the destructor sends dies with the
queue that it is put in. -/
def leave (t : TCPThread α) (now : Nat) : TCPThread α :=
  match t.phase with
  | .running => { t with phase := .finished, unclean := t.socket.tcp.conn.active }
  | .finished => t
  | _ => { t with phase := .running, baseTime := now }

variable [FdAdapter α ι]

/-- The end of an iteration: an active connection is told how much time has passed. -/
def passTime (t : TCPThread α) (now : Nat) (sends : Sends) : Option (TCPThread α) :=
  if t.socket.tcp.conn.active then
    (t.socket.tick (sub64 now t.baseTime) sends).map fun socket => { t with socket, baseTime := now }
  else some t

/-- One iteration of `_tcp_loop`. -/
def step (t : TCPThread α) (r : Round ι) : Option (TCPThread α) :=
  if t.phase = .finished then none
  else if t.goesOn then
    (waitNextEvent TCPSpongeSocket.rule t.rules t.socket r.poll).bind fun out =>
      let t := { t with socket := out.state, rules := out.rules }
      if out.result = .exit ∨ r.abort then some (t.leave r.now) else t.passTime r.now r.sends
  else some (t.leave r.now)

/-- `connect`, up to its loop; it throws if the connection has not sent a SYN. -/
def connect (adapter : α) (cfg : TCPConfig) (settings : FdAdapterSettings) (now : Nat) : Option (TCPThread α) :=
  ((Endpoint.new cfg).step .connect).bind fun tcp =>
    if tcp.conn.state ≠ .ofState .synSent then none
    else some {
      socket := { datagramAdapter := FdAdapter.setConfig adapter settings, tcp }
      phase := .connecting
      baseTime := now }

/-- `listen_and_accept`, up to its loop. -/
def listenAndAccept (adapter : α) (cfg : TCPConfig) (settings : FdAdapterSettings) (now : Nat) : TCPThread α where
  socket := { datagramAdapter := FdAdapter.setListening (FdAdapter.setConfig adapter settings) true, tcp := .new cfg }
  phase := .accepting
  baseTime := now

end TCPThread

end Sponge
