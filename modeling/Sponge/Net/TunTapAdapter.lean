import Sponge.Net.InterfaceSteps
import Sponge.Net.LinkCodec
import Sponge.Net.ParserSafety
import Sponge.Tcp.FdAdapter

/-!
# TCP on TUN and TAP devices (`tcp_helpers/tuntap_adapter.{hh,cc}`)

Over TUN a segment goes out in an IPv4 datagram, over TAP in an Ethernet frame
around one, for which the adapter has a `NetworkInterface`: a segment may wait
there for an ARP reply and go out with a later call. `frames_out` is never emptied
here, so what `send_pending` has still to write is what lies behind `pulled`.

Both adapters are honest. What a datagram carries is said once (`Wraps`), kept
by every call of the interface (`OnlySends`), and read back by whichever adapter
gets the frame.
-/

namespace Sponge

/-- A packet device: its descriptor and the packets written to it. -/
structure PacketDevice where
  fd : FDWrapper := {}
  out : List (List UInt8) := []
  deriving DecidableEq

namespace PacketDevice

/-- `read()`, without a limit. -/
def read (d : PacketDevice) (result : Option (List UInt8)) : Option (PacketDevice × List UInt8) :=
  (d.fd.read (word64 - 1) result).map fun r => ({ d with fd := r.1 }, r.2)

/-- `write`, in which `writev` returns `result`. It throws on an error. A packet device takes a packet in one piece, so there
is no second call. -/
def write (d : PacketDevice) (packet : BufferList) (result : Option Nat) : Option PacketDevice :=
  (d.fd.write (.ofBuffers packet) true [result]).map fun w => { fd := w.fd, out := d.out ++ [w.out] }

theorem write_whole (d : PacketDevice) (packet : BufferList) :
    d.write packet (some packet.size) = some { fd := d.fd.registerWrite, out := d.out ++ [packet.concatenate] } := by
  obtain ⟨w, run, fd, out⟩ := d.fd.write_whole (.ofBuffers packet)
  have size : (BufferViewList.ofBuffers packet).size = packet.size := rfl
  have bytes : (BufferViewList.ofBuffers packet).contents = packet.concatenate := rfl
  rw [size] at run
  rw [write, run, Option.map_some, fd, out, bytes]

/-- A packet that was written is on the device. -/
theorem write_cases {d d' : PacketDevice} {packet : BufferList} {result : Option Nat} (run : d.write packet result = some d') :
    d' = { fd := d.fd.registerWrite, out := d.out ++ [packet.concatenate] } := by
  obtain ⟨w, written, rfl⟩ := Option.map_eq_some_iff.1 run
  obtain ⟨out, fd⟩ := FDWrapper.write_single written
  rw [out, fd]
  rfl

theorem read_cases {d d' : PacketDevice} {result : Option (List UInt8)} {packet : List UInt8}
    (run : d.read result = some (d', packet)) :
    result = some packet ∧ d'.out = d.out ∧ d'.fd.readCount = d.fd.registerRead.readCount := by
  obtain ⟨⟨fd, str⟩, taken, same⟩ := Option.map_eq_some_iff.1 run
  obtain ⟨rfl, rfl⟩ := Prod.mk.inj same
  obtain ⟨arrived, -, rfl⟩ := FDWrapper.read_spec taken
  refine ⟨arrived, rfl, ?_⟩
  show (FDWrapper.noteEof _ _ _).readCount + 1 = _
  rw [FDWrapper.noteEof_readCount]
  rfl

end PacketDevice

/-! ### Segments in datagrams -/

/-- The datagram is what an adapter with the configuration wraps the segment in. -/
def Wraps (cfg : FdAdapterConfig) (seg : TCPSegment) (dgram : InternetDatagram) : Prop :=
  seg.Fits ∧ ∃ wrapped, TCPOverIPv4Adapter.wrapTcpInIp { config := cfg } seg = some (wrapped, dgram)

theorem Wraps.of_wrap {a : TCPOverIPv4Adapter} {seg wrapped : TCPSegment} {dgram : InternetDatagram} (fits : seg.Fits)
    (run : a.wrapTcpInIp seg = some (wrapped, dgram)) : Wraps a.config seg dgram :=
  ⟨fits, wrapped, run⟩

/-- A segment that fits can be wrapped, and its datagram sent. -/
theorem TCPSegment.Fits.wrap {seg : TCPSegment} (fits : seg.Fits) (a : TCPOverIPv4Adapter) :
    ∃ wrapped dgram out cksum ipCksum payload, a.wrapTcpInIp seg = some (wrapped, dgram) ∧ dgram.serialize = some out ∧
      IPv4Datagram.parse {} out.concatenate =
        some (⟨{ a.ipHeader (a.addressed seg) with cksum := ipCksum }, .ofString payload⟩, .noError) ∧
      TCPSegment.parse {} payload (a.ipHeader (a.addressed seg)).pseudoCksum =
        some (⟨{ (a.addressed seg).header with cksum }, seg.payload⟩, .noError) := by
  obtain ⟨doff, small⟩ := fits
  have limit : TCPConfig.maxPayloadSize = 1000 := rfl
  have words : seg.header.doff.toNat = 5 := by rw [doff]; rfl
  have least : 5 ≤ (a.addressed seg).header.doff := by
    show 5 ≤ seg.header.doff
    rw [doff]
    decide
  have most : (a.addressed seg).header.doff ≤ 15 := by
    show seg.header.doff ≤ 15
    rw [doff]
    decide
  obtain ⟨cksum, payload, tcp, length, segment⟩ := (a.addressed seg).parse_serialized least most (by
    show 4 * seg.header.doff.toNat + seg.payload.length ≤ 65535
    omega) (.inr ⟨a.ipHeader (a.addressed seg), rfl⟩)
  have total : (a.ipHeader (a.addressed seg)).len.toNat = 4 * 5 + payload.size := by
    rw [length]
    show (UInt16.ofNat (5 * 4 + seg.header.doff.toNat * 4 + seg.payload.length)).toNat =
      4 * 5 + (4 * seg.header.doff.toNat + seg.payload.length)
    rw [UInt16.toNat_ofNat_of_lt' (show _ < 2 ^ 16 by omega)]
    omega
  obtain ⟨ipCksum, out, ip, -, -, datagram⟩ := IPv4Datagram.parse_serialized ⟨a.ipHeader (a.addressed seg), payload⟩
    ⟨rfl, by show (5 : UInt8) ≤ 5; decide, by show (5 : UInt8) ≤ 15; decide, by show (0 : UInt16) < 0x2000; decide⟩ total
  exact ⟨_, _, out, cksum, ipCksum, payload.concatenate, by rw [TCPOverIPv4Adapter.wrapTcpInIp, tcp]; rfl, ip, datagram {},
    segment {}⟩

/-- **A wrapped segment is read back** from the bytes of its datagram, by every adapter that returns anything for them, and
that adapter's configuration then mirrors the one it was wrapped with. -/
theorem Wraps.spec {cfg : FdAdapterConfig} {seg : TCPSegment} {dgram : InternetDatagram} (wraps : Wraps cfg seg dgram) :
    ∃ out received, dgram.serialize = some out ∧ IPv4Datagram.parse {} out.concatenate = some (received, .noError) ∧
      ∀ (b b' : TCPOverIPv4Adapter) (got : TCPSegment), b.unwrapTcpInIp received = some (b', some got) →
        got.content = seg.content ∧ TCPOverIPv4Adapter.Mirrors { config := cfg } b' := by
  obtain ⟨fits, wrapped, wrap⟩ := wraps
  obtain ⟨_, _, out, cksum, ipCksum, payload, wrap', serialized, parsed, segment⟩ := fits.wrap { config := cfg }
  cases wrap.symm.trans wrap'
  refine ⟨out, _, serialized, parsed, fun b b' got run => ?_⟩
  obtain ⟨-, accepts, -, -⟩ := TCPOverIPv4Adapter.unwrap_accepts run
  obtain ⟨buffer, one, parsed'⟩ := accepts.parsed
  cases one
  cases segment.symm.trans parsed'
  refine ⟨rfl, ?_, ?_⟩
  · exact congrArg₂ Address.mk accepts.src accepts.sport
  · exact congrArg₂ Address.mk accepts.dst accepts.dport

/-! ### TUN -/

/-- `TCPOverIPv4OverTunFdAdapter`. -/
structure TCPOverIPv4OverTunFdAdapter extends TCPOverIPv4Adapter where
  tun : PacketDevice := {}
  deriving DecidableEq

namespace TCPOverIPv4OverTunFdAdapter

/-- `read` after the device has been read. -/
def receive (a : TCPOverIPv4OverTunFdAdapter) (packet : List UInt8) :
    Option (TCPOverIPv4OverTunFdAdapter × Option TCPSegment) :=
  (IPv4Datagram.parse {} packet).bind fun parsed =>
    if parsed.2 ≠ .noError then some (a, none)
    else (a.unwrapTcpInIp parsed.1).map fun r => ({ a with toTCPOverIPv4Adapter := r.1 }, r.2)

/-- `read`. -/
def read (a : TCPOverIPv4OverTunFdAdapter) (result : Option (List UInt8)) :
    Option (TCPOverIPv4OverTunFdAdapter × Option TCPSegment) :=
  (a.tun.read result).bind fun r => receive { a with tun := r.1 } r.2

/-- `write`. -/
def write (a : TCPOverIPv4OverTunFdAdapter) (seg : TCPSegment) (sends : Sends) : Option TCPOverIPv4OverTunFdAdapter :=
  (a.wrapTcpInIp seg).bind fun wrapped =>
    wrapped.2.serialize.bind fun packet => (a.tun.write packet (sends 0 packet.size)).map fun tun => { a with tun }

instance : FdAdapter TCPOverIPv4OverTunFdAdapter (Option (List UInt8)) where
  fd a := a.tun.fd
  read := read
  write := write
  tick a _ _ := some a
  setConfig a cfg := { a with config := cfg.toFdAdapterConfig }
  setListening a l := { a with listening := l }

theorem receive_cases {a a' : TCPOverIPv4OverTunFdAdapter} {packet : List UInt8} {got : Option TCPSegment}
    (run : a.receive packet = some (a', got)) :
    a'.tun = a.tun ∧ ((got = none ∧ a' = a) ∨ ∃ dgram base, IPv4Datagram.parse {} packet = some (dgram, .noError) ∧
      a.unwrapTcpInIp dgram = some (base, got) ∧ a' = { a with toTCPOverIPv4Adapter := base }) := by
  obtain ⟨⟨dgram, result⟩, parsed, rest⟩ := Option.bind_eq_some_iff.1 run
  dsimp only at rest
  split at rest
  · obtain ⟨rfl, rfl⟩ := Prod.mk.inj (Option.some.inj rest)
    exact ⟨rfl, .inl ⟨rfl, rfl⟩⟩
  · rename_i fine
    obtain ⟨⟨base, ret⟩, unwrap, same⟩ := Option.map_eq_some_iff.1 rest
    obtain ⟨rfl, rfl⟩ := Prod.mk.inj same
    rw [not_not.1 fine] at parsed
    exact ⟨rfl, .inr ⟨dgram, base, parsed, unwrap, rfl⟩⟩

/-- Every packet written is a datagram that carries a segment of `S`. -/
def Holds (S : TCPSegment → Prop) (a : TCPOverIPv4OverTunFdAdapter) : Prop :=
  ∀ packet ∈ a.tun.out, ∃ cfg seg dgram out, S seg ∧ Wraps cfg seg dgram ∧ dgram.serialize = some out ∧
    packet = out.concatenate

/-- **TCP over TUN is honest.** -/
instance : Honest TCPOverIPv4OverTunFdAdapter (Option (List UInt8)) (List UInt8) where
  out a := a.tun.out
  Arrives packet i := i = some packet
  Holds := Holds
  mono weaker holds packet member := by
    obtain ⟨cfg, seg, dgram, out, is, rest⟩ := holds packet member
    exact ⟨cfg, seg, dgram, out, weaker seg is, rest⟩
  read holds run := by
    obtain ⟨⟨tun, packet⟩, read, rest⟩ := Option.bind_eq_some_iff.1 run
    obtain ⟨-, out, -⟩ := PacketDevice.read_cases read
    rw [Holds, (receive_cases rest).1]
    show ∀ packet ∈ tun.out, _
    rw [out]
    exact holds
  write holds is fits run := by
    obtain ⟨⟨wrapped, dgram⟩, wrap, rest⟩ := Option.bind_eq_some_iff.1 run
    obtain ⟨packet, serialized, rest⟩ := Option.bind_eq_some_iff.1 rest
    obtain ⟨tun, written, rfl⟩ := Option.map_eq_some_iff.1 rest
    rw [PacketDevice.write_cases written]
    exact List.forall_mem_append.2 ⟨holds,
      List.forall_mem_singleton.2 ⟨_, _, dgram, packet, is, .of_wrap fits wrap, serialized, rfl⟩⟩
  tick holds run := by
    cases run
    exact holds
  setConfig _ holds := holds
  setListening _ holds := holds
  carried holds member arrives run := by
    subst arrives
    obtain ⟨cfg, seg, dgram, out, is, wraps, serialized, rfl⟩ := holds _ member
    obtain ⟨out', received, written, parsed, content⟩ := wraps.spec
    cases serialized.symm.trans written
    obtain ⟨⟨tun, packet⟩, read, rest⟩ := Option.bind_eq_some_iff.1 run
    obtain ⟨same, -, -⟩ := PacketDevice.read_cases read
    cases same
    obtain ⟨-, nothing | ⟨dgram', base, parsed', unwrap, -⟩⟩ := receive_cases rest
    · cases nothing.1
    · cases parsed.symm.trans parsed'
      exact ⟨seg, is, (content _ _ _ unwrap).1⟩

end TCPOverIPv4OverTunFdAdapter

/-! ### The datagrams of an interface -/

namespace NetworkInterface

/-- Whatever waits or was put out as a datagram is one of `P`. -/
structure OnlySends (P : InternetDatagram → Prop) (n : NetworkInterface) : Prop where
  queue : ∀ ip, ∀ dgram ∈ n.sentDgram ip, P dgram
  payloads : ∀ payload ∈ n.ipv4Payloads, ∃ dgram, P dgram ∧ dgram.serialize = some payload

namespace OnlySends

variable {P : InternetDatagram → Prop} {n n' : NetworkInterface}

theorem asks (h : n.OnlySends P) (asks : Asks n n') : n'.OnlySends P := by
  constructor
  · rw [asks.queue]
    exact h.queue
  · rw [asks.payloads]
    exact h.payloads

theorem learn (h : n.OnlySends P) (arpm : ARPMessage) : (n.learn arpm).OnlySends P := ⟨h.queue, h.payloads⟩

theorem tick (h : n.OnlySends P) (ms : Nat) : (n.tick ms).OnlySends P := ⟨h.queue, h.payloads⟩

theorem queue_update {ip : UInt32} {l : List InternetDatagram} (h : n.OnlySends P) (all : ∀ dgram ∈ l, P dgram) :
    ∀ other, ∀ dgram ∈ Function.update n.sentDgram ip l other, P dgram := by
  intro other
  by_cases here : other = ip
  · rw [here, Function.update_self]
    exact all
  · rw [Function.update_of_ne here]
    exact h.queue other

theorem sendDatagram (h : n.OnlySends P) {dgram : InternetDatagram} (is : P dgram) (hop : UInt32) :
    (n.sendDatagram dgram hop).interface.OnlySends P := by
  cases known : n.usable hop with
  | none =>
    obtain ⟨m, asks, run⟩ := n.sendDatagram_of_none dgram known
    rw [run]
    have asked := h.asks asks
    exact ⟨asked.queue_update (List.forall_mem_append.2 ⟨asked.queue hop, List.forall_mem_singleton.2 is⟩), asked.payloads⟩
  | some se =>
    rw [sendDatagram_of_some dgram known]
    rcases n.sendDgram_spec dgram se.eAddr with ⟨run, -⟩ | ⟨payload, written, run⟩
    · rw [run]
      exact h
    · rw [run]
      refine ⟨h.queue, ?_⟩
      rw [ipv4Payloads_append (n := n) rfl]
      exact List.forall_mem_append.2 ⟨h.payloads, List.forall_mem_singleton.2 ⟨dgram, is, written⟩⟩

theorem flushes (h : n.OnlySends P) {ip : UInt32} {sent left : List InternetDatagram} (flushes : Flushes ip sent left n n')
    (queued : n.sentDgram ip = sent ++ left) : n'.OnlySends P := by
  have waiting := h.queue ip
  rw [queued, List.forall_mem_append] at waiting
  refine ⟨?_, fun payload member => ?_⟩
  · rw [flushes.queue]
    exact h.queue_update waiting.2
  · have there := List.mem_map_of_mem (f := some) member
    rw [flushes.payloads, List.mem_append] at there
    rcases there with old | new
    · obtain ⟨payload', old, same⟩ := List.mem_map.1 old
      cases same
      exact h.payloads payload old
    · obtain ⟨dgram, sent, written⟩ := List.mem_map.1 new
      exact ⟨dgram, waiting.1 dgram sent, written⟩

theorem recvFrame (h : n.OnlySends P) (frame : EthernetFrame) : (n.recvFrame frame).interface.OnlySends P := by
  cases accepted : n.accepts frame with
  | none =>
    rw [recvFrame_of_none accepted]
    exact h
  | some arpm =>
    obtain ⟨opcode, meant, run⟩ := recvFrame_of_some accepted
    rw [run]
    rcases opcode with request | reply
    · obtain ⟨m, asks, same⟩ := recvArp_request meant request
      rw [same]
      exact (h.asks asks).learn arpm
    · obtain ⟨m, flushed, same⟩ := recvArp_reply meant reply rfl
      have after := h.flushes flushed (List.takeWhile_append_dropWhile).symm
      rw [same]
      split
      · exact after.learn arpm
      · exact after

end OnlySends

/-- What follows an ARP message returns nothing. -/
theorem recvArp_result (n : NetworkInterface) (arpm : ARPMessage) {r : Option InternetDatagram}
    (returned : (n.recvArp arpm).result = some r) : r = none := by
  unfold recvArp at returned
  split at returned
  · exact (Option.some.inj returned).symm
  · dsimp only at returned
    generalize (if arpm.opcode = ARPMessage.opcodeRequest then _ else _ : Call Unit) = replied at returned
    unfold Call.andThen at returned
    split at returned
    · cases returned
    · exact (Option.some.inj returned).symm

/-- **A datagram that `recv_frame` returns** was the payload of an IPv4 frame. -/
theorem recvFrame_datagram (n : NetworkInterface) (frame : EthernetFrame) {dgram : InternetDatagram}
    (returned : (n.recvFrame frame).result = some (some dgram)) :
    frame.header.dst = n.ethernetAddress ∧ frame.header.type = EthernetHeader.typeIPv4 ∧
      frame.payload.toBuffer.bind ({} : IPv4Datagram).parse = some (dgram, .noError) := by
  unfold recvFrame at returned
  split at returned
  · cases returned
  · rename_i kind
    have ours : frame.header.dst = n.ethernetAddress ∧ frame.header.type = EthernetHeader.typeIPv4 := by
      unfold pkgType at kind
      split at kind
      · rename_i here
        split at kind
        · cases kind
        split at kind
        · rename_i type
          exact ⟨here, type⟩
        · cases kind
      · split at kind <;> cases kind
    refine ⟨ours.1, ours.2, ?_⟩
    split at returned
    · cases returned
    · rename_i idata err parsed
      dsimp only at returned
      split at returned
      · rename_i fine
        cases returned
        rw [parsed, fine]
      · cases returned
  · split at returned
    · cases returned
    · split at returned
      · cases n.recvArp_result _ returned
      · cases returned

end NetworkInterface

/-! ### TAP -/

/-- `EthernetFrame{}`. -/
def EthernetFrame.blank : EthernetFrame := ⟨⟨.zero, .zero, 0⟩, {}⟩

/-- `TCPOverIPv4OverEthernetAdapter`. -/
structure TCPOverIPv4OverEthernetAdapter extends TCPOverIPv4Adapter where
  tap : PacketDevice := {}
  interface : NetworkInterface
  nextHop : UInt32
  pulled : Nat := 0

namespace TCPOverIPv4OverEthernetAdapter

/-- The loop of `send_pending`, from the frame with the number `j` on. -/
def writeFrames (sends : Sends) (j : Nat) : List EthernetFrame → PacketDevice → Option PacketDevice
  | [], tap => some tap
  | frame :: rest, tap => (tap.write frame.serialize (sends j frame.serialize.size)).bind (writeFrames sends (j + 1) rest)

/-- `send_pending`. -/
def sendPending (a : TCPOverIPv4OverEthernetAdapter) (sends : Sends) : Option TCPOverIPv4OverEthernetAdapter :=
  (writeFrames sends 0 (a.interface.framesOut.drop a.pulled) a.tap).map fun tap =>
    { a with tap, pulled := a.interface.framesOut.length }

/-- The constructor: a blank frame goes first. -/
def new (tap : FDWrapper) (ethAddress : EthernetAddress) (ipAddress nextHop : UInt32) (result : Option Nat) :
    Option TCPOverIPv4OverEthernetAdapter :=
  (PacketDevice.write { fd := tap } EthernetFrame.blank.serialize result).map fun tap =>
    { tap, interface := { ethernetAddress := ethAddress, ipAddress }, nextHop }

/-- The end of `read`: what the interface returned is taken for TCP. -/
def unwrap (a : TCPOverIPv4OverEthernetAdapter) :
    Option InternetDatagram → Option (TCPOverIPv4OverEthernetAdapter × Option TCPSegment)
  | none => some (a, none)
  | some dgram => (a.unwrapTcpInIp dgram).map fun r => ({ a with toTCPOverIPv4Adapter := r.1 }, r.2)

/-- `read` after the device has been read. -/
def receive (a : TCPOverIPv4OverEthernetAdapter) (packet : List UInt8) (sends : Sends) :
    Option (TCPOverIPv4OverEthernetAdapter × Option TCPSegment) :=
  (EthernetFrame.blank.parse packet).bind fun parsed =>
    if parsed.2 ≠ .noError then some (a, none)
    else
      let call := a.interface.recvFrame parsed.1
      call.result.bind fun ipDgram =>
        (sendPending { a with interface := call.interface } sends).bind fun a => a.unwrap ipDgram

/-- `read`. What the system calls return is what is read, and then what becomes of the frames that go out. -/
def read (a : TCPOverIPv4OverEthernetAdapter) (results : Option (List UInt8) × Sends) :
    Option (TCPOverIPv4OverEthernetAdapter × Option TCPSegment) :=
  (a.tap.read results.1).bind fun r => receive { a with tap := r.1 } r.2 results.2

/-- `tick`. -/
def tick (a : TCPOverIPv4OverEthernetAdapter) (msSinceLastTick : Nat) (sends : Sends) : Option TCPOverIPv4OverEthernetAdapter :=
  sendPending { a with interface := a.interface.tick msSinceLastTick } sends

/-- `write`. -/
def write (a : TCPOverIPv4OverEthernetAdapter) (seg : TCPSegment) (sends : Sends) : Option TCPOverIPv4OverEthernetAdapter :=
  (a.wrapTcpInIp seg).bind fun wrapped =>
    let call := a.interface.sendDatagram wrapped.2 a.nextHop
    call.result.bind fun _ => sendPending { a with interface := call.interface } sends

instance : FdAdapter TCPOverIPv4OverEthernetAdapter (Option (List UInt8) × Sends) where
  fd a := a.tap.fd
  read := read
  write := write
  tick := tick
  setConfig a cfg := { a with config := cfg.toFdAdapterConfig }
  setListening a l := { a with listening := l }

section Pending

variable {a a' : TCPOverIPv4OverEthernetAdapter}

theorem writeFrames_cases {sends : Sends} {j : Nat} {frames : List EthernetFrame} {tap tap' : PacketDevice}
    (run : writeFrames sends j frames tap = some tap') :
    tap'.out = tap.out ++ frames.map (·.serialize.concatenate) ∧ tap'.fd.readCount = tap.fd.readCount := by
  induction frames generalizing j tap with
  | nil =>
    cases run
    exact ⟨(List.append_nil _).symm, rfl⟩
  | cons frame rest ih =>
    obtain ⟨mid, written, run⟩ := Option.bind_eq_some_iff.1 run
    obtain ⟨out, count⟩ := ih run
    rw [PacketDevice.write_cases written] at out count
    refine ⟨?_, count⟩
    rw [out, List.append_assoc]
    rfl

theorem writeFrames_returns {sends : Sends} (whole : sends.Whole) (j : Nat) (frames : List EthernetFrame) (tap : PacketDevice) :
    ∃ tap', writeFrames sends j frames tap = some tap' := by
  induction frames generalizing j tap with
  | nil => exact ⟨tap, rfl⟩
  | cons frame rest ih =>
    rw [writeFrames, whole, PacketDevice.write_whole]
    exact ih _ _

/-- **`send_pending`** writes every frame that was not written. -/
theorem sendPending_cases {sends : Sends} (run : a.sendPending sends = some a') :
    ∃ tap, a' = { a with tap, pulled := a.interface.framesOut.length } ∧
      tap.out = a.tap.out ++ (a.interface.framesOut.drop a.pulled).map (·.serialize.concatenate) ∧
      tap.fd.readCount = a.tap.fd.readCount := by
  obtain ⟨tap, written, rfl⟩ := Option.map_eq_some_iff.1 run
  exact ⟨tap, rfl, writeFrames_cases written⟩

theorem sendPending_returns (a : TCPOverIPv4OverEthernetAdapter) {sends : Sends} (whole : sends.Whole) :
    ∃ a', a.sendPending sends = some a' := by
  obtain ⟨tap, run⟩ := writeFrames_returns whole 0 (a.interface.framesOut.drop a.pulled) a.tap
  exact ⟨_, by rw [sendPending, run, Option.map_some]⟩

theorem unwrap_cases {ipDgram : Option InternetDatagram} {got : Option TCPSegment}
    (run : a.unwrap ipDgram = some (a', got)) :
    a' = { a with toTCPOverIPv4Adapter := a'.toTCPOverIPv4Adapter } ∧
      (∀ seg, got = some seg → ∃ dgram, ipDgram = some dgram ∧
        a.unwrapTcpInIp dgram = some (a'.toTCPOverIPv4Adapter, some seg)) := by
  cases ipDgram with
  | none =>
    obtain ⟨rfl, rfl⟩ := Prod.mk.inj (Option.some.inj run)
    exact ⟨rfl, fun seg none => by cases none⟩
  | some dgram =>
    obtain ⟨⟨base, ret⟩, unwrapped, same⟩ := Option.map_eq_some_iff.1 run
    obtain ⟨rfl, rfl⟩ := Prod.mk.inj same
    refine ⟨rfl, fun seg returned => ⟨dgram, rfl, ?_⟩⟩
    rw [unwrapped, ← returned]

/-- **`read`**: nothing, or a frame for the interface, after which the pending frames are written. -/
theorem receive_cases {packet : List UInt8} {sends : Sends} {got : Option TCPSegment}
    (run : a.receive packet sends = some (a', got)) :
    (a' = a ∧ got = none) ∨
      ∃ frame ipDgram b, EthernetFrame.blank.parse packet = some (frame, .noError) ∧
        (a.interface.recvFrame frame).result = some ipDgram ∧
        sendPending { a with interface := (a.interface.recvFrame frame).interface } sends = some b ∧
        b.unwrap ipDgram = some (a', got) := by
  obtain ⟨⟨frame, result⟩, parsed, rest⟩ := Option.bind_eq_some_iff.1 run
  dsimp only at rest
  split at rest
  · obtain ⟨rfl, rfl⟩ := Prod.mk.inj (Option.some.inj rest)
    exact Or.inl ⟨rfl, rfl⟩
  · rename_i fine
    rw [not_not.1 fine] at parsed
    obtain ⟨ipDgram, returned, rest⟩ := Option.bind_eq_some_iff.1 rest
    obtain ⟨b, pending, rest⟩ := Option.bind_eq_some_iff.1 rest
    exact Or.inr ⟨frame, ipDgram, b, parsed, returned, pending, rest⟩

end Pending

/-- A frame that, if it is for IPv4, is around a datagram of `P`. -/
def FrameOf (P : InternetDatagram → Prop) (packet : List UInt8) : Prop :=
  ∃ frame : EthernetFrame, packet = frame.serialize.concatenate ∧
    (frame.header.type = EthernetHeader.typeIPv4 → ∃ dgram, P dgram ∧ dgram.serialize = some frame.payload)

/-- What waits in the interface, what it has put out and what was written to the device are datagrams of `P`, but for ARP
frames and the first one. -/
structure Holds (P : InternetDatagram → Prop) (a : TCPOverIPv4OverEthernetAdapter) : Prop where
  interface : a.interface.OnlySends P
  tap : ∀ packet ∈ a.tap.out, FrameOf P packet

section Holds

variable {P : InternetDatagram → Prop} {a a' : TCPOverIPv4OverEthernetAdapter}

theorem Holds.sendPending (h : Holds P a) {sends : Sends} (run : a.sendPending sends = some a') : Holds P a' := by
  obtain ⟨tap, rfl, out, -⟩ := sendPending_cases run
  refine ⟨h.interface, ?_⟩
  show ∀ packet ∈ tap.out, _
  rw [out]
  refine List.forall_mem_append.2 ⟨h.tap, fun packet member => ?_⟩
  obtain ⟨frame, there, rfl⟩ := List.mem_map.1 member
  refine ⟨frame, rfl, fun ipv4 => h.interface.payloads frame.payload ?_⟩
  refine List.mem_map.2 ⟨frame, List.mem_filter.2 ⟨List.mem_of_mem_drop there, ?_⟩, rfl⟩
  rw [ipv4]
  exact beq_self_eq_true _

theorem Holds.mono {P' : InternetDatagram → Prop} (weaker : ∀ dgram, P dgram → P' dgram) (h : Holds P a) : Holds P' a := by
  refine ⟨⟨fun ip dgram member => weaker dgram (h.interface.queue ip dgram member), fun payload member => ?_⟩,
    fun packet member => ?_⟩
  · obtain ⟨dgram, is, written⟩ := h.interface.payloads payload member
    exact ⟨dgram, weaker dgram is, written⟩
  · obtain ⟨frame, bytes, ipv4⟩ := h.tap packet member
    refine ⟨frame, bytes, fun type => ?_⟩
    obtain ⟨dgram, is, written⟩ := ipv4 type
    exact ⟨dgram, weaker dgram is, written⟩

theorem Holds.read (h : Holds P a) {i : Option (List UInt8) × Sends} {got : Option TCPSegment} (run : a.read i = some (a', got)) :
    Holds P a' := by
  obtain ⟨⟨tap, packet⟩, read, rest⟩ := Option.bind_eq_some_iff.1 run
  obtain ⟨-, out, -⟩ := PacketDevice.read_cases read
  have device : ∀ packet ∈ tap.out, FrameOf P packet := by
    rw [out]
    exact h.tap
  rcases receive_cases rest with ⟨rfl, -⟩ | ⟨frame, ipDgram, b, -, -, pending, unwrapped⟩
  · exact ⟨h.interface, device⟩
  · have received : Holds P { a with tap, interface := (a.interface.recvFrame frame).interface } :=
      ⟨h.interface.recvFrame frame, device⟩
    have written := received.sendPending pending
    rw [(unwrap_cases unwrapped).1]
    exact ⟨written.interface, written.tap⟩

theorem Holds.write (h : Holds P a) {seg : TCPSegment} {sends : Sends} (fits : seg.Fits)
    (is : ∀ dgram, Wraps a.config seg dgram → P dgram) (run : a.write seg sends = some a') : Holds P a' := by
  obtain ⟨⟨wrapped, dgram⟩, wrap, rest⟩ := Option.bind_eq_some_iff.1 run
  obtain ⟨-, -, pending⟩ := Option.bind_eq_some_iff.1 rest
  have sent : Holds P { a with interface := (a.interface.sendDatagram dgram a.nextHop).interface } :=
    ⟨h.interface.sendDatagram (is dgram (.of_wrap fits wrap)) a.nextHop, h.tap⟩
  exact sent.sendPending pending

theorem Holds.tick (h : Holds P a) {ms : Nat} {sends : Sends} (run : a.tick ms sends = some a') : Holds P a' := by
  have later : Holds P { a with interface := a.interface.tick ms } := ⟨h.interface.tick ms, h.tap⟩
  exact later.sendPending run

/-- **What is read from a frame** was in a datagram that the frame is around. -/
theorem read_of_frame {packet : List UInt8} (frameOf : FrameOf P packet) {seg : TCPSegment}
    {sends : Sends} (run : a.read (some packet, sends) = some (a', some seg)) :
    ∃ (dgram received : InternetDatagram) (out : BufferList) (base : TCPOverIPv4Adapter), P dgram ∧
      dgram.serialize = some out ∧ IPv4Datagram.parse {} out.concatenate = some (received, .noError) ∧
      base.unwrapTcpInIp received = some (a'.toTCPOverIPv4Adapter, some seg) := by
  obtain ⟨⟨tap, packet⟩, read, rest⟩ := Option.bind_eq_some_iff.1 run
  obtain ⟨same, -, -⟩ := PacketDevice.read_cases read
  cases same
  obtain ⟨frame, rfl, ipv4⟩ := frameOf
  rcases receive_cases rest with ⟨-, nothing⟩ | ⟨frame', ipDgram, b, parsed, returned, -, unwrapped⟩
  · cases nothing
  dsimp only at parsed
  rw [EthernetFrame.concatenate_serialize, EthernetFrame.parse_bytes] at parsed
  cases parsed
  obtain ⟨received, rfl, unwrap⟩ := (unwrap_cases unwrapped).2 seg rfl
  obtain ⟨-, type, payload⟩ := a.interface.recvFrame_datagram _ returned
  obtain ⟨dgram, is, written⟩ := ipv4 type
  exact ⟨dgram, received, _, _, is, written, payload, unwrap⟩

end Holds

/-- The datagram carries a segment of `S`. -/
def WrapsSome (S : TCPSegment → Prop) (dgram : InternetDatagram) : Prop := ∃ cfg seg, S seg ∧ Wraps cfg seg dgram

/-- **TCP over Ethernet is honest.** -/
instance : Honest TCPOverIPv4OverEthernetAdapter (Option (List UInt8) × Sends) (List UInt8) where
  out a := a.tap.out
  Arrives packet i := i.1 = some packet
  Holds S := Holds (WrapsSome S)
  mono weaker := by
    refine Holds.mono fun dgram => ?_
    rintro ⟨cfg, seg, is, wraps⟩
    exact ⟨cfg, seg, weaker seg is, wraps⟩
  read holds run := holds.read run
  write holds is fits run := holds.write fits (fun dgram wraps => ⟨_, _, is, wraps⟩) run
  tick holds run := holds.tick run
  setConfig _ holds := ⟨holds.interface, holds.tap⟩
  setListening _ holds := ⟨holds.interface, holds.tap⟩
  carried {_ _ _ _ _ i _} holds member arrives run := by
    obtain ⟨result, sends⟩ := i
    cases arrives
    obtain ⟨dgram, received, out, base, ⟨cfg, seg, is, wraps⟩, written, parsed, unwrap⟩ :=
      read_of_frame (holds.tap _ member) run
    obtain ⟨out', received', written', parsed', content⟩ := wraps.spec
    cases written.symm.trans written'
    cases parsed.symm.trans parsed'
    exact ⟨seg, is, (content _ _ _ unwrap).1⟩

/-! ### Any number of stations on one wire -/

/-- An adapter, the segments it was given and those it returned, each with the configuration the adapter had then. -/
structure Station where
  adapter : TCPOverIPv4OverEthernetAdapter
  given : List (FdAdapterConfig × TCPSegment) := []
  got : List (FdAdapterConfig × TCPSegment) := []

/-- A call of the owner of a station. -/
def Station.step (s : Station) (op : AdapterOp (Option (List UInt8) × Sends)) : Option Station :=
  (FdAdapter.perform s.adapter op).map fun r => {
    adapter := r.1
    given := match op with
      | .write seg _ => s.given ++ [(s.adapter.config, seg)]
      | _ => s.given
    got := s.got ++ r.2.toList.map (r.1.config, ·) }

/-- What was written on the device of some station may arrive at any station, any number of times and in any order. What is
given to an adapter is made by a sender. -/
def Station.Allows {κ : Type} (wire : κ → Station) : AdapterOp (Option (List UInt8) × Sends) → Prop
  | .read i => ∃ k, ∃ packet ∈ (wire k).adapter.tap.out, i.1 = some packet
  | .write seg _ => seg.Fits
  | .tick _ _ => True

/-- A station takes a step. -/
def stepAt {κ : Type} [DecidableEq κ] (wire : κ → Station) (a : κ × AdapterOp (Option (List UInt8) × Sends)) :
    Option (κ → Station) :=
  ((wire a.1).step a.2).map (Function.update wire a.1)

/-- A station that has done nothing yet, with any configuration. -/
structure Station.New (s : Station) : Prop where
  adapter : ∃ tap eth ip hop result a, TCPOverIPv4OverEthernetAdapter.new tap eth ip hop result = some a ∧
    s.adapter = { a with toTCPOverIPv4Adapter := s.adapter.toTCPOverIPv4Adapter }
  given : s.given = []
  got : s.got = []

/-- The datagram was made of something that was given to a station. -/
def GivenIn {κ : Type} (wire : κ → Station) (dgram : InternetDatagram) : Prop :=
  ∃ k, ∃ g ∈ (wire k).given, Wraps g.1 g.2 dgram

/-- What a station has returned was given, to a station with the mirrored configuration. -/
def Station.Genuine {κ : Type} (wire : κ → Station) (s : Station) : Prop :=
  ∀ g ∈ s.got, ∃ k, ∃ g' ∈ (wire k).given, g'.1.source = g.1.destination ∧ g'.1.destination = g.1.source ∧
    g.2.content = g'.2.content

section Wire

variable {κ : Type} {wire wire' : κ → Station}

theorem Station.Genuine.mono {s : Station} (more : ∀ k, ∀ g ∈ (wire k).given, g ∈ (wire' k).given)
    (h : s.Genuine wire) : s.Genuine wire' := by
  intro g member
  obtain ⟨k, g', given, same⟩ := h g member
  exact ⟨k, g', more k g' given, same⟩

theorem GivenIn.mono (more : ∀ k, ∀ g ∈ (wire k).given, g ∈ (wire' k).given) {dgram : InternetDatagram}
    (h : GivenIn wire dgram) : GivenIn wire' dgram := by
  obtain ⟨k, g, given, wraps⟩ := h
  exact ⟨k, g, more k g given, wraps⟩

theorem Station.New.holds {s : Station} (new : s.New) (P : InternetDatagram → Prop) : Holds P s.adapter := by
  obtain ⟨tap, eth, ip, hop, result, a, made, same⟩ := new.adapter
  obtain ⟨device, written, rfl⟩ := Option.map_eq_some_iff.1 made
  rw [same, PacketDevice.write_cases written]
  refine ⟨⟨by simp, by simp [NetworkInterface.ipv4Payloads]⟩, ?_⟩
  refine List.forall_mem_singleton.2 ⟨.blank, rfl, fun ipv4 => ?_⟩
  cases ipv4

theorem Station.step_given {s s' : Station} {op : AdapterOp (Option (List UInt8) × Sends)} (run : s.step op = some s') :
    (∀ g ∈ s.given, g ∈ s'.given) ∧ ∀ seg sends, op = .write seg sends → (s.adapter.config, seg) ∈ s'.given := by
  obtain ⟨r, -, rfl⟩ := Option.map_eq_some_iff.1 run
  cases op with
  | read i => exact ⟨fun g member => member, fun seg sends is => by cases is⟩
  | write seg sends =>
    refine ⟨fun g member => List.mem_append_left _ member, fun seg' sends' is => ?_⟩
    cases is
    exact List.mem_append_right _ (List.mem_singleton.2 rfl)
  | tick ms sends => exact ⟨fun g member => member, fun seg sends is => by cases is⟩

/-- One call at one station, on a wire on which every frame is around something that was given. -/
theorem Station.step_spec {s s' : Station} {op : AdapterOp (Option (List UInt8) × Sends)} (allowed : Station.Allows wire op)
    (run : s.step op = some s') (more : ∀ k, ∀ g ∈ (wire k).given, g ∈ (wire' k).given)
    (new : ∀ seg sends, op = .write seg sends → ∃ k, (s.adapter.config, seg) ∈ (wire' k).given)
    (all : ∀ k, Holds (GivenIn wire) (wire k).adapter) (holds : Holds (GivenIn wire') s.adapter)
    (genuine : s.Genuine wire') : Holds (GivenIn wire') s'.adapter ∧ s'.Genuine wire' := by
  obtain ⟨⟨a', got⟩, performed, rfl⟩ := Option.map_eq_some_iff.1 run
  have returned : ∀ {cfg : FdAdapterConfig} {g : FdAdapterConfig × TCPSegment},
      g ∈ s.got ++ (none : Option TCPSegment).toList.map (cfg, ·) → g ∈ s.got := fun member => by simpa using member
  cases op with
  | read i =>
    refine ⟨holds.read performed, fun g member => ?_⟩
    cases got with
    | none => exact genuine g (returned member)
    | some seg =>
      rcases List.mem_append.1 member with old | fresh
      · exact genuine g old
      · obtain ⟨result, sends⟩ := i
        obtain ⟨k, packet, sent, arrived⟩ := allowed
        cases arrived
        cases List.mem_singleton.1 fresh
        obtain ⟨dgram, received, out, base, ⟨j, g', given, wraps⟩, written, parsed, unwrap⟩ :=
          read_of_frame ((all k).tap packet sent) performed
        obtain ⟨out', received', written', parsed', content⟩ := wraps.spec
        cases written.symm.trans written'
        cases parsed.symm.trans parsed'
        obtain ⟨same, source, destination⟩ := content _ _ _ unwrap
        exact ⟨j, g', more j g' given, source, destination, same⟩
  | write seg sends =>
    obtain ⟨b, written, same⟩ := Option.map_eq_some_iff.1 performed
    obtain ⟨rfl, rfl⟩ := Prod.mk.inj same
    refine ⟨holds.write allowed (fun dgram wraps => ?_) written, fun g member => genuine g (returned member)⟩
    obtain ⟨k, given⟩ := new seg sends rfl
    exact ⟨k, _, given, wraps⟩
  | tick ms sends =>
    obtain ⟨b, ticked, same⟩ := Option.map_eq_some_iff.1 performed
    obtain ⟨rfl, rfl⟩ := Prod.mk.inj same
    exact ⟨holds.tick ticked, fun g member => genuine g (returned member)⟩

/-- **Segments over Ethernet.** Any number of adapters share a wire that may lose, repeat and reorder frames and deliver
them to anyone, and are given segments of the kind that connections make. Whatever ARP does meanwhile, in calls that return,
every segment that an adapter returns was given to an adapter whose configuration mirrored the one of the first, and is the
same but for its ports and its checksum. -/
theorem ethernet_genuine [DecidableEq κ] (first : κ → Station) (new : ∀ k, (first k).New)
    (reached : Reaches stepAt (fun wire a => Station.Allows wire a.2) first wire) : ∀ k, (wire k).Genuine wire := by
  have all : ∀ k, Holds (GivenIn wire) (wire k).adapter ∧ (wire k).Genuine wire := by
    refine reached.invariant ?_ fun wire a wire'
      (inv : ∀ k, Holds (GivenIn wire) (wire k).adapter ∧ (wire k).Genuine wire) allowed run => ?_
    · intro k
      refine ⟨(new k).holds _, fun g member => ?_⟩
      rw [(new k).got] at member
      cases member
    obtain ⟨k, op⟩ := a
    obtain ⟨s', stepped, rfl⟩ := Option.map_eq_some_iff.1 run
    obtain ⟨kept, fresh⟩ := Station.step_given stepped
    have more : ∀ j, ∀ g ∈ (wire j).given, g ∈ (Function.update wire k s' j).given := by
      intro j g member
      by_cases here : j = k
      · subst here
        rw [Function.update_self]
        exact kept g member
      · rwa [Function.update_of_ne here]
    have before : ∀ j, Holds (GivenIn (Function.update wire k s')) (wire j).adapter ∧
        (wire j).Genuine (Function.update wire k s') := fun j =>
      ⟨(inv j).1.mono fun dgram => GivenIn.mono more, (inv j).2.mono more⟩
    intro j
    by_cases here : j = k
    · subst here
      rw [Function.update_self]
      refine Station.step_spec allowed stepped more (fun seg sends is => ⟨j, ?_⟩) (fun i => (inv i).1) (before j).1
        (before j).2
      rw [Function.update_self]
      exact fresh seg sends is
    · rw [Function.update_of_ne here]
      exact before j
  exact fun k => (all k).2

/-- The packet at place `n` of what station `k` has written arrives at station `j`. -/
def deliver [DecidableEq κ] (wire : κ → Station) (k j : κ) (n : Nat) : Option (κ → Station) :=
  (wire k).adapter.tap.out[n]?.bind fun packet => stepAt wire (j, .read (some packet, .all))

theorem deliver_reaches [DecidableEq κ] {first : κ → Station} {k j : κ} {n : Nat}
    (reached : Reaches stepAt (fun wire a => Station.Allows wire a.2) first wire) (run : deliver wire k j n = some wire') :
    Reaches stepAt (fun wire a => Station.Allows wire a.2) first wire' := by
  obtain ⟨packet, there, run⟩ := Option.bind_eq_some_iff.1 run
  exact reached.step (a := (j, .read (some packet, .all))) ⟨k, packet, List.mem_of_getElem? there, rfl⟩ run

/-- Two stations with mirrored configurations, and interfaces that do not know each other. -/
def twoStations : Bool → Station
  | true => { adapter := {
      config := ⟨⟨1, 10⟩, ⟨2, 20⟩⟩
      tap := { fd := FDWrapper.registerWrite {}, out := [EthernetFrame.blank.serialize.concatenate] }
      interface := { ethernetAddress := ⟨[2, 1, 4, 4, 0, 1], rfl⟩, ipAddress := 1 }
      nextHop := 2 } }
  | false => { adapter := {
      config := ⟨⟨2, 20⟩, ⟨1, 10⟩⟩
      tap := { fd := FDWrapper.registerWrite {}, out := [EthernetFrame.blank.serialize.concatenate] }
      interface := { ethernetAddress := ⟨[2, 1, 4, 4, 0, 2], rfl⟩, ipAddress := 2 }
      nextHop := 1 } }

/-- A segment waits for the ARP reply, goes out, and is returned on the other side. -/
theorem ethernet_genuine_arp :
    ∃ wire, (stepAt twoStations (true, .write { payload := [7] } .all)).bind (fun wire => (deliver wire true false 1).bind fun wire =>
        (deliver wire false true 1).bind fun wire => deliver wire true false 2) = some wire ∧
      (wire false).got.map (·.2.payload) = [[7]] ∧ ∀ k, (wire k).Genuine wire := by
  obtain ⟨wire, run, seen⟩ := Option.map_eq_some_iff.1
    (show ((stepAt twoStations (true, .write { payload := [7] } .all)).bind (fun wire => (deliver wire true false 1).bind fun wire =>
        (deliver wire false true 1).bind fun wire => deliver wire true false 2)).map
      (fun wire => (wire false).got.map (·.2.payload)) = some [[7]] by decide +kernel)
  refine ⟨wire, run, seen, ethernet_genuine twoStations ?_ ?_⟩
  · rintro (_ | _)
    · exact ⟨⟨{}, ⟨[2, 1, 4, 4, 0, 2], rfl⟩, 2, 1, some 14, _, rfl, rfl⟩, rfl, rfl⟩
    · exact ⟨⟨{}, ⟨[2, 1, 4, 4, 0, 1], rfl⟩, 1, 2, some 14, _, rfl, rfl⟩, rfl, rfl⟩
  · obtain ⟨_, written, run⟩ := Option.bind_eq_some_iff.1 run
    obtain ⟨_, asked, run⟩ := Option.bind_eq_some_iff.1 run
    obtain ⟨_, replied, run⟩ := Option.bind_eq_some_iff.1 run
    have sent : Reaches stepAt (fun wire a => Station.Allows wire a.2) twoStations _ :=
      .single (a := (true, .write { payload := [7] } .all)) ⟨rfl, by decide⟩ written
    exact deliver_reaches (deliver_reaches (deliver_reaches sent asked) replied) run

end Wire

end TCPOverIPv4OverEthernetAdapter

end Sponge
