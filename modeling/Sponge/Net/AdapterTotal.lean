import Sponge.Net.ParserSafety
import Sponge.Net.TunTapAdapter

/-!
# Adapters do not throw

As long as the system calls succeed, no `read` of an adapter throws, whatever bytes
come from the device, and neither does the writing of a segment that a connection
has made. For the adapter over Ethernet that rests on what is queued behind an ARP
request: only datagrams that can be serialized are ever queued, so the reply
flushes all of them (`NetworkInterface.Sendable`).
-/

namespace Sponge

/-! ### What a parser leaves -/

/-- A parser leaves an end of the bytes that it was given. -/
def Parsing.Consumes {β : Type} (m : Parsing β) : Prop := ∀ p b q, m p = some (b, q) → q.buffer <:+ p.buffer

namespace Parsing.Consumes

variable {β γ : Type}

theorem pure (b : β) : Consumes (Pure.pure b : Parsing β) := by
  intro p b' q run
  cases run
  exact List.suffix_refl _

theorem bind {m : Parsing β} {f : β → Parsing γ} (first : Consumes m) (second : ∀ b, Consumes (f b)) :
    Consumes (m >>= f) := by
  intro p c r run
  obtain ⟨⟨b, q⟩, one, two⟩ := Option.bind_eq_some_iff.1 run
  exact (second b q c r two).trans (first p b q one)

theorem map {m : Parsing β} (f : β → γ) (consumes : Consumes m) : Consumes (f <$> m) := by
  intro p c q run
  obtain ⟨⟨b, q'⟩, one, two⟩ := Option.bind_eq_some_iff.1 run
  cases two
  exact consumes p b q one

theorem get : Consumes (MonadState.get : Parsing NetParser) := by
  intro p b q run
  cases run
  exact List.suffix_refl _

theorem ite {c : Prop} [Decidable c] {m m' : Parsing β} (yes : Consumes m) (no : Consumes m') :
    Consumes (if c then m else m') := by
  split
  · exact yes
  · exact no

theorem of_removePrefix {b rest : Buffer} {n : Nat} (run : b.removePrefix n = some rest) : rest <:+ b := by
  unfold Buffer.removePrefix at run
  split at run
  · cases run
  · cases run
    exact List.drop_suffix _ _

theorem checkSize_buffer (p : NetParser) (n : Nat) : (p.checkSize n).buffer = p.buffer := by
  unfold NetParser.checkSize
  split <;> rfl

theorem parseInt (len : Nat) : Consumes (NetParser.parseInt len) := by
  intro p b q run
  unfold NetParser.parseInt at run
  dsimp only at run
  split at run
  · cases run
    rw [checkSize_buffer]
  · obtain ⟨ret, -, run⟩ := Option.bind_eq_some_iff.1 run
    obtain ⟨rest, dropped, same⟩ := Option.bind_eq_some_iff.1 run
    cases same
    rw [checkSize_buffer] at dropped
    exact of_removePrefix dropped

theorem dropBytes (n : Nat) : Consumes (NetParser.dropBytes n) := by
  intro p b q run
  unfold NetParser.dropBytes at run
  dsimp only at run
  split at run
  · cases run
    rw [checkSize_buffer]
  · obtain ⟨rest, dropped, same⟩ := Option.map_eq_some_iff.1 run
    cases same
    rw [checkSize_buffer] at dropped
    exact of_removePrefix dropped

theorem u8 : Consumes NetParser.u8 := (parseInt 1).map _

theorem u16 : Consumes NetParser.u16 := (parseInt 2).map _

theorem u32 : Consumes NetParser.u32 := (parseInt 4).map _

theorem tcpHeader (h : TCPHeader) : Consumes h.parse := by
  have fields : Consumes h.parseFields :=
    u16.bind fun _ => u16.bind fun _ => u32.bind fun _ => u32.bind fun _ => u8.bind fun _ => u8.bind fun _ =>
      u16.bind fun _ => u16.bind fun _ => u16.bind fun _ => .pure _
  exact fields.bind fun h => .ite (.pure _) ((dropBytes _).bind fun _ => get.bind fun _ => .ite (.pure _) (.pure _))

end Parsing.Consumes

/-- A segment that was parsed has no more payload than there were bytes. -/
theorem TCPSegment.length_payload_of_parse {seg : TCPSegment} {b : Buffer} {lower : UInt32} {r : ParseResult}
    (run : TCPSegment.parse {} b lower = some (seg, r)) : seg.payload.length ≤ b.length := by
  unfold TCPSegment.parse at run
  split at run
  · cases run
    exact Nat.zero_le _
  · obtain ⟨⟨⟨header, err⟩, p⟩, parsed, same⟩ := Option.bind_eq_some_iff.1 run
    cases same
    exact (Parsing.Consumes.tcpHeader _ _ _ _ parsed).length_le

theorem TCPSegment.parse_returns (seg : TCPSegment) (b : Buffer) (lower : UInt32) : ∃ r, seg.parse b lower = some r := by
  obtain ⟨r, -, run⟩ := (seg.parse_harmless (.ofString b) lower).returns
  exact ⟨r, run⟩

/-- A datagram that was parsed has a payload in one piece, and a length of 16 bits. -/
theorem IPv4Datagram.payload_of_parse {dgram : IPv4Datagram} {b : Buffer} (run : IPv4Datagram.parse {} b = some (dgram, .noError)) :
    ∃ str, dgram.payload = .ofString str ∧ str.length ≤ 65535 := by
  obtain ⟨⟨⟨header, err⟩, p⟩, parsed, rest⟩ := Option.bind_eq_some_iff.1 run
  dsimp only at rest
  split at rest
  · cases rest
  · rename_i size
    obtain ⟨rfl, -⟩ := Prod.mk.inj (Option.some.inj rest)
    refine ⟨p.buffer, rfl, ?_⟩
    rw [not_not, BufferList.size_ofString] at size
    rw [size]
    exact Nat.le_of_lt_succ (UInt16.toNat_lt _)

/-! ### The interface -/

theorem TCPOverIPv4Adapter.unwrap_returns (a : TCPOverIPv4Adapter) {dgram : InternetDatagram} {str : Buffer}
    (payload : dgram.payload = .ofString str) :
    ∃ a' got, a.unwrapTcpInIp dgram = some (a', got) ∧ ∀ seg, got = some seg → seg.payload.length ≤ str.length := by
  have one : dgram.payload.toBuffer = some str := by
    rw [payload]
    rfl
  have returns : ∃ r, a.unwrapTcpInIp dgram = some r := by
    obtain ⟨⟨tcpSeg, result⟩, parsed⟩ := TCPSegment.parse_returns {} str dgram.header.pseudoCksum
    unfold unwrapTcpInIp
    rw [one]
    simp only [Option.bind_eq_bind, Option.bind_some, parsed]
    split
    · exact ⟨_, rfl⟩
    split
    · exact ⟨_, rfl⟩
    split
    · exact ⟨_, rfl⟩
    split
    · exact ⟨_, rfl⟩
    split
    · exact ⟨_, rfl⟩
    split
    · split <;> exact ⟨_, rfl⟩
    · exact ⟨_, rfl⟩
  obtain ⟨⟨a', got⟩, run⟩ := returns
  refine ⟨a', got, run, ?_⟩
  rintro seg rfl
  obtain ⟨-, accepts, -⟩ := unwrap_accepts run
  obtain ⟨buffer, there, parsed⟩ := accepts.parsed
  cases one.symm.trans there
  exact TCPSegment.length_payload_of_parse parsed

namespace NetworkInterface

variable {n : NetworkInterface}

/-- Whatever waits for a reply can be sent. -/
abbrev Sendable (n : NetworkInterface) : Prop := n.OnlySends fun dgram => sendable dgram = true

theorem sendDatagram_returns (dgram : InternetDatagram) (fine : sendable dgram = true) (hop : UInt32) :
    (n.sendDatagram dgram hop).result = some () := by
  cases known : n.usable hop with
  | none =>
    obtain ⟨m, -, run⟩ := n.sendDatagram_of_none dgram known
    rw [run]
  | some se =>
    rw [sendDatagram_of_some dgram known]
    rcases n.sendDgram_spec dgram se.eAddr with ⟨-, unserialized⟩ | ⟨payload, -, run⟩
    · rw [sendable, unserialized] at fine
      cases fine
    · rw [run]

/-- **A frame in one piece** is received without an exception: a request is answered, and a reply flushes all that waits. -/
theorem Sendable.recvFrame_returns (h : n.Sendable) {frame : EthernetFrame} {b : Buffer}
    (one : frame.payload.toBuffer = some b) : ∃ r, (n.recvFrame frame).result = some r := by
  unfold recvFrame
  rw [one, Option.bind_some, Option.bind_some]
  split
  · exact ⟨_, rfl⟩
  · obtain ⟨r, -, run⟩ := (IPv4Datagram.parse_harmless {} (.ofString b)).returns
    rw [show IPv4Datagram.parse {} b = some r from run]
    exact ⟨_, rfl⟩
  · obtain ⟨⟨arpm, err⟩, -, run⟩ := (ARPMessage.parse_harmless {} (.ofString b)).returns
    rw [show ARPMessage.parse {} b = some (arpm, err) from run]
    dsimp only
    split
    · unfold recvArp
      split
      · exact ⟨_, rfl⟩
      · dsimp only
        split
        · rw [Call.andThen, (n.sendArp_spec _ _).1]
          exact ⟨_, rfl⟩
        split
        · have all : (n.sentDgram arpm.senderIpAddress).dropWhile sendable = [] :=
            List.dropWhile_eq_nil_iff.2 (h.queue arpm.senderIpAddress)
          rw [Call.andThen, (n.resend_spec arpm.senderEthernetAddress rfl).2.2 all]
          exact ⟨_, rfl⟩
        · exact ⟨_, rfl⟩
    · exact ⟨_, rfl⟩

end NetworkInterface

/-! ### The adapters -/

/-- An adapter that does not throw as long as the system calls succeed. `Sane` holds of a new one and is kept; `Succeeds i`
says that the system calls of a `read` have succeeded, with any bytes. A `read` counts as one, and returns no more than a
datagram can carry. -/
class Reliable (α : Type) (ι : outParam Type) [FdAdapter α ι] where
  Sane : α → Prop
  Succeeds : ι → Prop
  read : ∀ {a : α} {i : ι}, Sane a → Succeeds i → ∃ a' got, FdAdapter.read a i = some (a', got) ∧ Sane a' ∧
    (FdAdapter.fd a').readCount = (FdAdapter.fd a).readCount + 1 ∧ ∀ seg, got = some seg → seg.payload.length ≤ 65536
  write : ∀ {a : α} {seg : TCPSegment} {sends : Sends}, Sane a → seg.Fits → sends.Whole →
    ∃ a', FdAdapter.write a seg sends = some a' ∧ Sane a'
  tick : ∀ {a : α} (ms : Nat) {sends : Sends}, Sane a → sends.Whole → ∃ a', FdAdapter.tick a ms sends = some a' ∧ Sane a'
  setConfig : ∀ {a : α} (cfg : FdAdapterSettings), Sane a → Sane (FdAdapter.setConfig a cfg)
  setListening : ∀ {a : α} (l : Bool), Sane a → Sane (FdAdapter.setListening a l)

theorem TCPOverUDPSocketAdapter.accept_returns (a : TCPOverUDPSocketAdapter) (datagram : ReceivedDatagram) :
    ∃ r, a.accept datagram = some r := by
  obtain ⟨⟨seg, result⟩, parsed⟩ := TCPSegment.parse_returns {} datagram.payload 0
  unfold accept
  simp only [Option.bind_eq_bind, parsed, Option.bind_some]
  split
  · exact ⟨_, rfl⟩
  split
  · exact ⟨_, rfl⟩
  split
  · split <;> exact ⟨_, rfl⟩
  · exact ⟨_, rfl⟩

instance : Reliable TCPOverUDPSocketAdapter (Option ReceivedDatagram) where
  Sane _ := True
  Succeeds i := ∃ datagram, i = some datagram ∧ datagram.payload.length ≤ TCPOverUDPSocketAdapter.mtu
  read {a i} _ succeeds := by
    obtain ⟨datagram, rfl, size⟩ := succeeds
    obtain ⟨⟨a', got⟩, accepted⟩ := TCPOverUDPSocketAdapter.accept_returns { a with sock := a.sock.registerRead } datagram
    have run : a.read (some datagram) = some (a', got) := by
      rw [TCPOverUDPSocketAdapter.read, Option.bind_some, if_neg (Nat.not_lt.2 size), accepted]
    obtain ⟨_, same, -, sock, -, cases⟩ := TCPOverUDPSocketAdapter.read_cases run
    cases same
    refine ⟨a', got, run, trivial, ?_, ?_⟩
    · show a'.sock.readCount = a.sock.readCount + 1
      rw [sock]
      rfl
    · rintro seg rfl
      rcases cases with ⟨nothing, -⟩ | ⟨seg', returned, parsed, -⟩
      · cases nothing
      · cases returned
        exact Nat.le_trans (TCPSegment.length_payload_of_parse parsed) size
  write {a seg sends} _ fits whole := by
    obtain ⟨out, got, written, -⟩ := a.parse_addressed fits
    have run : ∃ a', a.write seg sends = some a' := by
      rw [TCPOverUDPSocketAdapter.write, written, Option.bind_some, whole, TCPOverUDPSocketAdapter.sendTo, Option.bind_some,
        if_neg (not_not_intro rfl)]
      exact ⟨_, rfl⟩
    obtain ⟨a', run⟩ := run
    exact ⟨a', run, trivial⟩
  tick _ _ _ _ := ⟨_, rfl, trivial⟩
  setConfig _ _ := trivial
  setListening _ _ := trivial

/-- A read of any packet that fits into the buffer. -/
theorem PacketDevice.read_returns (d : PacketDevice) {packet : List UInt8} (size : packet.length ≤ FDWrapper.bufferSize) :
    ∃ d', d.read (some packet) = some (d', packet) ∧ d'.fd.readCount = d.fd.readCount + 1 := by
  have fits : packet.length ≤ min FDWrapper.bufferSize (word64 - 1) := by
    rw [show min FDWrapper.bufferSize (word64 - 1) = FDWrapper.bufferSize by decide]
    exact size
  refine ⟨_, by rw [PacketDevice.read, d.fd.read_of_le fits, Option.map_some], ?_⟩
  show (FDWrapper.noteEof _ _ _).readCount + 1 = _
  rw [FDWrapper.noteEof_readCount]

instance : Reliable TCPOverIPv4OverTunFdAdapter (Option (List UInt8)) where
  Sane _ := True
  Succeeds i := ∃ packet, i = some packet ∧ packet.length ≤ FDWrapper.bufferSize
  read {a i} _ succeeds := by
    obtain ⟨packet, rfl, size⟩ := succeeds
    obtain ⟨tun, read, count⟩ := a.tun.read_returns size
    obtain ⟨⟨dgram, err⟩, -, parsed⟩ := (IPv4Datagram.parse_harmless {} (.ofString packet)).returns
    have parsed : IPv4Datagram.parse {} packet = some (dgram, err) := parsed
    have run : FdAdapter.read a (some packet) = TCPOverIPv4OverTunFdAdapter.receive { a with tun } packet := by
      show a.read (some packet) = _
      rw [TCPOverIPv4OverTunFdAdapter.read, read, Option.bind_some]
    rw [run, TCPOverIPv4OverTunFdAdapter.receive, parsed, Option.bind_some]
    dsimp only
    split
    · exact ⟨_, _, rfl, trivial, count, by simp⟩
    · rename_i fine
      rw [not_not.1 fine] at parsed
      obtain ⟨str, payload, short⟩ := IPv4Datagram.payload_of_parse parsed
      obtain ⟨base, got, unwrapped, length⟩ := a.toTCPOverIPv4Adapter.unwrap_returns payload
      rw [unwrapped, Option.map_some]
      refine ⟨_, got, rfl, trivial, count, fun seg is => ?_⟩
      have small := length seg is
      omega
  write {a seg sends} _ fits whole := by
    obtain ⟨wrapped, dgram, out, _, _, _, wrap, serialized, -⟩ := fits.wrap a.toTCPOverIPv4Adapter
    have run : ∃ a', a.write seg sends = some a' := by
      rw [TCPOverIPv4OverTunFdAdapter.write, wrap]
      simp only [Option.bind_some, serialized, whole 0 _, PacketDevice.write_whole]
      exact ⟨_, rfl⟩
    obtain ⟨a', run⟩ := run
    exact ⟨a', run, trivial⟩
  tick _ _ _ _ := ⟨_, rfl, trivial⟩
  setConfig _ _ := trivial
  setListening _ _ := trivial

namespace TCPOverIPv4OverEthernetAdapter

/-- What the interface returns can be looked at. -/
theorem unwrap_returns (a : TCPOverIPv4OverEthernetAdapter) {ipDgram : Option InternetDatagram}
    (whole : ∀ dgram, ipDgram = some dgram → ∃ str, dgram.payload = .ofString str ∧ str.length ≤ 65535) :
    ∃ a' got, a.unwrap ipDgram = some (a', got) ∧ a'.interface = a.interface ∧ a'.tap = a.tap ∧
      ∀ seg, got = some seg → seg.payload.length ≤ 65536 := by
  cases ipDgram with
  | none => exact ⟨a, none, rfl, rfl, rfl, by simp⟩
  | some dgram =>
    obtain ⟨str, payload, short⟩ := whole dgram rfl
    obtain ⟨base, got, unwrapped, length⟩ := a.toTCPOverIPv4Adapter.unwrap_returns payload
    refine ⟨{ a with toTCPOverIPv4Adapter := base }, got, by rw [unwrap, unwrapped, Option.map_some], rfl, rfl, ?_⟩
    intro seg is
    have small := length seg is
    omega

/-- **Any packet** can be received. -/
theorem receive_returns {a : TCPOverIPv4OverEthernetAdapter} (sane : a.interface.Sendable) (packet : List UInt8)
    {sends : Sends} (taken : sends.Whole) :
    ∃ a' got, a.receive packet sends = some (a', got) ∧ a'.interface.Sendable ∧ a'.tap.fd.readCount = a.tap.fd.readCount ∧
      ∀ seg, got = some seg → seg.payload.length ≤ 65536 := by
  obtain ⟨⟨frame, err⟩, -, parsed⟩ := (EthernetFrame.parse_harmless EthernetFrame.blank (.ofString packet)).returns
  have parsed : EthernetFrame.blank.parse packet = some (frame, err) := parsed
  have payload : ∃ str, frame.payload.toBuffer = some str := by
    obtain ⟨⟨⟨header, _⟩, p⟩, -, same⟩ := Option.bind_eq_some_iff.1 parsed
    cases same
    exact ⟨p.buffer, rfl⟩
  obtain ⟨str, one⟩ := payload
  unfold receive
  rw [parsed, Option.bind_some]
  dsimp only
  split
  · exact ⟨a, none, rfl, sane, rfl, by simp⟩
  · obtain ⟨ipDgram, returned⟩ := sane.recvFrame_returns one
    obtain ⟨b, pending⟩ := sendPending_returns { a with interface := (a.interface.recvFrame frame).interface } taken
    obtain ⟨tap, rfl, -, count⟩ := sendPending_cases pending
    rw [returned, Option.bind_some, pending, Option.bind_some]
    have whole : ∀ dgram, ipDgram = some dgram → ∃ str, dgram.payload = .ofString str ∧ str.length ≤ 65535 := by
      rintro dgram rfl
      obtain ⟨-, -, inside⟩ := a.interface.recvFrame_datagram frame returned
      rw [one, Option.bind_some] at inside
      exact IPv4Datagram.payload_of_parse inside
    obtain ⟨a', got, unwrapped, interface, device, small⟩ := unwrap_returns
      { a with tap, interface := (a.interface.recvFrame frame).interface, pulled := _ } whole
    refine ⟨a', got, unwrapped, ?_, ?_, small⟩
    · rw [interface]
      exact sane.recvFrame frame
    · rw [device]
      exact count

instance : Reliable TCPOverIPv4OverEthernetAdapter (Option (List UInt8) × Sends) where
  Sane a := a.interface.Sendable
  Succeeds i := (∃ packet, i.1 = some packet ∧ packet.length ≤ FDWrapper.bufferSize) ∧ i.2.Whole
  read {a i} sane succeeds := by
    obtain ⟨result, sends⟩ := i
    obtain ⟨⟨packet, arrived, size⟩, taken⟩ := succeeds
    cases arrived
    obtain ⟨tap, read, count⟩ := a.tap.read_returns size
    have start : ({ a with tap } : TCPOverIPv4OverEthernetAdapter).interface.Sendable := sane
    obtain ⟨a', got, received, sane', count', small⟩ := receive_returns start packet taken
    refine ⟨a', got, ?_, sane', count'.trans count, small⟩
    show a.read (some packet, sends) = _
    rw [TCPOverIPv4OverEthernetAdapter.read, read, Option.bind_some, received]
  write {a seg sends} sane fits whole := by
    obtain ⟨wrapped, dgram, out, _, _, _, wrap, serialized, -⟩ := fits.wrap a.toTCPOverIPv4Adapter
    have fine : NetworkInterface.sendable dgram = true := by
      rw [NetworkInterface.sendable, serialized]
      rfl
    have run : a.write seg sends =
        ({ a with interface := (a.interface.sendDatagram dgram a.nextHop).interface } :
          TCPOverIPv4OverEthernetAdapter).sendPending sends := by
      rw [TCPOverIPv4OverEthernetAdapter.write, wrap, Option.bind_some]
      dsimp only
      rw [NetworkInterface.sendDatagram_returns dgram fine a.nextHop, Option.bind_some]
    obtain ⟨b, pending⟩ := sendPending_returns _ whole
    obtain ⟨tap, rfl, -⟩ := sendPending_cases pending
    exact ⟨_, run.trans pending, sane.sendDatagram fine a.nextHop⟩
  tick {a} ms sends sane whole := by
    obtain ⟨b, pending⟩ := sendPending_returns { a with interface := a.interface.tick ms } whole
    obtain ⟨tap, rfl, -⟩ := sendPending_cases pending
    exact ⟨_, pending, sane.tick ms⟩
  setConfig _ sane := sane
  setListening _ sane := sane

end TCPOverIPv4OverEthernetAdapter

instance {α ι : Type} [FdAdapter α ι] [Reliable α ι] : Reliable (LossyFdAdapter α) ι where
  Sane a := Reliable.Sane a.adapter
  Succeeds := Reliable.Succeeds α
  read {a i} sane succeeds := by
    obtain ⟨inner, ret, read, sane', count, small⟩ := Reliable.read sane succeeds
    have run : ∃ r, a.read i = some r := by
      rw [LossyFdAdapter.read, read]
      exact ⟨_, rfl⟩
    obtain ⟨⟨a', got⟩, run⟩ := run
    obtain ⟨ret', read', seen, -⟩ := LossyFdAdapter.read_cases run
    cases read.symm.trans read'
    refine ⟨a', got, run, sane', count, fun seg is => ?_⟩
    rcases seen with rfl | rfl
    · cases is
    · exact small seg is
  write {a seg sends} sane fits whole := by
    obtain ⟨inner, written, sane'⟩ := Reliable.write sane fits whole
    show ∃ a', a.write seg sends = some a' ∧ _
    unfold LossyFdAdapter.write
    dsimp only
    split
    · refine ⟨_, rfl, ?_⟩
      rw [LossyFdAdapter.shouldDrop_adapter]
      exact sane
    · rw [LossyFdAdapter.shouldDrop_adapter, written]
      exact ⟨_, rfl, sane'⟩
  tick {a} ms sends sane whole := by
    obtain ⟨inner, ticked, sane'⟩ := Reliable.tick ms sane whole
    refine ⟨{ a with adapter := inner }, ?_, sane'⟩
    show (FdAdapter.tick a.adapter ms sends).map _ = _
    rw [ticked, Option.map_some]
  setConfig cfg sane := Reliable.setConfig cfg sane
  setListening l sane := Reliable.setListening l sane

/-- A call whose system calls succeed, on a segment of the kind that connections make. -/
def AdapterOp.Fair (α : Type) {ι : Type} [FdAdapter α ι] [Reliable α ι] : AdapterOp ι → Prop
  | .read i => Reliable.Succeeds α i
  | .write seg sends => seg.Fits ∧ sends.Whole
  | .tick _ sends => sends.Whole

/-- Any number of calls. -/
theorem Reliable.run {α ι : Type} [FdAdapter α ι] [Reliable α ι] {a : α} (sane : Reliable.Sane a) {calls : List (AdapterOp ι)}
    (fair : ∀ op ∈ calls, op.Fair α) : ∃ a' got, FdAdapter.run a calls = some (a', got) := by
  induction calls generalizing a with
  | nil => exact ⟨a, [], rfl⟩
  | cons op rest ih =>
    have first : ∃ a' got, FdAdapter.perform a op = some (a', got) ∧ Reliable.Sane a' := by
      have here := fair op List.mem_cons_self
      cases op with
      | read i =>
        obtain ⟨a', got, run, sane', -⟩ := Reliable.read sane here
        exact ⟨a', got, run, sane'⟩
      | write seg sends =>
        obtain ⟨a', run, sane'⟩ := Reliable.write sane here.1 here.2
        exact ⟨a', none, by rw [FdAdapter.perform, run, Option.map_some], sane'⟩
      | tick ms sends =>
        obtain ⟨a', run, sane'⟩ := Reliable.tick ms sane here
        exact ⟨a', none, by rw [FdAdapter.perform, run, Option.map_some], sane'⟩
    obtain ⟨mid, one, performed, sane'⟩ := first
    obtain ⟨a', more, run⟩ := ih sane' fun op member => fair op (List.mem_cons_of_mem _ member)
    refine ⟨a', one.toList ++ more, ?_⟩
    rw [FdAdapter.run, performed, Option.bind_some]
    dsimp only
    rw [run, Option.map_some]

namespace TCPOverIPv4OverEthernetAdapter

/-- **The stack under a connection throws on no bytes.** Whatever packets come from the device, in any order with segments
of the kind that connections make and time that passes, as long as the device takes what is written every `read`, `write`
and `tick` of a new adapter over Ethernet returns. -/
theorem ethernet_total (tap : FDWrapper) (ethAddress : EthernetAddress) (ipAddress nextHop : UInt32)
    (calls : List (AdapterOp (Option (List UInt8) × Sends)))
    (fair : ∀ op ∈ calls, op.Fair TCPOverIPv4OverEthernetAdapter) :
    ∃ a a' got, new tap ethAddress ipAddress nextHop (some EthernetFrame.blank.serialize.size) = some a ∧
      FdAdapter.run a calls = some (a', got) := by
  have built : ∃ a, new tap ethAddress ipAddress nextHop (some EthernetFrame.blank.serialize.size) = some a := by
    rw [new, PacketDevice.write_whole]
    exact ⟨_, rfl⟩
  obtain ⟨a, built⟩ := built
  have sane : a.interface.Sendable := by
    obtain ⟨device, -, rfl⟩ := Option.map_eq_some_iff.1 built
    exact ⟨by simp, by simp [NetworkInterface.ipv4Payloads]⟩
  obtain ⟨a', got, run⟩ := Reliable.run sane fair
  exact ⟨a, a', got, built, run⟩

/-- An empty packet, a segment that waits, and an ARP reply that nobody has asked for. -/
theorem ethernet_total_reply :
    ∃ a a' got, new {} ⟨[2, 1, 4, 4, 0, 3], rfl⟩ 1 2 (some 14) = some a ∧
      FdAdapter.run a [.read (some [], .all), .write { payload := [7] } .all, .tick 9 .all,
        .read (some ([2, 1, 4, 4, 0, 3, 9, 9, 9, 9, 9, 9, 8, 6, 0, 1, 8, 0, 6, 4, 0, 2, 9, 9, 9, 9, 9, 9, 0, 0, 0, 2,
          2, 1, 4, 4, 0, 3, 0, 0, 0, 1] : List UInt8), .all)] = some (a', got) :=
  ethernet_total {} _ 1 2 _ (by
    intro op member
    simp only [List.mem_cons, List.not_mem_nil, or_false] at member
    rcases member with rfl | rfl | rfl | rfl
    · exact ⟨⟨[], rfl, by decide⟩, Sends.all_whole⟩
    · exact ⟨⟨rfl, by decide⟩, Sends.all_whole⟩
    · exact Sends.all_whole
    · exact ⟨⟨_, rfl, by decide⟩, Sends.all_whole⟩)

end TCPOverIPv4OverEthernetAdapter

end Sponge
