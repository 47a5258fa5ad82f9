import Sponge.Net.IPv4Codec
import Sponge.Tcp.SegmentCodec

/-!
# TCP over IPv4 (`tcp_helpers/tcp_over_ip.{hh,cc}`, `tcp_helpers/fd_adapter.hh`)

An `Address` is the number and the port it was built from. An adapter that
listens takes its own address and its peer's from the first SYN that reaches its
port, and from then on accepts what belongs to that connection.

What one adapter wraps, the one with the mirrored configuration unwraps: the
pseudo-header's checksum is computed on either side from fields that the
datagram carries unchanged.
-/

namespace Sponge

/-- `Address`, as `ipv4_numeric()` and `port()`. -/
structure Address where
  ipv4Numeric : UInt32 := 0
  port : UInt16 := 0
  deriving DecidableEq

/-- `FdAdapterConfig`, without the loss rates. -/
structure FdAdapterConfig where
  source : Address := {}
  destination : Address := {}
  deriving DecidableEq

/-- `TCPOverIPv4Adapter`, with the fields of `FdAdapterBase`. -/
structure TCPOverIPv4Adapter where
  config : FdAdapterConfig := {}
  listening : Bool := false
  deriving DecidableEq

/-- `PROTO_TCP`. -/
def IPv4Header.protoTcp : UInt8 := 6

namespace TCPOverIPv4Adapter

/-- The last check of `unwrap_tcp_in_ip`: is the segment from our peer? -/
def fromPeer (a : TCPOverIPv4Adapter) (tcpSeg : TCPSegment) : TCPOverIPv4Adapter × Option TCPSegment :=
  if tcpSeg.header.sport ≠ a.config.destination.port then (a, none) else (a, some tcpSeg)

/-- `unwrap_tcp_in_ip`: the adapter after the call, and the segment if it is one of this connection. The payload is
converted to one `Buffer`, which may throw. -/
def unwrapTcpInIp (a : TCPOverIPv4Adapter) (ipDgram : InternetDatagram) :
    Option (TCPOverIPv4Adapter × Option TCPSegment) :=
  if !a.listening ∧ ipDgram.header.dst ≠ a.config.source.ipv4Numeric then some (a, none)
  else if !a.listening ∧ ipDgram.header.src ≠ a.config.destination.ipv4Numeric then some (a, none)
  else if ipDgram.header.proto ≠ IPv4Header.protoTcp then some (a, none)
  else do
    let payload ← ipDgram.payload.toBuffer
    let (tcpSeg, result) ← TCPSegment.parse {} payload ipDgram.header.pseudoCksum
    if result ≠ .noError then some (a, none)
    else if tcpSeg.header.dport ≠ a.config.source.port then some (a, none)
    else if a.listening then
      if tcpSeg.header.syn ∧ !tcpSeg.header.rst then
        let config : FdAdapterConfig := {
          source := ⟨ipDgram.header.dst, a.config.source.port⟩
          destination := ⟨ipDgram.header.src, tcpSeg.header.sport⟩ }
        some (fromPeer { config, listening := false } tcpSeg)
      else some (a, none)
    else some (a.fromPeer tcpSeg)

/-- The segment with its port numbers, as `wrap_tcp_in_ip` sets them. -/
def addressed (a : TCPOverIPv4Adapter) (seg : TCPSegment) : TCPSegment :=
  { seg with header := { seg.header with sport := a.config.source.port, dport := a.config.destination.port } }

/-- The header of the datagram; its length is cut to 16 bits. -/
def ipHeader (a : TCPOverIPv4Adapter) (seg : TCPSegment) : IPv4Header :=
  let header : IPv4Header := { src := a.config.source.ipv4Numeric, dst := a.config.destination.ipv4Numeric }
  { header with len := .ofNat (header.hlen.toNat * 4 + seg.header.doff.toNat * 4 + seg.payload.length) }

/-- `wrap_tcp_in_ip`: the segment as it is left, and the datagram. `serialize` may throw. -/
def wrapTcpInIp (a : TCPOverIPv4Adapter) (seg : TCPSegment) : Option (TCPSegment × InternetDatagram) := do
  let seg := a.addressed seg
  let payload ← seg.serialize (a.ipHeader seg).pseudoCksum
  some (seg, { header := a.ipHeader seg, payload })

/-- Each one's source is the other's destination. -/
def Mirrors (a b : TCPOverIPv4Adapter) : Prop :=
  a.config.source = b.config.destination ∧ a.config.destination = b.config.source

/-- What a datagram must be for an adapter that has a connection. -/
structure Accepts (a : TCPOverIPv4Adapter) (ipDgram : InternetDatagram) (seg : TCPSegment) : Prop where
  dst : ipDgram.header.dst = a.config.source.ipv4Numeric
  src : ipDgram.header.src = a.config.destination.ipv4Numeric
  proto : ipDgram.header.proto = IPv4Header.protoTcp
  parsed : ∃ payload, ipDgram.payload.toBuffer = some payload ∧
    TCPSegment.parse {} payload ipDgram.header.pseudoCksum = some (seg, .noError)
  dport : seg.header.dport = a.config.source.port
  sport : seg.header.sport = a.config.destination.port

section Unwrap

variable {a a' : TCPOverIPv4Adapter} {ipDgram : InternetDatagram} {seg : TCPSegment}

theorem Accepts.unwrap (h : a.Accepts ipDgram seg) (connected : a.listening = false) :
    a.unwrapTcpInIp ipDgram = some (a, some seg) := by
  obtain ⟨payload, buffer, parsed⟩ := h.parsed
  simp [unwrapTcpInIp, connected, h.dst, h.src, h.proto, buffer, parsed, h.dport, fromPeer, h.sport]

theorem fromPeer_some {got : TCPSegment} (run : a.fromPeer seg = (a', some got)) :
    a' = a ∧ got = seg ∧ seg.header.sport = a.config.destination.port := by
  unfold fromPeer at run
  split at run
  · simp at run
  · rename_i same
    simp only [Prod.mk.injEq, Option.some.injEq] at run
    exact ⟨run.1.symm, run.2.symm, not_not.1 same⟩

/-- **A segment that is unwrapped** belongs to the connection that the adapter has afterwards: the one it had, or the
one that a SYN opened. -/
theorem unwrap_accepts (run : a.unwrapTcpInIp ipDgram = some (a', some seg)) :
    a'.listening = false ∧ a'.Accepts ipDgram seg ∧ (a.listening = false → a' = a) ∧
      (a.listening = true → seg.header.syn = true ∧ seg.header.rst = false) := by
  unfold unwrapTcpInIp at run
  split at run
  · simp at run
  rename_i dst
  split at run
  · simp at run
  rename_i src
  split at run
  · simp at run
  rename_i proto
  obtain ⟨payload, buffer, run⟩ := Option.bind_eq_some_iff.1 run
  obtain ⟨⟨tcpSeg, result⟩, parsed, run⟩ := Option.bind_eq_some_iff.1 run
  dsimp only at run
  split at run
  · simp at run
  rename_i noError
  rw [not_not.1 noError] at parsed
  split at run
  · simp at run
  rename_i dport
  cases listening : a.listening with
  | true =>
    -- the SYN decides where the connection is
    rw [listening, if_pos rfl] at run
    split at run
    · rename_i syn
      obtain ⟨rfl, rfl, sport⟩ := fromPeer_some (Option.some.inj run)
      refine ⟨rfl, ⟨rfl, rfl, not_not.1 proto, ⟨payload, buffer, parsed⟩, not_not.1 dport, sport⟩, by simp, fun _ => ?_⟩
      simpa using syn
    · simp at run
  | false =>
    rw [listening] at run
    obtain ⟨rfl, rfl, sport⟩ := fromPeer_some (Option.some.inj run)
    refine ⟨listening, ⟨?_, ?_, not_not.1 proto, ⟨payload, buffer, parsed⟩, not_not.1 dport, sport⟩, fun _ => rfl, by simp⟩
    · simpa [listening] using dst
    · simpa [listening] using src

end Unwrap

/-- **A segment survives the whole encapsulation** between adapters with mirrored configurations. -/
theorem encapsulation_round_trip (a b : TCPOverIPv4Adapter) (mirrors : Mirrors a b) (connected : b.listening = false)
    (seg : TCPSegment) (least : 5 ≤ seg.header.doff) (most : seg.header.doff ≤ 15)
    (size : 20 + 4 * seg.header.doff.toNat + seg.payload.length ≤ 65535) :
    ∃ wrapped ipDgram out, a.wrapTcpInIp seg = some (wrapped, ipDgram) ∧ ipDgram.serialize = some out ∧
      ∀ d₀ : InternetDatagram, ∃ received got, d₀.parse out.concatenate = some (received, .noError) ∧
        b.unwrapTcpInIp received = some (b, some got) ∧
        { got.header with
          cksum := seg.header.cksum
          sport := seg.header.sport
          dport := seg.header.dport } = seg.header ∧
        got.header.sport = a.config.source.port ∧ got.header.dport = a.config.destination.port ∧
        got.payload = seg.payload := by
  obtain ⟨cksum, payload, tcp, length, segment⟩ := (a.addressed seg).parse_serialized least most (by
    show 4 * seg.header.doff.toNat + seg.payload.length ≤ 65535
    omega) (.inr ⟨a.ipHeader (a.addressed seg), rfl⟩)
  have total : (a.ipHeader (a.addressed seg)).len.toNat = 4 * 5 + payload.size := by
    rw [length]
    show (UInt16.ofNat (5 * 4 + seg.header.doff.toNat * 4 + seg.payload.length)).toNat =
      4 * 5 + (4 * seg.header.doff.toNat + seg.payload.length)
    rw [UInt16.toNat_ofNat_of_lt' (show _ < 2 ^ 16 by omega)]
    omega
  obtain ⟨ipCksum, out, ip, -, -, datagram⟩ := IPv4Datagram.parse_serialized ⟨a.ipHeader (a.addressed seg), payload⟩
    ⟨rfl, by show (5 : UInt8) ≤ 5; decide, by show (5 : UInt8) ≤ 15; decide, by show (0 : UInt16) < 0x2000; decide⟩ total
  refine ⟨_, _, out, by rw [wrapTcpInIp, tcp]; rfl, ip, fun d₀ =>
    ⟨_, ⟨{ (a.addressed seg).header with cksum }, seg.payload⟩, datagram d₀, ?_, rfl, rfl, rfl, rfl⟩⟩
  refine Accepts.unwrap ⟨?_, ?_, rfl, ⟨payload.concatenate, rfl, segment {}⟩, ?_, ?_⟩ connected
  · exact congrArg Address.ipv4Numeric mirrors.2
  · exact congrArg Address.ipv4Numeric mirrors.1
  · exact congrArg Address.port mirrors.2
  · exact congrArg Address.port mirrors.1

/-- A SYN with options and a payload of three bytes, from port 1 of one end to port 2 of the other. -/
theorem encapsulation_round_trip_syn :
    ∃ wrapped ipDgram out, (⟨⟨⟨0xc0a80001, 1⟩, ⟨0xc0a80002, 2⟩⟩, false⟩ : TCPOverIPv4Adapter).wrapTcpInIp
        { header := { doff := 6, syn := true, cksum := 77 }, payload := [1, 2, 3] } = some (wrapped, ipDgram) ∧
      ipDgram.serialize = some out ∧ ∃ received got, IPv4Datagram.parse {} out.concatenate = some (received, .noError) ∧
        (⟨⟨⟨0xc0a80002, 2⟩, ⟨0xc0a80001, 1⟩⟩, false⟩ : TCPOverIPv4Adapter).unwrapTcpInIp received =
          some (⟨⟨⟨0xc0a80002, 2⟩, ⟨0xc0a80001, 1⟩⟩, false⟩, some got) ∧
        got.header.sport = 1 ∧ got.header.dport = 2 ∧ got.header.syn = true ∧ got.payload = [1, 2, 3] := by
  obtain ⟨wrapped, ipDgram, out, wrap, serialize, survives⟩ := encapsulation_round_trip
    ⟨⟨⟨0xc0a80001, 1⟩, ⟨0xc0a80002, 2⟩⟩, false⟩ ⟨⟨⟨0xc0a80002, 2⟩, ⟨0xc0a80001, 1⟩⟩, false⟩ ⟨rfl, rfl⟩ rfl
    { header := { doff := 6, syn := true, cksum := 77 }, payload := [1, 2, 3] } (by decide) (by decide) (by decide)
  obtain ⟨received, got, parsed, unwrap, header, sport, dport, payload⟩ := survives {}
  exact ⟨wrapped, ipDgram, out, wrap, serialize, received, got, parsed, unwrap, sport, dport,
    congrArg TCPHeader.syn header, payload⟩

end TCPOverIPv4Adapter

end Sponge
