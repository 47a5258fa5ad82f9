import Sponge.Net.ARPMessage
import Sponge.Net.EthernetFrame
import Sponge.Net.IPv4Datagram
import Sponge.Tcp.TCPSegment
import Sponge.Util.ParserAccess

/-!
# The packet parsers stay inside their input

The four `parse` functions once more, over stored buffers and with their accesses
recorded; the lengths computed from `hlen` and `doff` are differences of `size_t`,
and the checksum of the IPv4 header reads as many bytes as `hlen` says. Each
follows the function of the same name on byte strings, and each guard of the
source is met in the place where an access or a difference depends on it.
-/

namespace Sponge

open Recording

/-! ### Ethernet frames -/

namespace EthernetHeader

/-- The fields of `parse`. -/
def parseFieldsRecorded : Recording EthernetHeader := do
  let ⟨dst, dstLength⟩ ← bytes 6
  let ⟨src, srcLength⟩ ← bytes 6
  let type ← u16
  pure { dst := ⟨dst, dstLength⟩, src := ⟨src, srcLength⟩, type }

/-- `parse`. -/
def parseRecorded (h : EthernetHeader) : Recording (EthernetHeader × ParseResult) := do
  let p ← get
  if p.buffer.size < headerLength then pure (h, .packetTooShort)
  else do
    let h ← parseFieldsRecorded
    let p ← get
    pure (h, p.error)

theorem parseFields_follows (p : StoredParser) : Follows parseFieldsRecorded parseFields p := by
  refine (bytes_follows p 6).bind ?_
  rintro ⟨dst, dstLength⟩ q
  refine (bytes_follows q 6).bind ?_
  rintro ⟨src, srcLength⟩ q
  exact (u16_follows q).bind fun type _ => .pure _

theorem parse_follows (h : EthernetHeader) (p : StoredParser) : Follows h.parseRecorded h.parse p := by
  refine .get (.ite (fun _ => .pure _) fun _ => ?_)
  exact (parseFields_follows p).bind fun h q => .get (.pure _)

end EthernetHeader

/-- `parse`. -/
def EthernetFrame.parseRecorded (frame : EthernetFrame) (buffer : StoredBuffer) :
    Logged ParserEvent (EthernetFrame × ParseResult) := do
  let ((header, _), p) ← frame.header.parseRecorded { buffer }
  pure (⟨header, .ofString p.buffer.str⟩, p.error)

theorem EthernetFrame.parse_harmless (frame : EthernetFrame) (b : StoredBuffer) :
    Harmless (frame.parseRecorded b) (frame.parse b.str) := by
  have agrees : Agrees { buffer := b.str } (frame.parseRecorded b) (frame.parse b.str) := by
    refine .after (frame.header.parse_follows { buffer := b }) ?_
    rintro ⟨header, _⟩ q
    exact .pure _
  exact agrees.harmless

/-! ### ARP messages -/

namespace ARPMessage

/-- The fields of `parse` up to the opcode. -/
def parseHeaderRecorded (m : ARPMessage) : Recording ARPMessage := do
  let hardwareType ← u16
  let protocolType ← u16
  let hardwareAddressSize ← u8
  let protocolAddressSize ← u8
  let opcode ← u16
  pure { m with hardwareType, protocolType, hardwareAddressSize, protocolAddressSize, opcode }

/-- The addresses of `parse`. -/
def parseAddressesRecorded (m : ARPMessage) : Recording ARPMessage := do
  let ⟨sender, senderLength⟩ ← bytes 6
  let senderIpAddress ← u32
  let ⟨target, targetLength⟩ ← bytes 6
  let targetIpAddress ← u32
  pure { m with
    senderEthernetAddress := ⟨sender, senderLength⟩
    senderIpAddress
    targetEthernetAddress := ⟨target, targetLength⟩
    targetIpAddress }

/-- `parse`. -/
def parseRecorded (m : ARPMessage) (buffer : StoredBuffer) : Logged ParserEvent (ARPMessage × ParseResult) :=
  if buffer.size < messageLength then pure (m, .packetTooShort)
  else do
    let (m, p) ← m.parseHeaderRecorded { buffer }
    if !m.supported then pure (m, .unsupported)
    else do
      let (m, p) ← m.parseAddressesRecorded p
      pure (m, p.error)

theorem parseHeader_follows (m : ARPMessage) (p : StoredParser) : Follows m.parseHeaderRecorded m.parseHeader p := by
  refine (u16_follows p).bind fun hardwareType q => (u16_follows q).bind fun protocolType q => ?_
  refine (u8_follows q).bind fun hardwareAddressSize q => (u8_follows q).bind fun protocolAddressSize q => ?_
  exact (u16_follows q).bind fun opcode _ => .pure _

theorem parseAddresses_follows (m : ARPMessage) (p : StoredParser) :
    Follows m.parseAddressesRecorded m.parseAddresses p := by
  refine (bytes_follows p 6).bind ?_
  rintro ⟨sender, senderLength⟩ q
  refine (u32_follows q).bind fun senderIpAddress q => (bytes_follows q 6).bind ?_
  rintro ⟨target, targetLength⟩ q
  exact (u32_follows q).bind fun targetIpAddress _ => .pure _

theorem parse_harmless (m : ARPMessage) (b : StoredBuffer) : Harmless (m.parseRecorded b) (m.parse b.str) := by
  have agrees : Agrees { buffer := b.str } (m.parseRecorded b) (m.parse b.str) := by
    refine .ite (fun _ => .pure _) fun _ => .after (m.parseHeader_follows { buffer := b }) fun m q => ?_
    exact .ite (fun _ => .pure _) fun _ => .after (m.parseAddresses_follows q) fun m q => .pure _
  exact agrees.harmless

end ARPMessage

/-! ### IPv4 datagrams -/

namespace IPv4Header

/-- The fields of `parse`. -/
def parseFieldsRecorded (h : IPv4Header) : Recording IPv4Header := do
  let firstByte ← u8
  let tos ← u8
  let len ← u16
  let id ← u16
  let foVal ← u16
  let ttl ← u8
  let proto ← u8
  let cksum ← u16
  let src ← u32
  let dst ← u32
  pure { h with
    ver := firstByte >>> 4
    hlen := firstByte &&& 0x0f
    tos, len, id
    df := foVal &&& 0x4000 != 0
    mf := foVal &&& 0x2000 != 0
    offset := foVal &&& 0x1fff
    ttl, proto, cksum, src, dst }

/-- `parse`. -/
def parseRecorded (h : IPv4Header) : Recording (IPv4Header × ParseResult) := do
  let original := (← get).buffer
  if original.size < headerLength then return (h, .packetTooShort)
  let h ← h.parseFieldsRecorded
  if original.size < 4 * h.hlen.toNat then return (h, .packetTooShort)
  if h.ver ≠ 4 then return (h, .wrongIPVersion)
  if h.hlen < 5 then return (h, .headerTooShort)
  if original.size ≠ h.len.toNat then return (h, .truncatedPacket)
  let extra ← subtract (h.hlen.toNat * 4) headerLength
  removePrefix extra
  let error := (← get).error
  if error ≠ .noError then return (h, error)
  let header ← sumOver original (4 * h.hlen.toNat)
  if (({} : InternetChecksum).add header).value ≠ 0 then return (h, .badChecksum)
  return (h, .noError)

theorem parseFields_follows (h : IPv4Header) (p : StoredParser) : Follows h.parseFieldsRecorded h.parseFields p := by
  refine (u8_follows p).bind fun firstByte q => (u8_follows q).bind fun tos q => ?_
  refine (u16_follows q).bind fun len q => (u16_follows q).bind fun id q => (u16_follows q).bind fun foVal q => ?_
  refine (u8_follows q).bind fun ttl q => (u8_follows q).bind fun proto q => (u16_follows q).bind fun cksum q => ?_
  exact (u32_follows q).bind fun src q => (u32_follows q).bind fun dst _ => .pure _

theorem parse_follows (h : IPv4Header) (p : StoredParser) : Follows h.parseRecorded h.parse p := by
  refine .get (.ite (fun _ => .pure _) fun _ => ?_)
  refine (h.parseFields_follows p).bind fun h q => ?_
  refine .ite (fun _ => .pure _) fun present => .ite (fun _ => .pure _) fun _ => ?_
  refine .ite (fun _ => .pure _) fun words => .ite (fun _ => .pure _) fun _ => ?_
  -- `hlen` is at least five, so the options have a length
  have least : 5 ≤ h.hlen.toNat := UInt8.le_iff_toNat_le.1 (UInt8.not_lt.1 words)
  have most : h.hlen.toNat < 256 := h.hlen.toNat_lt
  refine .access (subtract_tracks q (by rw [headerLength]; omega) (by rw [word64]; omega)) ?_
  refine (removePrefix_follows q _).bind fun _ q => .get (.ite (fun _ => .pure _) fun _ => ?_)
  -- and the bytes of the header are there
  refine .access (sumOver_tracks q (Nat.not_lt.1 present)) ?_
  exact .ite (fun _ => .pure _) fun _ => .pure _

end IPv4Header

/-- `parse`. -/
def IPv4Datagram.parseRecorded (d : IPv4Datagram) (buffer : StoredBuffer) :
    Logged ParserEvent (IPv4Datagram × ParseResult) := do
  let ((header, _), p) ← d.header.parseRecorded { buffer }
  let d : IPv4Datagram := { d with header, payload := .ofString p.buffer.str }
  if d.payload.size ≠ header.payloadLength.toNat then pure (d, .packetTooShort)
  else pure (d, p.error)

theorem IPv4Datagram.parse_harmless (d : IPv4Datagram) (b : StoredBuffer) :
    Harmless (d.parseRecorded b) (d.parse b.str) := by
  have agrees : Agrees { buffer := b.str } (d.parseRecorded b) (d.parse b.str) := by
    refine .after (d.header.parse_follows { buffer := b }) ?_
    rintro ⟨header, _⟩ q
    exact .ite (fun _ => .pure _) fun _ => .pure _
  exact agrees.harmless

/-! ### TCP segments -/

namespace TCPHeader

/-- The fields of `parse`. -/
def parseFieldsRecorded (h : TCPHeader) : Recording TCPHeader := do
  let sport ← u16
  let dport ← u16
  let seqno ← u32
  let ackno ← u32
  let offset ← u8
  let flB ← u8
  let win ← u16
  let cksum ← u16
  let uptr ← u16
  pure { h with
    sport, dport
    seqno := .ofNat seqno.toNat
    ackno := .ofNat ackno.toNat
    doff := offset >>> 4
    urg := flB &&& 0b00100000 != 0
    ack := flB &&& 0b00010000 != 0
    psh := flB &&& 0b00001000 != 0
    rst := flB &&& 0b00000100 != 0
    syn := flB &&& 0b00000010 != 0
    fin := flB &&& 0b00000001 != 0
    win, cksum, uptr }

/-- `parse`. -/
def parseRecorded (h : TCPHeader) : Recording (TCPHeader × ParseResult) := do
  let h ← h.parseFieldsRecorded
  if h.doff < 5 then return (h, .headerTooShort)
  let extra ← subtract (h.doff.toNat * 4) headerLength
  removePrefix extra
  let error := (← get).error
  if error ≠ .noError then return (h, error)
  return (h, .noError)

theorem parseFields_follows (h : TCPHeader) (p : StoredParser) : Follows h.parseFieldsRecorded h.parseFields p := by
  refine (u16_follows p).bind fun sport q => (u16_follows q).bind fun dport q => ?_
  refine (u32_follows q).bind fun seqno q => (u32_follows q).bind fun ackno q => ?_
  refine (u8_follows q).bind fun offset q => (u8_follows q).bind fun flB q => ?_
  exact (u16_follows q).bind fun win q => (u16_follows q).bind fun cksum q => (u16_follows q).bind fun uptr _ => .pure _

theorem parse_follows (h : TCPHeader) (p : StoredParser) : Follows h.parseRecorded h.parse p := by
  refine (h.parseFields_follows p).bind fun h q => .ite (fun _ => .pure _) fun words => ?_
  have least : 5 ≤ h.doff.toNat := UInt8.le_iff_toNat_le.1 (UInt8.not_lt.1 words)
  have most : h.doff.toNat < 256 := h.doff.toNat_lt
  refine .access (subtract_tracks q (by rw [headerLength]; omega) (by rw [word64]; omega)) ?_
  exact (removePrefix_follows q _).bind fun _ q => .get (.ite (fun _ => .pure _) fun _ => .pure _)

/-- Cut after the third byte: the destination port and all behind it read as zero. -/
example : (parserCalls (parseRecorded {} { buffer := .ofString [0, 80, 1] }).log).map
    (fun c => (c.val, c.after.buffer)) = (80, [1]) :: List.replicate 8 (0, [1]) := by decide

end TCPHeader

/-- `parse`. -/
def TCPSegment.parseRecorded (seg : TCPSegment) (buffer : StoredBuffer) (datagramLayerChecksum : UInt32) :
    Logged ParserEvent (TCPSegment × ParseResult) :=
  if (({ sum := datagramLayerChecksum } : InternetChecksum).add buffer.str).value ≠ 0 then pure (seg, .badChecksum)
  else do
    let ((header, _), p) ← seg.header.parseRecorded { buffer }
    pure ({ header, payload := p.buffer.str }, p.error)

theorem TCPSegment.parse_harmless (seg : TCPSegment) (b : StoredBuffer) (datagramLayerChecksum : UInt32) :
    Harmless (seg.parseRecorded b datagramLayerChecksum) (seg.parse b.str datagramLayerChecksum) := by
  have agrees : Agrees { buffer := b.str } (seg.parseRecorded b datagramLayerChecksum)
      (seg.parse b.str datagramLayerChecksum) := by
    refine .ite (fun _ => .pure _) fun _ => .after (seg.header.parse_follows { buffer := b }) ?_
    rintro ⟨header, _⟩ q
    exact .pure _
  exact agrees.harmless

/-- **The packet parsers never throw and never read outside their input**, whatever bytes they are given and whatever
the object held before. -/
theorem packet_parsers_safe :
    (∀ (frame : EthernetFrame) b, Harmless (frame.parseRecorded b) (frame.parse b.str)) ∧
    (∀ (m : ARPMessage) b, Harmless (m.parseRecorded b) (m.parse b.str)) ∧
    (∀ (d : IPv4Datagram) b, Harmless (d.parseRecorded b) (d.parse b.str)) ∧
    (∀ (seg : TCPSegment) b datagramLayerChecksum,
      Harmless (seg.parseRecorded b datagramLayerChecksum) (seg.parse b.str datagramLayerChecksum)) :=
  ⟨EthernetFrame.parse_harmless, ARPMessage.parse_harmless, IPv4Datagram.parse_harmless, TCPSegment.parse_harmless⟩

end Sponge
