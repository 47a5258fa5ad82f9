import Sponge.Util.Parser

/-!
# IPv4 datagrams (`tcp_helpers/ipv4_header.{hh,cc}`, `tcp_helpers/ipv4_datagram.{hh,cc}`)
-/

namespace Sponge

/-- `IPv4Header`, with the source's default values. -/
structure IPv4Header where
  ver : UInt8 := 4
  hlen : UInt8 := 5
  tos : UInt8 := 0
  len : UInt16 := 0
  id : UInt16 := 0
  df : Bool := true
  mf : Bool := false
  offset : UInt16 := 0
  ttl : UInt8 := 128
  proto : UInt8 := 6
  cksum : UInt16 := 0
  src : UInt32 := 0
  dst : UInt32 := 0
  deriving DecidableEq

namespace IPv4Header

/-- `LENGTH`. -/
def headerLength : Nat := 20

/-- `payload_length`, in 16 bits. -/
def payloadLength (h : IPv4Header) : UInt16 := h.len - 4 * h.hlen.toUInt16

/-- `pseudo_cksum`, in 32 bits. -/
def pseudoCksum (h : IPv4Header) : UInt32 :=
  let low : UInt32 := 0xffff
  (h.src >>> 16) + (h.src &&& low) + ((h.dst >>> 16) + (h.dst &&& low)) + h.proto.toUInt32 + h.payloadLength.toUInt32

/-- The fields of `parse`. -/
def parseFields (h : IPv4Header) : Parsing IPv4Header := do
  let firstByte ← NetParser.u8
  let tos ← NetParser.u8
  let len ← NetParser.u16
  let id ← NetParser.u16
  let foVal ← NetParser.u16
  let ttl ← NetParser.u8
  let proto ← NetParser.u8
  let cksum ← NetParser.u16
  let src ← NetParser.u32
  let dst ← NetParser.u32
  pure { h with
    ver := firstByte >>> 4
    hlen := firstByte &&& 0x0f
    tos, len, id
    df := foVal &&& 0x4000 != 0
    mf := foVal &&& 0x2000 != 0
    offset := foVal &&& 0x1fff
    ttl, proto, cksum, src, dst }

/-- `parse`: the header as it is left, and the result. -/
def parse (h : IPv4Header) : Parsing (IPv4Header × ParseResult) := do
  let original := (← get).buffer
  if original.length < headerLength then return (h, .packetTooShort)
  let h ← h.parseFields
  if original.length < 4 * h.hlen.toNat then return (h, .packetTooShort)
  if h.ver ≠ 4 then return (h, .wrongIPVersion)
  if h.hlen < 5 then return (h, .headerTooShort)
  if original.length ≠ h.len.toNat then return (h, .truncatedPacket)
  NetParser.dropBytes (h.hlen.toNat * 4 - headerLength)
  let error := (← get).error
  if error ≠ .noError then return (h, error)
  if (({} : InternetChecksum).add (original.take (4 * h.hlen.toNat))).value ≠ 0 then return (h, .badChecksum)
  return (h, .noError)

/-- `serialize`, which throws on a wrong version or header length. -/
def serialize (h : IPv4Header) : Option (List UInt8) :=
  if h.ver ≠ 4 then none
  else if 4 * h.hlen.toNat < headerLength then none
  else
    let foVal : UInt16 := (if h.df then 0x4000 else 0) ||| (if h.mf then 0x2000 else 0) ||| (h.offset &&& 0x1fff)
    let fields := NetUnparser.u8 ((h.ver <<< 4) ||| (h.hlen &&& 0xf)) ++ NetUnparser.u8 h.tos ++ NetUnparser.u16 h.len ++
      NetUnparser.u16 h.id ++ NetUnparser.u16 foVal ++ NetUnparser.u8 h.ttl ++ NetUnparser.u8 h.proto ++
      NetUnparser.u16 h.cksum ++ NetUnparser.u32 h.src ++ NetUnparser.u32 h.dst
    -- `ret.resize(4 * hlen)` pads with zeros
    some (fields ++ List.replicate (4 * h.hlen.toNat - headerLength) 0)

end IPv4Header

/-- `IPv4Datagram`, also called `InternetDatagram`. -/
structure IPv4Datagram where
  header : IPv4Header := {}
  payload : BufferList := {}
  deriving DecidableEq

abbrev InternetDatagram : Type := IPv4Datagram

namespace IPv4Datagram

/-- `parse`. The result of the header's `parse` is not looked at, only the parser's error. -/
def parse (d : IPv4Datagram) (buffer : Buffer) : Option (IPv4Datagram × ParseResult) := do
  let ((header, _), p) ← d.header.parse { buffer }
  let d : IPv4Datagram := { d with header, payload := .ofString p.buffer }
  if d.payload.size ≠ header.payloadLength.toNat then some (d, .packetTooShort)
  else some (d, p.error)

/-- `serialize`, which throws when the payload does not have the length of the header. -/
def serialize (d : IPv4Datagram) : Option BufferList :=
  if d.payload.size ≠ d.header.payloadLength.toNat then none
  else do
    let headerZeroChecksum ← { d.header with cksum := 0 }.serialize
    let header ← { d.header with cksum := (({} : InternetChecksum).add headerZeroChecksum).value }.serialize
    some ((BufferList.ofString header).append d.payload)

end IPv4Datagram

end Sponge
