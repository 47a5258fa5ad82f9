import Sponge.Util.Parser

/-!
# Ethernet frames

`tcp_helpers/ethernet_header.{hh,cc}` and `tcp_helpers/ethernet_frame.{hh,cc}`.
The header's `parse` returns an error of its own and leaves the parser without
one; the frame's `parse` returns the parser's.
-/

namespace Sponge

/-- `EthernetAddress`: an array of six bytes. -/
structure EthernetAddress where
  bytes : List UInt8
  length : bytes.length = 6
  deriving DecidableEq

/-- `EthernetAddress{}`. -/
def EthernetAddress.zero : EthernetAddress := ⟨[0, 0, 0, 0, 0, 0], rfl⟩

/-- `ETHERNET_BROADCAST`. -/
def ethernetBroadcast : EthernetAddress := ⟨[0xff, 0xff, 0xff, 0xff, 0xff, 0xff], rfl⟩

/-- `EthernetHeader`. -/
structure EthernetHeader where
  dst : EthernetAddress
  src : EthernetAddress
  type : UInt16
  deriving DecidableEq

namespace EthernetHeader

/-- `TYPE_IPv4`. -/
def typeIPv4 : UInt16 := 0x800

/-- `TYPE_ARP`. -/
def typeARP : UInt16 := 0x806

/-- `LENGTH`. -/
def headerLength : Nat := 14

/-- The fields of `parse`. -/
def parseFields : Parsing EthernetHeader := do
  let ⟨dst, dstLength⟩ ← NetParser.bytes 6
  let ⟨src, srcLength⟩ ← NetParser.bytes 6
  let type ← NetParser.u16
  pure { dst := ⟨dst, dstLength⟩, src := ⟨src, srcLength⟩, type }

/-- `parse`: the header as it is left, and the result. -/
def parse (h : EthernetHeader) : Parsing (EthernetHeader × ParseResult) := do
  let p ← get
  if p.buffer.length < headerLength then pure (h, .packetTooShort)
  else do
    let h ← parseFields
    let p ← get
    pure (h, p.error)

/-- `serialize`. -/
def serialize (h : EthernetHeader) : List UInt8 :=
  h.dst.bytes.flatMap NetUnparser.u8 ++ h.src.bytes.flatMap NetUnparser.u8 ++ NetUnparser.u16 h.type

end EthernetHeader

/-- `EthernetFrame`. -/
structure EthernetFrame where
  header : EthernetHeader
  payload : BufferList
  deriving DecidableEq

namespace EthernetFrame

/-- `parse`: the frame as it is left, and the result. What the header's `parse` returns is dropped. -/
def parse (frame : EthernetFrame) (buffer : Buffer) : Option (EthernetFrame × ParseResult) := do
  let ((header, _), p) ← frame.header.parse { buffer }
  some (⟨header, .ofString p.buffer⟩, p.error)

/-- `serialize`. -/
def serialize (frame : EthernetFrame) : BufferList :=
  (BufferList.append {} (.ofString frame.header.serialize)).append frame.payload

end EthernetFrame

end Sponge
