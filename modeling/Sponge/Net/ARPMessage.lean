import Sponge.Net.EthernetFrame
import Sponge.Util.Parser

/-!
# ARP messages (`tcp_helpers/arp_message.hh`, `tcp_helpers/arp_message.cc`)
-/

namespace Sponge

/-- `ARPMessage`, with the source's default values. -/
structure ARPMessage where
  hardwareType : UInt16 := 1
  protocolType : UInt16 := EthernetHeader.typeIPv4
  hardwareAddressSize : UInt8 := 6
  protocolAddressSize : UInt8 := 4
  opcode : UInt16 := 0
  senderEthernetAddress : EthernetAddress := .zero
  senderIpAddress : UInt32 := 0
  targetEthernetAddress : EthernetAddress := .zero
  targetIpAddress : UInt32 := 0
  deriving DecidableEq

namespace ARPMessage

/-- `LENGTH`. -/
def messageLength : Nat := 28

/-- `TYPE_ETHERNET`. -/
def typeEthernet : UInt16 := 1

/-- `OPCODE_REQUEST`. -/
def opcodeRequest : UInt16 := 1

/-- `OPCODE_REPLY`. -/
def opcodeReply : UInt16 := 2

/-- `supported`. -/
def supported (m : ARPMessage) : Bool :=
  m.hardwareType == typeEthernet && m.protocolType == EthernetHeader.typeIPv4 && m.hardwareAddressSize == 6 &&
    m.protocolAddressSize == 4 && (m.opcode == opcodeRequest || m.opcode == opcodeReply)

/-- The fields of `parse` up to the opcode. -/
def parseHeader (m : ARPMessage) : Parsing ARPMessage := do
  let hardwareType ← NetParser.u16
  let protocolType ← NetParser.u16
  let hardwareAddressSize ← NetParser.u8
  let protocolAddressSize ← NetParser.u8
  let opcode ← NetParser.u16
  pure { m with hardwareType, protocolType, hardwareAddressSize, protocolAddressSize, opcode }

/-- The addresses of `parse`. -/
def parseAddresses (m : ARPMessage) : Parsing ARPMessage := do
  let ⟨sender, senderLength⟩ ← NetParser.bytes 6
  let senderIpAddress ← NetParser.u32
  let ⟨target, targetLength⟩ ← NetParser.bytes 6
  let targetIpAddress ← NetParser.u32
  pure { m with
    senderEthernetAddress := ⟨sender, senderLength⟩
    senderIpAddress
    targetEthernetAddress := ⟨target, targetLength⟩
    targetIpAddress }

/-- `parse`: the message as it is left, and the result. -/
def parse (m : ARPMessage) (buffer : Buffer) : Option (ARPMessage × ParseResult) :=
  if buffer.length < messageLength then some (m, .packetTooShort)
  else do
    let (m, p) ← m.parseHeader { buffer }
    if !m.supported then some (m, .unsupported)
    else do
      let (m, p) ← m.parseAddresses p
      some (m, p.error)

/-- `serialize`, which throws on a message that is not supported. -/
def serialize (m : ARPMessage) : Option (List UInt8) :=
  if !m.supported then none
  else some (NetUnparser.u16 m.hardwareType ++ NetUnparser.u16 m.protocolType ++ NetUnparser.u8 m.hardwareAddressSize ++
    NetUnparser.u8 m.protocolAddressSize ++ NetUnparser.u16 m.opcode ++
    m.senderEthernetAddress.bytes.flatMap NetUnparser.u8 ++ NetUnparser.u32 m.senderIpAddress ++
    m.targetEthernetAddress.bytes.flatMap NetUnparser.u8 ++ NetUnparser.u32 m.targetIpAddress)

end ARPMessage

end Sponge
