import Mathlib.Logic.Function.Basic
import Sponge.Logic.Word
import Sponge.Net.ARPMessage
import Sponge.Net.IPv4Datagram

/-!
# The network interface (`network_interface.hh`, `network_interface.cc`)

An interface sends datagrams in Ethernet frames, and asks with ARP for the
addresses it does not know. The ARP table is a map that is only searched and
updated, so it is a function. The queue `_sent_dgram` is a multimap of which only
the range of one key is ever walked, in the order of insertion, so it is a
function from the key to that range.

A call that throws keeps what it has done so far: it leaves an interface and no
result (`Call`).
-/

namespace Sponge

/-- `_etb_node_t`. -/
structure EtbNode where
  eAddr : EthernetAddress := .zero
  updatedTime : Nat := 0
  askTime : Nat := 0
  exist : Bool := false
  deriving DecidableEq

/-- `NetworkInterface`. An IP address stands for its `ipv4_numeric()`. -/
structure NetworkInterface where
  ethernetAddress : EthernetAddress
  ipAddress : UInt32
  framesOut : List EthernetFrame := []
  arpTable : UInt32 → Option EtbNode := fun _ => none
  sentDgram : UInt32 → List InternetDatagram := fun _ => []
  timer : Nat := 0

namespace NetworkInterface

/-- What a call leaves: the interface, and the value it returns unless it throws. -/
structure Call (α : Type) where
  interface : NetworkInterface
  result : Option α

/-- What follows a call that does not throw. -/
def Call.andThen {α : Type} (c : Call Unit) (next : NetworkInterface → Call α) : Call α :=
  match c.result with
  | none => ⟨c.interface, none⟩
  | some () => next c.interface

@[simp] theorem Call.andThen_none {α : Type} (n : NetworkInterface) (next : NetworkInterface → Call α) :
    Call.andThen ⟨n, none⟩ next = ⟨n, none⟩ := rfl

@[simp] theorem Call.andThen_some {α : Type} (n : NetworkInterface) (next : NetworkInterface → Call α) :
    Call.andThen ⟨n, some ()⟩ next = next n := rfl

/-- The ARP message of `send_arp` and the address it goes to: a request is broadcast, a reply is not. -/
def arpFrame (n : NetworkInterface) (targetIp : UInt32) (targetEthaddr : Option EthernetAddress) :
    EthernetAddress × ARPMessage :=
  let dst := targetEthaddr.getD ethernetBroadcast
  (dst, {
    opcode := if dst = ethernetBroadcast then ARPMessage.opcodeRequest else ARPMessage.opcodeReply
    senderEthernetAddress := n.ethernetAddress
    senderIpAddress := n.ipAddress
    targetEthernetAddress := targetEthaddr.getD .zero
    targetIpAddress := targetIp })

/-- `send_arp`: nothing is sent within five seconds of the last message to the same address. -/
def sendArp (n : NetworkInterface) (targetIp : UInt32) (targetEthaddr : Option EthernetAddress) : Call Unit :=
  let firstSend := (n.arpTable targetIp).isNone
  let se := (n.arpTable targetIp).getD {}
  let n := { n with arpTable := Function.update n.arpTable targetIp (some se) }
  if !firstSend && decide (sub64 n.timer se.askTime ≤ 5 * 1000) then ⟨n, some ()⟩
  else
    let (dst, arpm) := n.arpFrame targetIp targetEthaddr
    match arpm.serialize with
    | none => ⟨n, none⟩
    | some payload => ⟨{ n with
        framesOut := n.framesOut ++
          [{ header := { dst, src := n.ethernetAddress, type := EthernetHeader.typeARP }, payload := .ofString payload }]
        arpTable := Function.update n.arpTable targetIp (some { se with askTime := n.timer }) }, some ()⟩

/-- `send_dgram`. -/
def sendDgram (n : NetworkInterface) (dgram : InternetDatagram) (address : EthernetAddress) : Call Unit :=
  match dgram.serialize with
  | none => ⟨n, none⟩
  | some payload => ⟨{ n with
      framesOut := n.framesOut ++
        [{ header := { dst := address, src := n.ethernetAddress, type := EthernetHeader.typeIPv4 }, payload }] }, some ()⟩

/-- A mapping that `send_datagram` uses: learned, and not more than 30 seconds ago. -/
def usable (n : NetworkInterface) (ip : UInt32) : Option EtbNode :=
  (n.arpTable ip).filter fun se => se.exist && decide (sub64 n.timer se.updatedTime ≤ 30 * 1000)

/-- `send_datagram`. -/
def sendDatagram (n : NetworkInterface) (dgram : InternetDatagram) (nextHop : UInt32) : Call Unit :=
  match n.usable nextHop with
  | none => (n.sendArp nextHop none).andThen fun n =>
    ⟨{ n with sentDgram := Function.update n.sentDgram nextHop (n.sentDgram nextHop ++ [dgram]) }, some ()⟩
  | some se => n.sendDgram dgram se.eAddr

/-- The loop of `recv_frame` over the datagrams queued for `ip`: each is sent and then erased. -/
def resend (n : NetworkInterface) (ip : UInt32) (address : EthernetAddress) : List InternetDatagram → Call Unit
  | [] => ⟨n, some ()⟩
  | dgram :: rest => (n.sendDgram dgram address).andThen fun n =>
    resend { n with sentDgram := Function.update n.sentDgram ip rest } ip address rest

/-- The end of the ARP branch of `recv_frame`: the mapping of the sender is added or refreshed. -/
def learn (n : NetworkInterface) (arpm : ARPMessage) : NetworkInterface :=
  { n with arpTable := Function.update n.arpTable arpm.senderIpAddress (some
      { (n.arpTable arpm.senderIpAddress).getD {} with
        eAddr := arpm.senderEthernetAddress
        updatedTime := n.timer
        exist := true }) }

/-- The ARP branch of `recv_frame` for a message that was parsed. -/
def recvArp (n : NetworkInterface) (arpm : ARPMessage) : Call (Option InternetDatagram) :=
  if arpm.targetIpAddress ≠ n.ipAddress ∧ arpm.senderIpAddress ≠ arpm.targetIpAddress then ⟨n, some none⟩
  else
    let replied : Call Unit :=
      if arpm.opcode = ARPMessage.opcodeRequest then n.sendArp arpm.senderIpAddress (some arpm.senderEthernetAddress)
      else if arpm.opcode = ARPMessage.opcodeReply then
        n.resend arpm.senderIpAddress arpm.senderEthernetAddress (n.sentDgram arpm.senderIpAddress)
      else ⟨n, some ()⟩
    replied.andThen fun n => ⟨n.learn arpm, some none⟩

/-- `pkg_type`. -/
inductive PkgType where
  | notForMe
  | ip
  | arp
  deriving DecidableEq

def pkgType (n : NetworkInterface) (header : EthernetHeader) : PkgType :=
  if header.dst = n.ethernetAddress then
    if header.type = EthernetHeader.typeARP then .arp
    else if header.type = EthernetHeader.typeIPv4 then .ip
    else .notForMe
  else if header.dst = ethernetBroadcast ∧ header.type = EthernetHeader.typeARP then .arp
  else .notForMe

/-- `recv_frame`. -/
def recvFrame (n : NetworkInterface) (frame : EthernetFrame) : Call (Option InternetDatagram) :=
  match n.pkgType frame.header with
  | .notForMe => ⟨n, some none⟩
  | .ip =>
    match frame.payload.toBuffer.bind ({} : IPv4Datagram).parse with
    | none => ⟨n, none⟩
    | some (idata, err) => ⟨n, some (if err = .noError then some idata else none)⟩
  | .arp =>
    match frame.payload.toBuffer.bind ({} : ARPMessage).parse with
    | none => ⟨n, none⟩
    | some (arpm, err) => if err = .noError then n.recvArp arpm else ⟨n, some none⟩

/-- `tick`. -/
def tick (n : NetworkInterface) (msSinceLastTick : Nat) : NetworkInterface :=
  { n with timer := add64 n.timer msSinceLastTick }

end NetworkInterface

end Sponge
