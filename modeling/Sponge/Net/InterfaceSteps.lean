import Sponge.Net.NetworkInterface

/-!
# What the calls of a network interface can do

One lemma for each function of the source. `send_arp` never throws, touches
neither the queue nor a mapping, and puts out ARP frames only (`Asks`). The loop
of `recv_frame` sends the queued datagrams in order up to the first that cannot
be serialized (`resend_spec`). `recv_frame` is what an accepted ARP message does
(`accepts`), and nothing otherwise.
-/

namespace Sponge

namespace ARPMessage

/-- The addresses are read without touching the fields before them. -/
theorem parseAddresses_opcode {m m' : ARPMessage} {p p' : NetParser} (run : m.parseAddresses p = some (m', p')) :
    m'.opcode = m.opcode := by
  simp only [parseAddresses, bind, StateT.bind, Option.bind_eq_some_iff] at run
  obtain ⟨_, -, _, -, _, -, _, -, last⟩ := run
  cases last
  rfl

/-- A message that parses is a request or a reply. -/
theorem opcode_of_parse {m m' : ARPMessage} {b : Buffer} (run : m.parse b = some (m', .noError)) :
    m'.opcode = opcodeRequest ∨ m'.opcode = opcodeReply := by
  unfold parse at run
  split at run
  · cases run
  · obtain ⟨⟨read, p⟩, -, rest⟩ := Option.bind_eq_some_iff.1 run
    dsimp only at rest
    split at rest
    · cases rest
    · rename_i supported
      obtain ⟨⟨whole, p'⟩, addresses, last⟩ := Option.bind_eq_some_iff.1 rest
      obtain ⟨rfl, -⟩ := Prod.mk.inj (Option.some.inj last)
      rw [parseAddresses_opcode addresses]
      simp only [ARPMessage.supported, Bool.not_eq_true', Bool.not_eq_false, Bool.and_eq_true, Bool.or_eq_true,
        beq_iff_eq] at supported
      exact supported.2

end ARPMessage

/-- The mapping of a table entry and the time it was learned, if it was. -/
def EtbNode.learned (se : EtbNode) : Option (EthernetAddress × Nat) :=
  if se.exist then some (se.eAddr, se.updatedTime) else none

namespace NetworkInterface

/-- The payloads of the IPv4 frames put out. -/
def ipv4Payloads (n : NetworkInterface) : List BufferList :=
  (n.framesOut.filter fun frame => frame.header.type == EthernetHeader.typeIPv4).map (·.payload)

/-- The mapping of an address. -/
def mapping (n : NetworkInterface) (ip : UInt32) : Option (EthernetAddress × Nat) :=
  (n.arpTable ip).bind EtbNode.learned

/-- The interface is the same but for ARP frames put out and times at which they were. -/
structure Asks (n n' : NetworkInterface) : Prop where
  ethernetAddress : n'.ethernetAddress = n.ethernetAddress
  ipAddress : n'.ipAddress = n.ipAddress
  timer : n'.timer = n.timer
  queue : n'.sentDgram = n.sentDgram
  payloads : n'.ipv4Payloads = n.ipv4Payloads
  mapping : n'.mapping = n.mapping

section Calls

variable {n n' : NetworkInterface}

theorem mapping_of_update {ip : UInt32} {se : EtbNode} (table : n'.arpTable = Function.update n.arpTable ip (some se)) :
    n'.mapping = Function.update n.mapping ip se.learned := by
  funext other
  rw [mapping, table]
  by_cases here : other = ip
  · rw [here, Function.update_self, Function.update_self]
    rfl
  · rw [Function.update_of_ne here, Function.update_of_ne here]
    rfl

/-- The entry that `send_arp` finds or makes has the mapping that was known. -/
theorem learned_getD (n : NetworkInterface) (ip : UInt32) : ((n.arpTable ip).getD {}).learned = n.mapping ip := by
  rw [mapping]
  cases n.arpTable ip with
  | none => rfl
  | some se => rfl

theorem ipv4Payloads_append {frames : List EthernetFrame} (out : n'.framesOut = n.framesOut ++ frames) :
    n'.ipv4Payloads = n.ipv4Payloads ++
      (frames.filter fun frame => frame.header.type == EthernetHeader.typeIPv4).map (·.payload) := by
  rw [ipv4Payloads, out, List.filter_append, List.map_append]
  rfl

theorem arpFrame_serialize (n : NetworkInterface) (ip : UInt32) (eth : Option EthernetAddress) :
    ∃ payload, (n.arpFrame ip eth).2.serialize = some payload := by
  rw [ARPMessage.serialize, if_neg]
  · exact ⟨_, rfl⟩
  · simp only [ARPMessage.supported, arpFrame]
    split <;> decide

/-- **`send_arp`** does not throw, and only asks. -/
theorem sendArp_spec (n : NetworkInterface) (ip : UInt32) (eth : Option EthernetAddress) :
    (n.sendArp ip eth).result = some () ∧ Asks n (n.sendArp ip eth).interface := by
  have known := n.learned_getD ip
  unfold sendArp
  dsimp only
  split
  · refine ⟨rfl, rfl, rfl, rfl, rfl, rfl, ?_⟩
    rw [mapping_of_update (n := n) rfl, known, Function.update_eq_self]
  · obtain ⟨payload, written⟩ := arpFrame_serialize { n with
      arpTable := Function.update n.arpTable ip (some ((n.arpTable ip).getD {})) } ip eth
    rw [written]
    refine ⟨rfl, rfl, rfl, rfl, rfl, ?_, ?_⟩
    · rw [ipv4Payloads_append (n := n) rfl]
      exact List.append_nil _
    · rw [mapping_of_update (n := n) (Function.update_idem (a := ip) _ _ _)]
      show Function.update n.mapping ip ((n.arpTable ip).getD {}).learned = n.mapping
      rw [known, Function.update_eq_self]

/-- **`send_dgram`** throws without an effect, or puts out one frame. -/
theorem sendDgram_spec (n : NetworkInterface) (dgram : InternetDatagram) (address : EthernetAddress) :
    n.sendDgram dgram address = ⟨n, none⟩ ∧ dgram.serialize = none ∨
      ∃ payload, dgram.serialize = some payload ∧ n.sendDgram dgram address = ⟨{ n with
        framesOut := n.framesOut ++
          [{ header := { dst := address, src := n.ethernetAddress, type := EthernetHeader.typeIPv4 }, payload }] },
        some ()⟩ := by
  unfold sendDgram
  split
  · rename_i thrown
    exact Or.inl ⟨rfl, thrown⟩
  · rename_i payload written
    exact Or.inr ⟨payload, written, rfl⟩

/-- A datagram that `send_dgram` can send. -/
def sendable (dgram : InternetDatagram) : Bool := dgram.serialize.isSome

/-- The datagrams `sent`, then `left`, are queued for `ip`; the first are sent. -/
structure Flushes (ip : UInt32) (sent left : List InternetDatagram) (n n' : NetworkInterface) : Prop where
  ethernetAddress : n'.ethernetAddress = n.ethernetAddress
  ipAddress : n'.ipAddress = n.ipAddress
  timer : n'.timer = n.timer
  arpTable : n'.arpTable = n.arpTable
  queue : n'.sentDgram = Function.update n.sentDgram ip left
  payloads : n'.ipv4Payloads.map some = n.ipv4Payloads.map some ++ sent.map (·.serialize)

/-- **The loop of `recv_frame`** sends the queue up to the first datagram that cannot be sent, on which it throws. -/
theorem resend_spec (n : NetworkInterface) {ip : UInt32} (address : EthernetAddress) {l : List InternetDatagram}
    (queued : n.sentDgram ip = l) :
    Flushes ip (l.takeWhile sendable) (l.dropWhile sendable) n (n.resend ip address l).interface ∧
      ((n.resend ip address l).result = some () ↔ l.dropWhile sendable = []) := by
  induction l generalizing n with
  | nil =>
    have same := Function.update_eq_self ip n.sentDgram
    rw [queued] at same
    exact ⟨⟨rfl, rfl, rfl, rfl, same.symm, by simp [resend]⟩, by simp [resend]⟩
  | cons dgram rest ih =>
    rcases n.sendDgram_spec dgram address with ⟨run, thrown⟩ | ⟨payload, written, run⟩
    · have stuck : sendable dgram = false := by rw [sendable, thrown]; rfl
      rw [resend, run, Call.andThen_none, List.takeWhile_cons_of_neg (by rw [stuck]; decide),
        List.dropWhile_cons_of_neg (by rw [stuck]; decide)]
      refine ⟨⟨rfl, rfl, rfl, rfl, ?_, by simp⟩, by simp⟩
      rw [← queued]
      exact (Function.update_eq_self ip n.sentDgram).symm
    · have goes : sendable dgram = true := by rw [sendable, written]; rfl
      rw [resend, run, Call.andThen_some, List.takeWhile_cons_of_pos goes, List.dropWhile_cons_of_pos goes]
      obtain ⟨flushed, complete⟩ := ih { n with
        framesOut := n.framesOut ++
          [{ header := { dst := address, src := n.ethernetAddress, type := EthernetHeader.typeIPv4 }, payload }]
        sentDgram := Function.update n.sentDgram ip rest } (Function.update_self ip rest n.sentDgram)
      refine ⟨⟨flushed.ethernetAddress, flushed.ipAddress, flushed.timer, flushed.arpTable, ?_, ?_⟩, complete⟩
      · rw [flushed.queue]
        exact Function.update_idem _ _ _
      · rw [flushed.payloads, ipv4Payloads_append (n := n) rfl]
        simp [written]

theorem sendDatagram_eq {hop : UInt32} (dgram : InternetDatagram) (unknown : n.usable hop = none) :
    n.sendDatagram dgram hop = ⟨{ (n.sendArp hop none).interface with
      sentDgram := Function.update (n.sendArp hop none).interface.sentDgram hop
        ((n.sendArp hop none).interface.sentDgram hop ++ [dgram]) }, some ()⟩ := by
  rw [sendDatagram, unknown]
  dsimp only
  rw [Call.andThen, (n.sendArp_spec hop none).1]

/-- **`send_datagram`** asks and queues where it has no usable mapping. -/
theorem sendDatagram_of_none {hop : UInt32} (dgram : InternetDatagram) (unknown : n.usable hop = none) :
    ∃ m, Asks n m ∧ n.sendDatagram dgram hop =
      ⟨{ m with sentDgram := Function.update m.sentDgram hop (m.sentDgram hop ++ [dgram]) }, some ()⟩ :=
  ⟨_, (n.sendArp_spec hop none).2, sendDatagram_eq dgram unknown⟩

theorem sendDatagram_of_some {hop : UInt32} (dgram : InternetDatagram) {se : EtbNode} (known : n.usable hop = some se) :
    n.sendDatagram dgram hop = n.sendDgram dgram se.eAddr := by
  rw [sendDatagram, known]

theorem learn_mapping (n : NetworkInterface) (arpm : ARPMessage) : (n.learn arpm).mapping =
    Function.update n.mapping arpm.senderIpAddress (some (arpm.senderEthernetAddress, n.timer)) := by
  rw [mapping_of_update (n := n) rfl]
  rfl

/-- The ARP message that `recv_frame` takes from a frame: parsed, and meant for this interface or gratuitous. -/
def accepts (n : NetworkInterface) (frame : EthernetFrame) : Option ARPMessage :=
  if n.pkgType frame.header = .arp then
    (frame.payload.toBuffer.bind ({} : ARPMessage).parse).bind fun (arpm, err) =>
      if err = .noError ∧ ¬(arpm.targetIpAddress ≠ n.ipAddress ∧ arpm.senderIpAddress ≠ arpm.targetIpAddress) then some arpm
      else none
  else none

/-- Without an ARP message to take, `recv_frame` leaves the interface. -/
theorem recvFrame_of_none {frame : EthernetFrame} (nothing : n.accepts frame = none) :
    (n.recvFrame frame).interface = n := by
  unfold accepts at nothing
  unfold recvFrame
  cases kind : n.pkgType frame.header with
  | notForMe => rfl
  | ip =>
    dsimp only
    split <;> rfl
  | arp =>
    rw [kind, if_pos rfl] at nothing
    dsimp only
    cases read : frame.payload.toBuffer.bind ({} : ARPMessage).parse with
    | none => rfl
    | some found =>
      obtain ⟨arpm, err⟩ := found
      rw [read, Option.bind_some] at nothing
      dsimp only at nothing ⊢
      split
      · rename_i fine
        have ignored : arpm.targetIpAddress ≠ n.ipAddress ∧ arpm.senderIpAddress ≠ arpm.targetIpAddress := by
          by_contra meant
          rw [if_pos ⟨fine, meant⟩] at nothing
          cases nothing
        rw [recvArp, if_pos ignored]
      · rfl

/-- An accepted message is a request or a reply, and `recv_frame` acts on it. -/
theorem recvFrame_of_some {frame : EthernetFrame} {arpm : ARPMessage} (accepted : n.accepts frame = some arpm) :
    (arpm.opcode = ARPMessage.opcodeRequest ∨ arpm.opcode = ARPMessage.opcodeReply) ∧
      ¬(arpm.targetIpAddress ≠ n.ipAddress ∧ arpm.senderIpAddress ≠ arpm.targetIpAddress) ∧
      n.recvFrame frame = n.recvArp arpm := by
  unfold accepts at accepted
  split at accepted
  · rename_i kind
    obtain ⟨⟨read, err⟩, found, kept⟩ := Option.bind_eq_some_iff.1 accepted
    dsimp only at kept
    split at kept
    · rename_i fine
      cases kept
      obtain ⟨rfl, meant⟩ := fine
      obtain ⟨b, -, parsed⟩ := Option.bind_eq_some_iff.1 found
      refine ⟨ARPMessage.opcode_of_parse parsed, meant, ?_⟩
      rw [recvFrame, kind, found]
      rfl
    · cases kept
  · cases accepted

/-- The message is learned from unless what comes before throws. -/
theorem learn_after (c : Call Unit) (arpm : ARPMessage) :
    (c.andThen fun n => (⟨n.learn arpm, some none⟩ : Call (Option InternetDatagram))).interface =
      if c.result = some () then c.interface.learn arpm else c.interface := by
  unfold Call.andThen
  cases c.result <;> rfl

section Accepted

variable {arpm : ARPMessage}
  (meant : ¬(arpm.targetIpAddress ≠ n.ipAddress ∧ arpm.senderIpAddress ≠ arpm.targetIpAddress))

include meant

theorem recvArp_request_eq (request : arpm.opcode = ARPMessage.opcodeRequest) : (n.recvArp arpm).interface =
    (n.sendArp arpm.senderIpAddress (some arpm.senderEthernetAddress)).interface.learn arpm := by
  rw [recvArp, if_neg meant]
  dsimp only
  rw [if_pos request, learn_after, if_pos (n.sendArp_spec _ _).1]

/-- **A request** is answered and learned from; the queue is not looked at. -/
theorem recvArp_request (request : arpm.opcode = ARPMessage.opcodeRequest) :
    ∃ m, Asks n m ∧ (n.recvArp arpm).interface = m.learn arpm :=
  ⟨_, (n.sendArp_spec _ _).2, recvArp_request_eq meant request⟩

theorem recvArp_reply_eq (reply : arpm.opcode = ARPMessage.opcodeReply) {c : Call Unit}
    (resent : n.resend arpm.senderIpAddress arpm.senderEthernetAddress (n.sentDgram arpm.senderIpAddress) = c) :
    (n.recvArp arpm).interface = if c.result = some () then c.interface.learn arpm else c.interface := by
  have noRequest : arpm.opcode ≠ ARPMessage.opcodeRequest := by
    rw [reply]
    decide
  rw [recvArp, if_neg meant]
  dsimp only
  rw [if_neg noRequest, if_pos reply, resent, learn_after]

/-- **A reply** flushes the queue of its sender, and is learned from if that does not throw. -/
theorem recvArp_reply (reply : arpm.opcode = ARPMessage.opcodeReply) {l : List InternetDatagram}
    (queued : n.sentDgram arpm.senderIpAddress = l) :
    ∃ m, Flushes arpm.senderIpAddress (l.takeWhile sendable) (l.dropWhile sendable) n m ∧
      (n.recvArp arpm).interface = if l.dropWhile sendable = [] then m.learn arpm else m := by
  obtain ⟨flushes, complete⟩ := n.resend_spec arpm.senderEthernetAddress queued
  refine ⟨_, flushes, ?_⟩
  rw [recvArp_reply_eq meant reply rfl, queued]
  simp only [complete]

end Accepted

end Calls

end NetworkInterface

end Sponge
