import Sponge.Net.LinkCodec
import Sponge.Net.PendingOrder

/-!
# Which ARP requests are answered

A request is answered through `send_arp`, which also puts out the interface's own
requests: it is silent within five seconds of the last message to the same
address, whatever that was, and it makes a request of what it broadcasts. The
answer to a frame is therefore read off the table entry of the sender
(`recvFrame_replies`), and a request is answered as it should be exactly when
that entry is old enough (`answers_iff`).
-/

namespace Sponge

/-- The ARP message in the payload of a frame. -/
def EthernetFrame.arpMessage (frame : EthernetFrame) : Option ARPMessage :=
  (frame.payload.toBuffer.bind ({} : ARPMessage).parse).bind fun (arpm, err) => if err = .noError then some arpm else none

/-- The ARP reply in a frame, with the address it goes to. -/
def EthernetFrame.arpReply (frame : EthernetFrame) : Option (EthernetAddress × ARPMessage) :=
  if frame.header.type = EthernetHeader.typeARP then
    frame.arpMessage.bind fun arpm => if arpm.opcode = ARPMessage.opcodeReply then some (frame.header.dst, arpm) else none
  else none

/-- The ARP replies among the frames. -/
def arpReplies (frames : List EthernetFrame) : List (EthernetAddress × ARPMessage) :=
  frames.filterMap EthernetFrame.arpReply

theorem EthernetFrame.arpReply_of_message {frame : EthernetFrame} {arpm : ARPMessage}
    (type : frame.header.type = EthernetHeader.typeARP) (message : frame.arpMessage = some arpm) :
    frame.arpReply = if arpm.opcode = ARPMessage.opcodeReply then some (frame.header.dst, arpm) else none := by
  rw [arpReply, if_pos type, message]
  rfl

namespace NetworkInterface

/-- A message went to the address in the last five seconds. -/
def limited (n : NetworkInterface) (ip : UInt32) : Bool :=
  (n.arpTable ip).any fun se => decide (sub64 n.timer se.askTime ≤ 5 * 1000)

/-- The frame of an ARP message. -/
def arpOut (n : NetworkInterface) (dst : EthernetAddress) (payload : List UInt8) : EthernetFrame where
  header := { dst, src := n.ethernetAddress, type := EthernetHeader.typeARP }
  payload := .ofString payload

section Answers

variable (n : NetworkInterface)

/-- The test of `send_arp`. -/
theorem limited_eq (ip : UInt32) :
    (!(n.arpTable ip).isNone && decide (sub64 n.timer ((n.arpTable ip).getD {}).askTime ≤ 5 * 1000)) = n.limited ip := by
  rw [limited]
  cases n.arpTable ip <;> simp

theorem arpMessage_arpOut (dst : EthernetAddress) {payload : List UInt8} {arpm : ARPMessage}
    (read : ARPMessage.parse {} payload = some (arpm, .noError)) : (n.arpOut dst payload).arpMessage = some arpm := by
  show ((ARPMessage.parse {} payload).bind _) = _
  rw [read]
  rfl

/-- **`send_arp`** is silent, or puts out the message, which can be read back. -/
theorem sendArp_frames (ip : UInt32) (eth : Option EthernetAddress) :
    ∃ sent, (n.sendArp ip eth).interface.framesOut = n.framesOut ++ sent ∧
      if n.limited ip then sent = []
      else ∃ payload, sent = [n.arpOut (n.arpFrame ip eth).1 payload] ∧
        ARPMessage.parse {} payload = some ((n.arpFrame ip eth).2, .noError) := by
  have supported : (n.arpFrame ip eth).2.supported = true := by
    simp only [ARPMessage.supported, arpFrame]
    split <;> decide
  obtain ⟨payload, written, read⟩ := ARPMessage.parse_serialize supported
  unfold sendArp
  dsimp only
  rw [limited_eq]
  by_cases silent : n.limited ip = true
  · refine ⟨[], ?_, by rw [if_pos silent]⟩
    rw [if_pos silent, List.append_nil]
  · have same : ∀ table, NetworkInterface.arpFrame { n with arpTable := table } ip eth = n.arpFrame ip eth := fun _ => rfl
    refine ⟨[n.arpOut (n.arpFrame ip eth).1 payload], ?_, by rw [if_neg silent]; exact ⟨payload, rfl, read {}⟩⟩
    rw [if_neg silent, same, written]
    rfl

/-- The reply of `send_arp` to the sender of a request; what it broadcasts is not one. -/
theorem sendArp_replies (ip : UInt32) (address : EthernetAddress) :
    ∃ sent, (n.sendArp ip (some address)).interface.framesOut = n.framesOut ++ sent ∧
      arpReplies sent = if n.limited ip ∨ address = ethernetBroadcast then []
        else [(address, (n.arpFrame ip (some address)).2)] := by
  obtain ⟨sent, out, frames⟩ := n.sendArp_frames ip (some address)
  refine ⟨sent, out, ?_⟩
  by_cases silent : n.limited ip = true
  · rw [if_pos silent] at frames
    rw [frames, if_pos (.inl silent)]
    rfl
  · rw [if_neg silent] at frames
    obtain ⟨payload, rfl, read⟩ := frames
    have sends := EthernetFrame.arpReply_of_message rfl (n.arpMessage_arpOut (n.arpFrame ip (some address)).1 read)
    by_cases broadcast : address = ethernetBroadcast
    · have request : (n.arpFrame ip (some address)).2.opcode = ARPMessage.opcodeRequest := if_pos broadcast
      rw [request, if_neg (by decide)] at sends
      rw [if_pos (.inr broadcast), arpReplies, List.filterMap_cons_none sends]
      rfl
    · have reply : (n.arpFrame ip (some address)).2.opcode = ARPMessage.opcodeReply := if_neg broadcast
      rw [if_pos reply] at sends
      rw [if_neg (not_or_intro silent broadcast), arpReplies, List.filterMap_cons_some sends]
      rfl

variable {n} {frame : EthernetFrame} {arpm : ARPMessage}

/-- The requests that `recv_frame` acts on. -/
theorem accepts_of_message (addressed : frame.header.dst = n.ethernetAddress ∨ frame.header.dst = ethernetBroadcast)
    (message : frame.arpMessage = some arpm) :
    n.accepts frame = if frame.header.type = EthernetHeader.typeARP ∧
      (arpm.targetIpAddress = n.ipAddress ∨ arpm.senderIpAddress = arpm.targetIpAddress) then some arpm else none := by
  have kind : n.pkgType frame.header = .arp ↔ frame.header.type = EthernetHeader.typeARP := by
    by_cases type : frame.header.type = EthernetHeader.typeARP
    · refine iff_of_true ?_ type
      by_cases own : frame.header.dst = n.ethernetAddress
      · rw [pkgType, if_pos own, if_pos type]
      · rw [pkgType, if_neg own, if_pos ⟨addressed.resolve_left own, type⟩]
    · refine iff_of_false (fun arp => ?_) type
      have other : ¬(frame.header.dst = ethernetBroadcast ∧ frame.header.type = EthernetHeader.typeARP) := fun both =>
        type both.2
      rw [pkgType, if_neg type, if_neg other] at arp
      split at arp
      · split at arp <;> cases arp
      · cases arp
  obtain ⟨⟨read, err⟩, parsed, kept⟩ := Option.bind_eq_some_iff.1 message
  dsimp only at kept
  split at kept
  · rename_i noError
    cases kept
    have meant : (err = .noError ∧ ¬(arpm.targetIpAddress ≠ n.ipAddress ∧ arpm.senderIpAddress ≠ arpm.targetIpAddress)) ↔
        (arpm.targetIpAddress = n.ipAddress ∨ arpm.senderIpAddress = arpm.targetIpAddress) := by
      simp only [noError, true_and, not_and_or, not_not]
    rw [accepts, parsed, Option.bind_some]
    simp only [kind, meant, ite_and]
  · cases kept

/-- What is asked of the interface when it gets a request: if the request is for it, exactly one reply goes out, to the
requester and with the interface's own addresses; otherwise none does. -/
def Answers (n : NetworkInterface) (frame : EthernetFrame) (arpm : ARPMessage) : Prop :=
  ∃ sent, (n.recvFrame frame).interface.framesOut = n.framesOut ++ sent ∧
    if arpm.targetIpAddress = n.ipAddress then
      ∃ reply : ARPMessage, arpReplies sent = [(arpm.senderEthernetAddress, reply)] ∧
        reply.senderEthernetAddress = n.ethernetAddress ∧ reply.senderIpAddress = n.ipAddress
    else arpReplies sent = []

/-- A reply goes out if the message is acted on: the frame is an ARP frame, the requester gave an address of its own,
and no message went to it in the last five seconds. -/
def Speaks (n : NetworkInterface) (frame : EthernetFrame) (arpm : ARPMessage) : Prop :=
  frame.header.type = EthernetHeader.typeARP ∧ arpm.senderEthernetAddress ≠ ethernetBroadcast ∧
    ∀ se ∈ n.arpTable arpm.senderIpAddress, 5000 < sub64 n.timer se.askTime

theorem limited_iff (n : NetworkInterface) (ip : UInt32) :
    n.limited ip = true ↔ ¬ ∀ se ∈ n.arpTable ip, 5000 < sub64 n.timer se.askTime := by
  rw [limited]
  cases n.arpTable ip <;> simp

section Requests

variable (addressed : frame.header.dst = n.ethernetAddress ∨ frame.header.dst = ethernetBroadcast)
  (message : frame.arpMessage = some arpm) (request : arpm.opcode = ARPMessage.opcodeRequest)

include addressed message request

/-- The reply to a request, if there is one. -/
theorem recvFrame_replies : ∃ sent, (n.recvFrame frame).interface.framesOut = n.framesOut ++ sent ∧
    ((n.Speaks frame arpm ∧ (arpm.targetIpAddress = n.ipAddress ∨ arpm.senderIpAddress = arpm.targetIpAddress)) ∧
        arpReplies sent = [(arpm.senderEthernetAddress,
          (n.arpFrame arpm.senderIpAddress (some arpm.senderEthernetAddress)).2)] ∨
      ¬ (n.Speaks frame arpm ∧ (arpm.targetIpAddress = n.ipAddress ∨ arpm.senderIpAddress = arpm.targetIpAddress)) ∧
        arpReplies sent = []) := by
  have accepts := accepts_of_message addressed message
  by_cases taken : frame.header.type = EthernetHeader.typeARP ∧
      (arpm.targetIpAddress = n.ipAddress ∨ arpm.senderIpAddress = arpm.targetIpAddress)
  · rw [if_pos taken] at accepts
    obtain ⟨-, meant, run⟩ := recvFrame_of_some accepts
    obtain ⟨sent, out, replies⟩ := n.sendArp_replies arpm.senderIpAddress arpm.senderEthernetAddress
    refine ⟨sent, ?_, ?_⟩
    · rw [run, recvArp_request_eq meant request]
      exact out
    · by_cases silent : n.limited arpm.senderIpAddress = true ∨ arpm.senderEthernetAddress = ethernetBroadcast
      · rw [if_pos silent] at replies
        refine .inr ⟨fun speaks => ?_, replies⟩
        rcases silent with limited | broadcast
        · exact (limited_iff n _).1 limited speaks.1.2.2
        · exact speaks.1.2.1 broadcast
      · rw [if_neg silent] at replies
        obtain ⟨free, address⟩ := not_or.1 silent
        rw [limited_iff, not_not] at free
        exact .inl ⟨⟨⟨taken.1, address, free⟩, taken.2⟩, replies⟩
  · rw [if_neg taken] at accepts
    refine ⟨[], ?_, .inr ⟨fun speaks => taken ⟨speaks.1.1, speaks.2⟩, rfl⟩⟩
    rw [recvFrame_of_none accepts, List.append_nil]

/-- **Which requests are answered as they should be**, in any state of the interface: those for it when it speaks, those
for another host when it does not speak or they are not gratuitous. -/
theorem answers_iff : n.Answers frame arpm ↔
    (arpm.targetIpAddress = n.ipAddress → n.Speaks frame arpm) ∧
      (arpm.targetIpAddress ≠ n.ipAddress → arpm.senderIpAddress = arpm.targetIpAddress → ¬ n.Speaks frame arpm) := by
  obtain ⟨sent, out, replies⟩ := recvFrame_replies addressed message request
  have only : ∀ sent', (n.recvFrame frame).interface.framesOut = n.framesOut ++ sent' → sent' = sent :=
    fun sent' out' => List.append_cancel_left (out'.symm.trans out)
  constructor
  · rintro ⟨sent', out', answered⟩
    cases only sent' out'
    refine ⟨fun own => ?_, fun other gratuitous speaks => ?_⟩
    · rw [if_pos own] at answered
      obtain ⟨reply, one, -⟩ := answered
      rcases replies with ⟨speaks, -⟩ | ⟨-, none⟩
      · exact speaks.1
      · rw [none] at one
        cases one
    · rw [if_neg other] at answered
      rcases replies with ⟨-, one⟩ | ⟨silent, -⟩
      · rw [answered] at one
        cases one
      · exact silent ⟨speaks, .inr gratuitous⟩
  · rintro ⟨forUs, forOthers⟩
    refine ⟨sent, out, ?_⟩
    split
    · rename_i own
      rcases replies with ⟨-, one⟩ | ⟨silent, -⟩
      · exact ⟨_, one, rfl, rfl⟩
      · exact absurd ⟨forUs own, .inl own⟩ silent
    · rename_i other
      rcases replies with ⟨⟨speaks, own | gratuitous⟩, -⟩ | ⟨-, none⟩
      · exact absurd own other
      · exact absurd speaks (forOthers other gratuitous)
      · exact none

end Requests

end Answers

/-- The first request of the neighbour is answered. -/
theorem answers_iff_first :
    Answers { ethernetAddress := ownEth, ipAddress := ownIp }
      (arpTo ethernetBroadcast (arpFromNeighbour ARPMessage.opcodeRequest)) (arpFromNeighbour ARPMessage.opcodeRequest) :=
  (answers_iff (.inr rfl) (by decide +kernel) rfl).2
    ⟨fun _ => ⟨rfl, by decide, nofun⟩, fun other => absurd rfl other⟩

/-- The same request again, within five seconds, is not. -/
theorem second_request_unanswered :
    ¬ ∀ (ethernetAddress : EthernetAddress) (ipAddress : UInt32) (t : Traced),
      Reaches Traced.step (fun _ _ => True) { interface := { ethernetAddress, ipAddress } } t →
      ∀ (frame : EthernetFrame) (arpm : ARPMessage),
        frame.header.dst = t.interface.ethernetAddress ∨ frame.header.dst = ethernetBroadcast →
        frame.arpMessage = some arpm → arpm.opcode = ARPMessage.opcodeRequest → t.interface.Answers frame arpm := by
  intro claim
  obtain ⟨t, run, seen⟩ := Option.map_eq_some_iff.1 (show (follow Traced.step (fun _ _ => True)
      { interface := { ethernetAddress := ownEth, ipAddress := ownIp } }
      [.recvFrame (arpTo ethernetBroadcast (arpFromNeighbour ARPMessage.opcodeRequest))]).map
      (fun t => (t.interface.ipAddress, t.interface.framesOut.length, (t.interface.recvFrame
        (arpTo ethernetBroadcast (arpFromNeighbour ARPMessage.opcodeRequest))).interface.framesOut.length)) =
      some (ownIp, 1, 1) by decide +kernel)
  simp only [Prod.mk.injEq] at seen
  obtain ⟨address, before, after⟩ := seen
  obtain ⟨sent, out, answered⟩ := claim _ _ t (Reaches.start.follow run)
    (arpTo ethernetBroadcast (arpFromNeighbour ARPMessage.opcodeRequest)) (arpFromNeighbour ARPMessage.opcodeRequest)
    (.inr rfl) (by decide +kernel) rfl
  rw [out, List.length_append, before] at after
  have nothing : sent = [] := List.length_eq_zero_iff.1 (by omega)
  rw [address, if_pos (show (arpFromNeighbour ARPMessage.opcodeRequest).targetIpAddress = ownIp from rfl),
    nothing] at answered
  obtain ⟨reply, one, -⟩ := answered
  cases one

end NetworkInterface

end Sponge
