import Mathlib.Data.List.Forall2
import Mathlib.Data.List.TakeWhile
import Sponge.Net.ArpAnswers

/-!
# Datagrams are conserved and go to the address last heard of

Beside the interface the run keeps the time that has really passed, the last ARP
message accepted from each address, every call of `send_datagram`, and each
datagram put out with what had last been heard of its hop. As long as every
datagram can be serialized and the clock does not wrap, the table is exactly what
was heard, so the two paths on which frames are put out take the address from the
same place (`datagrams_conserved`).
-/

namespace Sponge

namespace NetworkInterface

/-- The IPv4 frames put out. -/
def ipv4Frames (n : NetworkInterface) : List EthernetFrame :=
  n.framesOut.filter fun frame => frame.header.type == EthernetHeader.typeIPv4

/-- The frame of a datagram. -/
def ipv4Out (n : NetworkInterface) (dst : EthernetAddress) (payload : BufferList) : EthernetFrame where
  header := { dst, src := n.ethernetAddress, type := EthernetHeader.typeIPv4 }
  payload := payload

/-- A datagram put out for a next hop, with the last ARP message accepted from the hop (its sender's address and the
time it was received) and the time. -/
structure Emission where
  hop : UInt32
  dgram : InternetDatagram
  heard : Option (EthernetAddress × Nat)
  now : Nat

/-- An interface and what happened to it. -/
structure Watched where
  interface : NetworkInterface
  now : Nat := 0
  heard : UInt32 → Option (EthernetAddress × Nat) := fun _ => none
  submitted : List (UInt32 × InternetDatagram) := []
  emitted : List Emission := []

namespace Watched

/-- The time that passes in a call. -/
def elapsed : Op → Nat
  | .tick ms => ms
  | _ => 0

/-- The datagram given to `send_datagram`, whether the call throws or not. -/
def given : Op → List (UInt32 × InternetDatagram)
  | .sendDatagram dgram nextHop => [(nextHop, dgram)]
  | _ => []

/-- The last ARP message accepted from each address, after the call. -/
def hears (w : Watched) : Op → UInt32 → Option (EthernetAddress × Nat)
  | .recvFrame frame =>
    match w.interface.accepts frame with
    | some arpm => Function.update w.heard arpm.senderIpAddress (some (arpm.senderEthernetAddress, w.now))
    | none => w.heard
  | _ => w.heard

def step (w : Watched) (op : Op) : Option Watched := some {
  interface := op.apply w.interface
  now := w.now + elapsed op
  heard := w.hears op
  submitted := w.submitted ++ given op
  emitted := w.emitted ++ (op.emits w.interface).map fun entry => ⟨entry.1, entry.2, w.hears op entry.1, w.now⟩ }

/-- The frame carries the datagram, from the interface to the address of the last ARP message of the hop, which was
received at most 30 seconds before. -/
def Delivers (own : EthernetAddress) (frame : EthernetFrame) (e : Emission) : Prop :=
  e.dgram.serialize = some frame.payload ∧ frame.header.src = own ∧
    ∃ received, e.heard = some (frame.header.dst, received) ∧ e.now ≤ received + 30000

/-- For each next hop, what was put out and what is queued is what was submitted; and the IPv4 frames deliver what was
put out. -/
structure Conserved (w : Watched) : Prop where
  datagrams : ∀ hop, (forHop hop (w.emitted.map fun e => (e.hop, e.dgram)) ++ w.interface.sentDgram hop).Perm
    (forHop hop w.submitted)
  frames : List.Forall₂ (Delivers w.interface.ethernetAddress) w.interface.ipv4Frames w.emitted

/-- A datagram of version 4 whose payload has the length of its header. -/
def WellFormed (dgram : InternetDatagram) : Prop :=
  dgram.payload.size = dgram.header.payloadLength.toNat ∧ dgram.header.ver = 4

instance (dgram : InternetDatagram) : Decidable (WellFormed dgram) := inferInstanceAs (Decidable (_ ∧ _))

/-- Only well-formed datagrams are submitted. -/
def WellUsed (_ : Watched) : Op → Prop
  | .sendDatagram dgram _ => WellFormed dgram
  | _ => True

instance (w : Watched) : DecidablePred w.WellUsed
  | .sendDatagram dgram _ => inferInstanceAs (Decidable (WellFormed dgram))
  | .recvFrame _ => .isTrue trivial
  | .tick _ => .isTrue trivial

/-- What is asked of a call beyond that: the header has at least its minimal length, and the clock does not pass
`2 ^ 64` milliseconds. -/
def Healthy (w : Watched) : Op → Prop
  | .sendDatagram dgram _ => WellFormed dgram ∧ 5 ≤ dgram.header.hlen
  | .recvFrame _ => True
  | .tick ms => w.interface.timer + ms < word64

instance (w : Watched) : DecidablePred w.Healthy
  | .sendDatagram dgram _ => inferInstanceAs (Decidable (WellFormed dgram ∧ 5 ≤ dgram.header.hlen))
  | .recvFrame _ => .isTrue trivial
  | .tick ms => inferInstanceAs (Decidable (w.interface.timer + ms < word64))

end Watched

section Calls

variable {n m : NetworkInterface}

theorem ipv4Frames_append {frames : List EthernetFrame} (out : m.framesOut = n.framesOut ++ frames) :
    m.ipv4Frames = n.ipv4Frames ++ frames.filter fun frame => frame.header.type == EthernetHeader.typeIPv4 := by
  rw [ipv4Frames, out, List.filter_append]
  rfl

theorem ipv4Frames_of_ipv4 {frames : List EthernetFrame} (out : m.framesOut = n.framesOut ++ frames)
    (type : ∀ frame ∈ frames, frame.header.type = EthernetHeader.typeIPv4) : m.ipv4Frames = n.ipv4Frames ++ frames := by
  rw [ipv4Frames_append out, List.filter_eq_self.2]
  exact fun frame member => beq_iff_eq.2 (type frame member)

theorem sendArp_ipv4Frames (n : NetworkInterface) (ip : UInt32) (eth : Option EthernetAddress) :
    (n.sendArp ip eth).interface.ipv4Frames = n.ipv4Frames := by
  obtain ⟨sent, out, frames⟩ := n.sendArp_frames ip eth
  rw [ipv4Frames_append out]
  split at frames
  · rw [frames]
    exact List.append_nil _
  · obtain ⟨payload, rfl, -⟩ := frames
    exact List.append_nil _

/-- A well-formed datagram with a whole header can be sent. -/
theorem sendable_of_wellFormed {dgram : InternetDatagram} (formed : Watched.WellFormed dgram)
    (words : 5 ≤ dgram.header.hlen) :
    sendable dgram = true := by
  have least : 5 ≤ dgram.header.hlen.toNat := UInt8.le_iff_toNat_le.1 words
  have written : ∀ cksum, ∃ bytes, ({ dgram.header with cksum } : IPv4Header).serialize = some bytes := by
    intro cksum
    rw [IPv4Header.serialize, if_neg (not_not_intro formed.2), if_neg (by simp only [IPv4Header.headerLength]; omega)]
    exact ⟨_, rfl⟩
  obtain ⟨zero, first⟩ := written 0
  obtain ⟨whole, second⟩ := written (({} : InternetChecksum).add zero).value
  rw [sendable, IPv4Datagram.serialize, if_neg (not_not_intro formed.1), first, Option.bind_eq_bind, Option.bind_some,
    second]
  rfl

/-- Where every queued datagram can be sent, the loop of `recv_frame` sends them all. -/
theorem resend_all (n : NetworkInterface) {ip : UInt32} (address : EthernetAddress) {l : List InternetDatagram}
    (queued : n.sentDgram ip = l) (ready : ∀ dgram ∈ l, sendable dgram = true) :
    ∃ frames, n.resend ip address l = ⟨{ n with
        framesOut := n.framesOut ++ frames
        sentDgram := Function.update n.sentDgram ip [] }, some ()⟩ ∧
      List.Forall₂ (fun frame dgram => ∃ payload, dgram.serialize = some payload ∧ frame = n.ipv4Out address payload)
        frames l := by
  induction l generalizing n with
  | nil =>
    have same := Function.update_eq_self ip n.sentDgram
    rw [queued] at same
    refine ⟨[], ?_, .nil⟩
    rw [resend, List.append_nil, same]
  | cons dgram rest ih =>
    rcases n.sendDgram_spec dgram address with ⟨-, thrown⟩ | ⟨payload, written, run⟩
    · have stuck := ready dgram (by simp)
      rw [sendable, thrown] at stuck
      cases stuck
    · obtain ⟨frames, all, each⟩ := ih { n with
        framesOut := n.framesOut ++ [n.ipv4Out address payload]
        sentDgram := Function.update n.sentDgram ip rest } (Function.update_self ip rest n.sentDgram)
        fun dgram member => ready dgram (by simp [member])
      refine ⟨n.ipv4Out address payload :: frames, ?_, .cons ⟨payload, written, rfl⟩ each⟩
      rw [resend, run, Call.andThen_some]
      refine all.trans ?_
      rw [List.append_assoc, Function.update_idem]
      rfl

/-- What `send_datagram` finds usable is a mapping. -/
theorem mapping_of_usable {ip : UInt32} {se : EtbNode} (usable : n.usable ip = some se) :
    n.mapping ip = some (se.eAddr, se.updatedTime) ∧ sub64 n.timer se.updatedTime ≤ 30000 := by
  obtain ⟨found, fresh⟩ := Option.filter_eq_some_iff.1 usable
  rw [Bool.and_eq_true, decide_eq_true_eq] at fresh
  refine ⟨?_, fresh.2⟩
  rw [mapping, found, Option.bind_some, EtbNode.learned, if_pos fresh.1]

end Calls

namespace Watched

/-- The invariant: the clock tells the time, the table is what was heard, and all that is queued can be sent. -/
structure Held (w : Watched) : Prop where
  clock : w.interface.timer = w.now
  fits : w.now < word64
  heard : w.interface.mapping = w.heard
  past : ∀ ip address received, w.heard ip = some (address, received) → received ≤ w.now
  ready : ∀ ip, ∀ dgram ∈ w.interface.sentDgram ip, sendable dgram = true

/-- What a call does to the interface, in terms of what was given to it and what it puts out. -/
structure Moves (w : Watched) (op : Op) : Prop where
  own : (op.apply w.interface).ethernetAddress = w.interface.ethernetAddress
  clock : (op.apply w.interface).timer = w.now + elapsed op
  heard : (op.apply w.interface).mapping = w.hears op
  ready : ∀ ip, ∀ dgram ∈ (op.apply w.interface).sentDgram ip, sendable dgram = true
  datagrams : ∀ hop, (forHop hop (op.emits w.interface) ++ (op.apply w.interface).sentDgram hop).Perm
    (w.interface.sentDgram hop ++ forHop hop (given op))
  frames : ∃ new, (op.apply w.interface).ipv4Frames = w.interface.ipv4Frames ++ new ∧
    List.Forall₂ (fun frame entry =>
      Delivers w.interface.ethernetAddress frame ⟨entry.1, entry.2, w.hears op entry.1, w.now⟩) new (op.emits w.interface)

section Moves

variable {w : Watched}

theorem moves_sendDatagram (h : w.Held) {dgram : InternetDatagram} (good : sendable dgram = true) (hop : UInt32) :
    w.Moves (.sendDatagram dgram hop) := by
  have tagged : ∀ ip, forHop ip [(hop, dgram)] = if hop = ip then [dgram] else [] := fun ip => forHop_tagged ip hop [dgram]
  cases known : w.interface.usable hop with
  | none =>
    have run : Op.apply w.interface (.sendDatagram dgram hop) = _ := congrArg Call.interface (sendDatagram_eq dgram known)
    have asks := (w.interface.sendArp_spec hop none).2
    have emits := emits_of_unknown dgram known
    have queue : (Op.apply w.interface (.sendDatagram dgram hop)).sentDgram =
        Function.update w.interface.sentDgram hop (w.interface.sentDgram hop ++ [dgram]) := by
      rw [run, asks.queue]
    refine ⟨by rw [run]; exact asks.ethernetAddress, by rw [run]; exact asks.timer.trans h.clock,
      by rw [run]; exact asks.mapping.trans h.heard, ?_, fun ip => ?_, ⟨[], ?_, by rw [emits]; exact .nil⟩⟩
    · intro ip dgram' member
      rw [queue, update_append, List.mem_append] at member
      rcases member with old | new
      · exact h.ready ip dgram' old
      · split at new
        · rw [List.mem_singleton.1 new]
          exact good
        · cases new
    · rw [emits, queue, forHop_nil, List.nil_append, update_append, given, tagged]
    · rw [run, List.append_nil]
      exact w.interface.sendArp_ipv4Frames hop none
  | some se =>
    obtain ⟨mapping, fresh⟩ := mapping_of_usable known
    have heard : w.heard hop = some (se.eAddr, se.updatedTime) := h.heard ▸ mapping
    have past := h.past _ _ _ heard
    rw [h.clock, sub64_eq past h.fits] at fresh
    rcases w.interface.sendDgram_spec dgram se.eAddr with ⟨-, thrown⟩ | ⟨payload, written, sent⟩
    · rw [sendable, thrown] at good
      cases good
    · have run : Op.apply w.interface (.sendDatagram dgram hop) = _ :=
        congrArg Call.interface ((sendDatagram_of_some dgram known).trans sent)
      have emits : Op.emits w.interface (.sendDatagram dgram hop) = [(hop, dgram)] := by
        rw [emits_of_usable known, if_pos good]
      refine ⟨by rw [run], by rw [run]; exact h.clock, by rw [run]; exact h.heard, by rw [run]; exact h.ready, fun ip => ?_,
        ⟨[w.interface.ipv4Out se.eAddr payload], ?_, ?_⟩⟩
      · rw [emits, run, given]
        exact List.perm_append_comm
      · rw [run]
        exact ipv4Frames_of_ipv4 rfl fun frame member => by rw [List.mem_singleton.1 member]; rfl
      · rw [emits]
        exact .cons ⟨written, rfl, se.updatedTime, heard, by dsimp only; omega⟩ .nil

/-- A frame that is not taken leaves everything. -/
theorem moves_of_ignored (h : w.Held) {frame : EthernetFrame} (ignored : w.interface.accepts frame = none) :
    w.Moves (.recvFrame frame) := by
  have run : Op.apply w.interface (.recvFrame frame) = w.interface := recvFrame_of_none ignored
  have emits := emits_of_ignored ignored
  have hears : w.hears (.recvFrame frame) = w.heard := by rw [Watched.hears, ignored]
  refine ⟨by rw [run], by rw [run]; exact h.clock, by rw [run, hears]; exact h.heard, by rw [run]; exact h.ready,
    fun ip => ?_,
    ⟨[], by rw [run, List.append_nil], by rw [emits]; exact .nil⟩⟩
  have nothing : given (.recvFrame frame) = [] := rfl
  rw [emits, run, nothing, forHop_nil, List.append_nil, List.nil_append]

section Accepted

variable (h : w.Held) {frame : EthernetFrame} {arpm : ARPMessage} (accepted : w.interface.accepts frame = some arpm)

include accepted

theorem hears_of_accepted : w.hears (.recvFrame frame) =
    Function.update w.heard arpm.senderIpAddress (some (arpm.senderEthernetAddress, w.now)) := by
  rw [Watched.hears, accepted]

include h

/-- A mapping that is learned now is what is heard. -/
theorem mapping_of_learn {m : NetworkInterface} (mapping : m.mapping = w.interface.mapping)
    (timer : m.timer = w.interface.timer) : (m.learn arpm).mapping = w.hears (.recvFrame frame) := by
  rw [learn_mapping, mapping, h.heard, timer, h.clock, hears_of_accepted accepted]

theorem moves_of_request (request : arpm.opcode = ARPMessage.opcodeRequest) : w.Moves (.recvFrame frame) := by
  obtain ⟨-, meant, received⟩ := recvFrame_of_some accepted
  have run : Op.apply w.interface (.recvFrame frame) = _ :=
    (congrArg Call.interface received).trans (recvArp_request_eq meant request)
  have asks := (w.interface.sendArp_spec arpm.senderIpAddress (some arpm.senderEthernetAddress)).2
  have emits := emits_of_request accepted request
  have queue : (Op.apply w.interface (.recvFrame frame)).sentDgram = w.interface.sentDgram := by
    rw [run]
    exact asks.queue
  refine ⟨by rw [run]; exact asks.ethernetAddress, by rw [run]; exact asks.timer.trans h.clock, ?_,
    by rw [queue]; exact h.ready, fun ip => ?_, ⟨[], ?_, by rw [emits]; exact .nil⟩⟩
  · rw [run]
    exact mapping_of_learn h accepted asks.mapping asks.timer
  · have nothing : given (.recvFrame frame) = [] := rfl
    rw [emits, queue, nothing, forHop_nil, List.append_nil, List.nil_append]
  · rw [run, List.append_nil]
    exact w.interface.sendArp_ipv4Frames _ _

theorem moves_of_reply (reply : arpm.opcode = ARPMessage.opcodeReply) : w.Moves (.recvFrame frame) := by
  obtain ⟨-, meant, received⟩ := recvFrame_of_some accepted
  obtain ⟨frames, all, each⟩ := w.interface.resend_all arpm.senderEthernetAddress rfl (h.ready arpm.senderIpAddress)
  have noRequest : arpm.opcode ≠ ARPMessage.opcodeRequest := by rw [reply]; decide
  have run : Op.apply w.interface (.recvFrame frame) = NetworkInterface.learn { w.interface with
      framesOut := w.interface.framesOut ++ frames
      sentDgram := Function.update w.interface.sentDgram arpm.senderIpAddress [] } arpm := by
    rw [Op.apply, received, recvArp, if_neg meant]
    dsimp only
    rw [if_neg noRequest, if_pos reply, all]
    rfl
  have whole : (w.interface.sentDgram arpm.senderIpAddress).takeWhile sendable =
      w.interface.sentDgram arpm.senderIpAddress := List.takeWhile_eq_self_iff.2 (h.ready arpm.senderIpAddress)
  have emits : Op.emits w.interface (.recvFrame frame) =
      (w.interface.sentDgram arpm.senderIpAddress).map fun dgram => (arpm.senderIpAddress, dgram) := by
    rw [emits_of_reply accepted reply, whole]
  have heard : w.hears (.recvFrame frame) arpm.senderIpAddress = some (arpm.senderEthernetAddress, w.now) := by
    rw [hears_of_accepted accepted, Function.update_self]
  refine ⟨by rw [run]; rfl, by rw [run]; exact h.clock, ?_, ?_, fun ip => ?_, ⟨frames, ?_, ?_⟩⟩
  · rw [run]
    exact mapping_of_learn h accepted rfl rfl
  · rw [run]
    intro ip dgram member
    replace member : dgram ∈ Function.update w.interface.sentDgram arpm.senderIpAddress [] ip := member
    by_cases here : ip = arpm.senderIpAddress
    · rw [here, Function.update_self] at member
      cases member
    · rw [Function.update_of_ne here] at member
      exact h.ready ip dgram member
  · have nothing : given (.recvFrame frame) = [] := rfl
    rw [emits, run, nothing, forHop_tagged, forHop_nil, List.append_nil]
    show ((if arpm.senderIpAddress = ip then w.interface.sentDgram arpm.senderIpAddress else []) ++
      Function.update w.interface.sentDgram arpm.senderIpAddress [] ip).Perm _
    by_cases here : arpm.senderIpAddress = ip
    · rw [if_pos here, here, Function.update_self, List.append_nil]
    · rw [if_neg here, Function.update_of_ne (Ne.symm here), List.nil_append]
  · rw [run]
    have typed : List.Forall₂ (fun frame _ => frame.header.type = EthernetHeader.typeIPv4 ∧ True) frames
        (w.interface.sentDgram arpm.senderIpAddress) := by
      refine each.imp ?_
      rintro frame dgram ⟨payload, -, out⟩
      exact ⟨by rw [out]; rfl, trivial⟩
    exact ipv4Frames_of_ipv4 rfl ((List.forall₂_and_left _ _).1 typed).1
  · rw [emits, List.forall₂_map_right_iff]
    refine each.imp ?_
    rintro frame dgram ⟨payload, written, out⟩
    rw [out]
    exact ⟨written, rfl, w.now, heard, Nat.le_add_right _ _⟩

end Accepted

theorem moves_tick (h : w.Held) {ms : Nat} (fits : w.interface.timer + ms < word64) : w.Moves (.tick ms) := by
  have timer : (w.interface.tick ms).timer = w.interface.timer + ms := add64_eq fits
  refine ⟨rfl, ?_, h.heard, h.ready, fun ip => ?_, ⟨[], (List.append_nil _).symm, .nil⟩⟩
  · rw [h.clock] at timer
    exact timer
  · rw [show given (.tick ms) = [] from rfl, forHop_nil, List.append_nil]
    exact .refl _

end Moves

theorem moves {w : Watched} (h : w.Held) {op : Op} (healthy : w.Healthy op) : w.Moves op := by
  cases op with
  | sendDatagram dgram hop => exact moves_sendDatagram h (sendable_of_wellFormed healthy.1 healthy.2) hop
  | recvFrame frame =>
    cases accepted : w.interface.accepts frame with
    | none => exact moves_of_ignored h accepted
    | some arpm =>
      rcases (recvFrame_of_some accepted).1 with request | reply
      · exact moves_of_request h accepted request
      · exact moves_of_reply h accepted reply
  | tick ms => exact moves_tick h healthy

/-- Nothing is heard in the future. -/
theorem Held.hears_past {w : Watched} (h : w.Held) {op : Op} {ip : UInt32} {address : EthernetAddress} {received : Nat}
    (heard : w.hears op ip = some (address, received)) : received ≤ w.now := by
  cases op with
  | sendDatagram dgram hop => exact h.past ip address received heard
  | tick ms => exact h.past ip address received heard
  | recvFrame frame =>
    cases accepted : w.interface.accepts frame with
    | none =>
      rw [hears, accepted] at heard
      exact h.past ip address received heard
    | some arpm =>
      rw [hears_of_accepted accepted] at heard
      by_cases here : ip = arpm.senderIpAddress
      · rw [here, Function.update_self] at heard
        cases heard
        exact Nat.le_refl _
      · rw [Function.update_of_ne here] at heard
        exact h.past ip address received heard

theorem Held.step {w w' : Watched} {op : Op} (h : w.Held) (healthy : w.Healthy op) (run : w.step op = some w') :
    w'.Held := by
  have moves := moves h healthy
  have fits : w.now + elapsed op < word64 := by
    cases op with
    | sendDatagram dgram hop => exact h.fits
    | recvFrame frame => exact h.fits
    | tick ms => exact h.clock ▸ healthy
  cases run
  exact ⟨moves.clock, fits, moves.heard, fun ip address received heard =>
    Nat.le_add_right_of_le (h.hears_past heard), moves.ready⟩

theorem Conserved.step {w w' : Watched} {op : Op} (c : w.Conserved) (moves : w.Moves op) (run : w.step op = some w') :
    w'.Conserved := by
  cases run
  obtain ⟨new, frames, delivered⟩ := moves.frames
  refine ⟨fun hop => ?_, ?_⟩
  · have emitted : (w.emitted ++ (op.emits w.interface).map fun entry =>
        (⟨entry.1, entry.2, w.hears op entry.1, w.now⟩ : Emission)).map (fun e => (e.hop, e.dgram)) =
        w.emitted.map (fun e => (e.hop, e.dgram)) ++ op.emits w.interface := by
      rw [List.map_append, List.map_map]
      exact congrArg _ (List.map_id _)
    dsimp only
    rw [emitted, forHop_append, forHop_append, List.append_assoc]
    refine ((moves.datagrams hop).append_left _).trans ?_
    rw [← List.append_assoc]
    exact (c.datagrams hop).append_right _
  · dsimp only
    rw [moves.own, frames]
    refine List.rel_append c.frames ?_
    rw [List.forall₂_map_right_iff]
    exact delivered

structure Sound (w : Watched) : Prop where
  held : w.Held
  conserved : w.Conserved

/-- **Conservation and freshness** in every run whose calls are healthy. -/
theorem datagrams_conserved (ethernetAddress : EthernetAddress) (ipAddress : UInt32) {w : Watched}
    (run : Reaches Watched.step Healthy { interface := { ethernetAddress, ipAddress } } w) : w.Conserved := by
  have sound : w.Sound := by
    refine run.invariant ⟨⟨rfl, (by decide : 0 < word64), rfl, ?_, ?_⟩, fun _ => .nil, .nil⟩
      fun _ _ _ sound healthy step => ⟨sound.held.step healthy step, sound.conserved.step (moves sound.held healthy) step⟩
    · simp
    · simp
  exact sound.conserved

/-- A datagram waits for the neighbour's answer, the next goes out at once 30 seconds later, and the third waits again. -/
theorem datagrams_conserved_expiry :
    ∃ w, follow Watched.step Healthy { interface := { ethernetAddress := ownEth, ipAddress := ownIp } }
        [.sendDatagram { header := { len := 20, id := 1 } } neighbourIp,
          .recvFrame (arpTo ownEth (arpFromNeighbour ARPMessage.opcodeReply)),
          .tick 30000,
          .sendDatagram { header := { len := 20, id := 2 } } neighbourIp,
          .tick 1,
          .sendDatagram { header := { len := 20, id := 3 } } neighbourIp] = some w ∧
      w.emitted.map (fun e => (e.dgram.header.id, e.heard, e.now)) =
        [(1, some (neighbourEth, 0), 0), (2, some (neighbourEth, 0), 30000)] ∧ w.Conserved := by
  obtain ⟨w, run, seen⟩ := Option.map_eq_some_iff.1 (show (follow Watched.step Healthy
      { interface := { ethernetAddress := ownEth, ipAddress := ownIp } }
      [.sendDatagram { header := { len := 20, id := 1 } } neighbourIp,
        .recvFrame (arpTo ownEth (arpFromNeighbour ARPMessage.opcodeReply)),
        .tick 30000,
        .sendDatagram { header := { len := 20, id := 2 } } neighbourIp,
        .tick 1,
        .sendDatagram { header := { len := 20, id := 3 } } neighbourIp]).map
      (fun w => w.emitted.map fun e => (e.dgram.header.id, e.heard, e.now)) =
      some [(1, some (neighbourEth, 0), 0), (2, some (neighbourEth, 0), 30000)] by decide +kernel)
  exact ⟨w, run, seen, datagrams_conserved _ _ (Reaches.start.follow run)⟩

/-- A header of four words passes for well-formed, but cannot be serialized: the datagram is lost. And when the clock
has gone round once, a mapping that was learned at the start passes for fresh. -/
theorem short_header_lost :
    (¬ ∀ (ethernetAddress : EthernetAddress) (ipAddress : UInt32) (w : Watched),
      Reaches Watched.step WellUsed { interface := { ethernetAddress, ipAddress } } w → w.Conserved) ∧
    ¬ ∀ (ethernetAddress : EthernetAddress) (ipAddress : UInt32) (w : Watched),
      Reaches Watched.step WellUsed { interface := { ethernetAddress, ipAddress } } w →
        List.Forall₂ (Delivers w.interface.ethernetAddress) w.interface.ipv4Frames w.emitted := by
  refine ⟨fun claim => ?_, fun claim => ?_⟩
  · obtain ⟨w, run, seen⟩ := Option.map_eq_some_iff.1 (show (follow Watched.step WellUsed
        { interface := { ethernetAddress := ownEth, ipAddress := ownIp } }
        [.recvFrame (arpTo ownEth (arpFromNeighbour ARPMessage.opcodeReply)),
          .sendDatagram { header := { hlen := 4, len := 16 } } neighbourIp]).map
        (fun w => (w.emitted.length, (w.interface.sentDgram neighbourIp).length,
          (forHop neighbourIp w.submitted).length)) = some (0, 0, 1) by decide +kernel)
    simp only [Prod.mk.injEq, List.length_eq_zero_iff] at seen
    obtain ⟨emitted, queued, submitted⟩ := seen
    have same := ((claim _ _ w (Reaches.start.follow run)).datagrams neighbourIp).length_eq
    rw [emitted, queued, submitted] at same
    cases same
  · obtain ⟨w, run, seen⟩ := Option.map_eq_some_iff.1 (show (follow Watched.step WellUsed
        { interface := { ethernetAddress := ownEth, ipAddress := ownIp } }
        [.recvFrame (arpTo ownEth (arpFromNeighbour ARPMessage.opcodeReply)), .tick (2 ^ 64 - 1), .tick 1,
          .sendDatagram { header := { len := 20 } } neighbourIp]).map
        (fun w => w.emitted.map fun e => (e.heard, e.now)) = some [(some (neighbourEth, 0), 2 ^ 64)] by decide +kernel)
    obtain ⟨e, emitted, heard⟩ := List.map_eq_singleton_iff.1 seen
    rw [Prod.mk.injEq] at heard
    have delivered := claim _ _ w (Reaches.start.follow run)
    rw [emitted] at delivered
    obtain ⟨frame, rest, ⟨-, -, received, last, fresh⟩, -, -⟩ := List.forall₂_cons_right_iff.1 delivered
    rw [heard.1] at last
    have start : 0 = received := (Prod.mk.inj (Option.some.inj last)).2
    rw [heard.2] at fresh
    omega

end Watched

end NetworkInterface

end Sponge
