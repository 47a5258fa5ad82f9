import Sponge.Logic.Reach
import Sponge.Net.InterfaceSteps

/-!
# The order of pending datagrams

A datagram waits while the address of its next hop is not known. If nothing ever
waits behind a usable mapping, `send_datagram` puts a frame out at once only when
nothing is queued for the same hop, and the frames of each hop carry its
datagrams in the order of submission (`pending_in_order`).

The invariant rests on the flush in `recv_frame`, and that is made on replies
only. A request is learned from as well: when one comes from a hop for which
datagrams wait, they are left behind a usable mapping (`request_overtakes`).
-/

namespace Sponge

namespace NetworkInterface

/-- The calls of an interface. -/
inductive Op where
  | sendDatagram (dgram : InternetDatagram) (nextHop : UInt32)
  | recvFrame (frame : EthernetFrame)
  | tick (ms : Nat)

/-- The interface after a call, whether it throws or not. -/
def Op.apply (n : NetworkInterface) : Op → NetworkInterface
  | .sendDatagram dgram nextHop => (n.sendDatagram dgram nextHop).interface
  | .recvFrame frame => (n.recvFrame frame).interface
  | .tick ms => n.tick ms

/-- The datagram that the call submits, with its next hop. A call that throws submits nothing. -/
def Op.submits (n : NetworkInterface) : Op → List (UInt32 × InternetDatagram)
  | .sendDatagram dgram nextHop => if (n.sendDatagram dgram nextHop).result.isSome then [(nextHop, dgram)] else []
  | .recvFrame _ => []
  | .tick _ => []

/-- The datagrams that the call puts out in frames, with their next hops. -/
def Op.emits (n : NetworkInterface) : Op → List (UInt32 × InternetDatagram)
  | .sendDatagram dgram nextHop => if (n.usable nextHop).isSome && sendable dgram then [(nextHop, dgram)] else []
  | .recvFrame frame =>
    match n.accepts frame with
    | some arpm =>
      if arpm.opcode = ARPMessage.opcodeReply then
        ((n.sentDgram arpm.senderIpAddress).takeWhile sendable).map fun dgram => (arpm.senderIpAddress, dgram)
      else []
    | none => []
  | .tick _ => []

section Emits

variable {n : NetworkInterface}

theorem emits_of_unknown (dgram : InternetDatagram) {hop : UInt32} (unknown : n.usable hop = none) :
    Op.emits n (.sendDatagram dgram hop) = [] := by
  rw [Op.emits, unknown]
  rfl

theorem emits_of_usable {dgram : InternetDatagram} {hop : UInt32} {se : EtbNode} (known : n.usable hop = some se) :
    Op.emits n (.sendDatagram dgram hop) = if sendable dgram then [(hop, dgram)] else [] := by
  rw [Op.emits, known]
  rfl

variable {frame : EthernetFrame} {arpm : ARPMessage}

theorem emits_of_ignored (ignored : n.accepts frame = none) : Op.emits n (.recvFrame frame) = [] := by
  rw [Op.emits, ignored]

theorem emits_of_request (accepted : n.accepts frame = some arpm) (request : arpm.opcode = ARPMessage.opcodeRequest) :
    Op.emits n (.recvFrame frame) = [] := by
  rw [Op.emits, accepted]
  exact if_neg (by rw [request]; decide)

theorem emits_of_reply (accepted : n.accepts frame = some arpm) (reply : arpm.opcode = ARPMessage.opcodeReply) :
    Op.emits n (.recvFrame frame) =
      ((n.sentDgram arpm.senderIpAddress).takeWhile sendable).map fun dgram => (arpm.senderIpAddress, dgram) := by
  rw [Op.emits, accepted]
  exact if_pos reply

end Emits

/-- An interface and what was submitted to it and put out by it, in order. -/
structure Traced where
  interface : NetworkInterface
  submitted : List (UInt32 × InternetDatagram) := []
  emitted : List (UInt32 × InternetDatagram) := []

def Traced.step (t : Traced) (op : Op) : Option Traced := some {
  interface := op.apply t.interface
  submitted := t.submitted ++ op.submits t.interface
  emitted := t.emitted ++ op.emits t.interface }

/-- The datagrams of one next hop. -/
def forHop (ip : UInt32) (l : List (UInt32 × InternetDatagram)) : List InternetDatagram :=
  (l.filter fun entry => entry.1 == ip).map (·.2)

/-- Nothing waits behind a usable mapping; the IPv4 frames carry what was put out; and of each hop that, with what
still waits, is what was submitted, in order. -/
structure InOrder (t : Traced) : Prop where
  waiting : ∀ ip se, t.interface.sentDgram ip ≠ [] → t.interface.arpTable ip = some se → se.exist = true →
    se.updatedTime + 30000 < t.interface.timer
  frames : t.interface.ipv4Payloads.map some = t.emitted.map fun entry => entry.2.serialize
  order : ∀ ip, forHop ip t.emitted ++ t.interface.sentDgram ip = forHop ip t.submitted

/-- What is asked of a call: no request is accepted from a hop for which datagrams wait, and the clock does not pass
`2 ^ 64` milliseconds. -/
def Harmless (t : Traced) : Op → Prop
  | .sendDatagram _ _ => True
  | .recvFrame frame => ∀ arpm ∈ t.interface.accepts frame,
      arpm.opcode = ARPMessage.opcodeRequest → t.interface.sentDgram arpm.senderIpAddress = []
  | .tick ms => t.interface.timer + ms < word64

instance (t : Traced) : DecidablePred (Harmless t)
  | .sendDatagram _ _ => .isTrue trivial
  | .recvFrame frame => inferInstanceAs (Decidable (∀ arpm ∈ t.interface.accepts frame,
      arpm.opcode = ARPMessage.opcodeRequest → t.interface.sentDgram arpm.senderIpAddress = []))
  | .tick ms => inferInstanceAs (Decidable (t.interface.timer + ms < word64))

section Hops

variable (ip : UInt32)

@[simp] theorem forHop_append (l l' : List (UInt32 × InternetDatagram)) :
    forHop ip (l ++ l') = forHop ip l ++ forHop ip l' := by
  simp [forHop]

@[simp] theorem forHop_nil : forHop ip [] = [] := rfl

theorem forHop_tagged (hop : UInt32) (l : List InternetDatagram) :
    forHop ip (l.map fun dgram => (hop, dgram)) = if hop = ip then l else [] := by
  rw [forHop, List.filter_map, List.map_map]
  by_cases same : hop = ip
  · simp [same, Function.comp_def]
  · simp [same, Function.comp_def]

/-- What a queue gains. -/
theorem update_append (queue : UInt32 → List InternetDatagram) (hop : UInt32) (l : List InternetDatagram) :
    Function.update queue hop (queue hop ++ l) ip = queue ip ++ if hop = ip then l else [] := by
  by_cases here : hop = ip
  · rw [← here, Function.update_self, if_pos rfl]
  · rw [Function.update_of_ne (Ne.symm here), if_neg here, List.append_nil]

end Hops

/-- The invariant. Mappings are not from the future. -/
structure Waiting (n : NetworkInterface) : Prop where
  clock : n.timer < word64
  past : ∀ ip address time, n.mapping ip = some (address, time) → time ≤ n.timer
  waiting : ∀ ip address time, n.sentDgram ip ≠ [] → n.mapping ip = some (address, time) → time + 30000 < n.timer

section Waiting

variable {n n' m : NetworkInterface}

theorem usable_none (h : n.Waiting) {ip : UInt32} (unusable : n.usable ip = none) {address : EthernetAddress} {time : Nat}
    (known : n.mapping ip = some (address, time)) : time + 30000 < n.timer := by
  have past := h.past ip address time known
  have clock := h.clock
  obtain ⟨se, found, learned⟩ := Option.bind_eq_some_iff.1 known
  unfold EtbNode.learned at learned
  split at learned
  · rename_i exist
    cases learned
    rw [usable, found] at unusable
    simp only [Option.filter_some, exist, Bool.true_and, decide_eq_true_eq, ite_eq_right_iff, reduceCtorEq,
      imp_false] at unusable
    rw [sub64_eq past clock] at unusable
    omega
  · cases learned

theorem usable_some (h : n.Waiting) {ip : UInt32} {se : EtbNode} (usable : n.usable ip = some se) :
    n.sentDgram ip = [] := by
  have clock := h.clock
  obtain ⟨found, fresh⟩ := Option.filter_eq_some_iff.1 usable
  rw [Bool.and_eq_true, decide_eq_true_eq] at fresh
  have known : n.mapping ip = some (se.eAddr, se.updatedTime) := by
    rw [mapping, found, Option.bind_some, EtbNode.learned, if_pos fresh.1]
  have past := h.past ip _ _ known
  rw [sub64_eq past clock] at fresh
  by_contra waits
  have old := h.waiting ip _ _ waits known
  omega

theorem Waiting.asks (h : n.Waiting) (asks : Asks n m) : m.Waiting := by
  refine ⟨?_, ?_, ?_⟩
  · rw [asks.timer]
    exact h.clock
  · rw [asks.timer, asks.mapping]
    exact h.past
  · rw [asks.timer, asks.mapping, asks.queue]
    exact h.waiting

/-- A datagram is queued for an address without a usable mapping. -/
theorem Waiting.enqueue (h : n.Waiting) {ip : UInt32} (l : List InternetDatagram)
    (old : ∀ address time, n.mapping ip = some (address, time) → time + 30000 < n.timer) :
    Waiting { n with sentDgram := Function.update n.sentDgram ip l } := by
  refine ⟨h.clock, h.past, fun hop address time waits known => ?_⟩
  by_cases here : hop = ip
  · rw [here] at known
    exact old address time known
  · dsimp only at waits
    rw [Function.update_of_ne here] at waits
    exact h.waiting hop address time waits known

/-- A frame is put out. -/
theorem Waiting.emit (h : n.Waiting) (frames : List EthernetFrame) : Waiting { n with framesOut := frames } :=
  ⟨h.clock, h.past, h.waiting⟩

theorem Waiting.flush (h : n.Waiting) {ip : UInt32} {sent left : List InternetDatagram} (flushes : Flushes ip sent left n m)
    (queued : n.sentDgram ip = sent ++ left) : m.Waiting := by
  have mapping : m.mapping = n.mapping := by
    funext ip
    rw [NetworkInterface.mapping, flushes.arpTable]
    rfl
  refine ⟨?_, ?_, ?_⟩
  · rw [flushes.timer]
    exact h.clock
  · rw [flushes.timer, mapping]
    exact h.past
  · rw [flushes.timer, mapping, flushes.queue]
    intro hop address time waits known
    refine h.waiting hop address time (fun empty => waits ?_) known
    by_cases here : hop = ip
    · rw [here, queued] at empty
      rw [here, Function.update_self]
      exact (List.append_eq_nil_iff.1 empty).2
    · rw [Function.update_of_ne here]
      exact empty

/-- A mapping is learned for an address for which nothing waits. -/
theorem Waiting.learn (h : n.Waiting) {arpm : ARPMessage} (nothing : n.sentDgram arpm.senderIpAddress = []) :
    (n.learn arpm).Waiting := by
  refine ⟨h.clock, ?_, ?_⟩
  · rw [learn_mapping]
    intro ip address time known
    by_cases here : ip = arpm.senderIpAddress
    · rw [here, Function.update_self] at known
      cases known
      exact Nat.le_refl _
    · rw [Function.update_of_ne here] at known
      exact h.past ip address time known
  · rw [learn_mapping]
    intro ip address time waits known
    by_cases here : ip = arpm.senderIpAddress
    · rw [here] at waits
      exact absurd nothing waits
    · rw [Function.update_of_ne here] at known
      exact h.waiting ip address time waits known

theorem Waiting.tick (h : n.Waiting) {ms : Nat} (fits : n.timer + ms < word64) : (n.tick ms).Waiting := by
  have timer : (n.tick ms).timer = n.timer + ms := add64_eq fits
  refine ⟨?_, fun ip address time known => ?_, fun ip address time waits known => ?_⟩
  · rw [timer]
    exact fits
  · rw [timer]
    exact Nat.le_add_right_of_le (h.past ip address time known)
  · rw [timer]
    exact Nat.lt_add_right ms (h.waiting ip address time waits known)

end Waiting

/-- What a call does to the queue and the frames, and to the histories. -/
structure Keeps (n : NetworkInterface) (op : Op) : Prop where
  waiting : (op.apply n).Waiting
  frames : (op.apply n).ipv4Payloads.map some = n.ipv4Payloads.map some ++ (op.emits n).map fun entry => entry.2.serialize
  order : ∀ ip, forHop ip (op.emits n) ++ (op.apply n).sentDgram ip = n.sentDgram ip ++ forHop ip (op.submits n)

section Keeps

variable {n : NetworkInterface}

/-- A call that leaves the queue and the IPv4 frames, and hands over and takes no datagram. -/
theorem Keeps.quiet {op : Op} (waiting : (op.apply n).Waiting) (payloads : (op.apply n).ipv4Payloads = n.ipv4Payloads)
    (queue : (op.apply n).sentDgram = n.sentDgram) (emits : op.emits n = []) (submits : op.submits n = []) :
    Keeps n op where
  waiting := waiting
  frames := by rw [payloads, emits, List.map_nil, List.append_nil]
  order := by
    intro ip
    rw [queue, emits, submits, forHop_nil, List.append_nil, List.nil_append]

/-- **A datagram is submitted**: it is put out at once only if nothing waits for its hop. -/
theorem keeps_sendDatagram (h : n.Waiting) (dgram : InternetDatagram) (hop : UInt32) :
    Keeps n (.sendDatagram dgram hop) := by
  have tagged : ∀ ip, forHop ip [(hop, dgram)] = if hop = ip then [dgram] else [] := fun ip => forHop_tagged ip hop [dgram]
  cases known : n.usable hop with
  | none =>
    obtain ⟨m, asks, run⟩ := sendDatagram_of_none dgram known
    have emits := emits_of_unknown dgram known
    have submits : Op.submits n (.sendDatagram dgram hop) = [(hop, dgram)] := by rw [Op.submits, run]; rfl
    refine ⟨?_, ?_, fun ip => ?_⟩
    · rw [Op.apply, run]
      refine (h.asks asks).enqueue _ fun address time learned => ?_
      rw [asks.mapping] at learned
      rw [asks.timer]
      exact usable_none h known learned
    · rw [Op.apply, run, emits, List.map_nil, List.append_nil]
      exact congrArg (List.map some) asks.payloads
    · rw [Op.apply, run, emits, submits, tagged, forHop_nil, List.nil_append, asks.queue]
      exact update_append ip n.sentDgram hop [dgram]
  | some se =>
    have empty := usable_some h known
    have run := sendDatagram_of_some dgram known
    rcases n.sendDgram_spec dgram se.eAddr with ⟨thrown, stuck⟩ | ⟨payload, written, sent⟩
    · rw [thrown] at run
      have emits : Op.emits n (.sendDatagram dgram hop) = [] := by
        rw [emits_of_usable known, sendable, stuck]
        rfl
      have submits : Op.submits n (.sendDatagram dgram hop) = [] := by rw [Op.submits, run]; rfl
      have same : Op.apply n (.sendDatagram dgram hop) = n := by rw [Op.apply, run]
      exact .quiet (by rw [same]; exact h) (by rw [same]) (by rw [same]) emits submits
    · rw [sent] at run
      have emits : Op.emits n (.sendDatagram dgram hop) = [(hop, dgram)] := by
        rw [emits_of_usable known, sendable, written]
        rfl
      have submits : Op.submits n (.sendDatagram dgram hop) = [(hop, dgram)] := by rw [Op.submits, run]; rfl
      refine ⟨?_, ?_, fun ip => ?_⟩
      · rw [Op.apply, run]
        exact h.emit _
      · rw [Op.apply, run, emits, ipv4Payloads_append (n := n) rfl]
        simp [written]
      · rw [Op.apply, run, emits, submits, tagged]
        by_cases here : hop = ip
        · rw [← here, empty]
          simp
        · simp [here]

/-- A reply: what waits for the sender is put out up to the first datagram that throws; if none does, the mapping is
learned. -/
theorem keeps_reply (h : n.Waiting) {frame : EthernetFrame} {arpm : ARPMessage} (accepted : n.accepts frame = some arpm)
    (reply : arpm.opcode = ARPMessage.opcodeReply) : Keeps n (.recvFrame frame) := by
  obtain ⟨-, meant, run⟩ := recvFrame_of_some accepted
  obtain ⟨m, flushes, left⟩ := recvArp_reply meant reply rfl
  have queued := (List.takeWhile_append_dropWhile (p := sendable) (l := n.sentDgram arpm.senderIpAddress)).symm
  have waiting := h.flush flushes queued
  have emits := emits_of_reply accepted reply
  have submits : Op.submits n (.recvFrame frame) = [] := rfl
  refine ⟨?_, ?_, fun ip => ?_⟩
  · rw [Op.apply, run, left]
    split
    · rename_i all
      refine waiting.learn ?_
      rw [flushes.queue, Function.update_self]
      exact all
    · exact waiting
  · have same : (Op.apply n (.recvFrame frame)).ipv4Payloads = m.ipv4Payloads := by
      rw [Op.apply, run, left]
      split <;> rfl
    rw [same, flushes.payloads, emits, List.map_map]
    rfl
  · have same : (Op.apply n (.recvFrame frame)).sentDgram = m.sentDgram := by
      rw [Op.apply, run, left]
      split <;> rfl
    rw [same, flushes.queue, emits, forHop_tagged, submits, forHop_nil, List.append_nil]
    by_cases here : arpm.senderIpAddress = ip
    · rw [← here, if_pos rfl, Function.update_self]
      exact queued.symm
    · rw [if_neg here, Function.update_of_ne (Ne.symm here), List.nil_append]

/-- **A frame arrives**: a reply flushes before it is learned from, a request finds nothing to flush. -/
theorem keeps_recvFrame (h : n.Waiting) {frame : EthernetFrame}
    (harmless : ∀ arpm, n.accepts frame = some arpm → arpm.opcode = ARPMessage.opcodeRequest →
      n.sentDgram arpm.senderIpAddress = []) : Keeps n (.recvFrame frame) := by
  have submits : Op.submits n (.recvFrame frame) = [] := rfl
  cases accepted : n.accepts frame with
  | none =>
    have emits := emits_of_ignored accepted
    have same : Op.apply n (.recvFrame frame) = n := recvFrame_of_none accepted
    exact .quiet (by rw [same]; exact h) (by rw [same]) (by rw [same]) emits submits
  | some arpm =>
    obtain ⟨opcode, meant, run⟩ := recvFrame_of_some accepted
    rcases opcode with request | reply
    · have nothing := harmless arpm accepted request
      obtain ⟨m, asks, left⟩ := recvArp_request meant request
      have emits := emits_of_request accepted request
      have learned : Op.apply n (.recvFrame frame) = m.learn arpm := by rw [Op.apply, run, left]
      rw [← asks.queue] at nothing
      exact .quiet (by rw [learned]; exact (h.asks asks).learn nothing) (by rw [learned]; exact asks.payloads)
        (by rw [learned]; exact asks.queue) emits submits
    · exact keeps_reply h accepted reply

theorem keeps_tick (h : n.Waiting) {ms : Nat} (fits : n.timer + ms < word64) : Keeps n (.tick ms) :=
  ⟨h.tick fits, by simp [Op.emits, Op.apply, tick, ipv4Payloads], fun ip => by simp [Op.emits, Op.submits, Op.apply, tick]⟩

end Keeps

/-- The invariant of the histories. -/
structure Sound (t : Traced) : Prop where
  waiting : t.interface.Waiting
  frames : t.interface.ipv4Payloads.map some = t.emitted.map fun entry => entry.2.serialize
  order : ∀ ip, forHop ip t.emitted ++ t.interface.sentDgram ip = forHop ip t.submitted

theorem Sound.step {t t' : Traced} {op : Op} (h : Sound t) (harmless : Harmless t op) (run : t.step op = some t') :
    Sound t' := by
  cases run
  have keeps : Keeps t.interface op := by
    cases op with
    | sendDatagram dgram hop => exact keeps_sendDatagram h.waiting dgram hop
    | recvFrame frame => exact keeps_recvFrame h.waiting harmless
    | tick ms => exact keeps_tick h.waiting harmless
  refine ⟨keeps.waiting, ?_, fun ip => ?_⟩
  · dsimp only
    rw [keeps.frames, h.frames, List.map_append]
  · dsimp only
    rw [forHop_append, forHop_append, List.append_assoc, keeps.order, ← List.append_assoc, h.order]

/-- **Order is kept** in every run whose calls are harmless: nothing waits behind a usable mapping, and the frames of
each next hop carry its datagrams in the order they were submitted. -/
theorem pending_in_order (ethernetAddress : EthernetAddress) (ipAddress : UInt32) {t : Traced}
    (run : Reaches Traced.step Harmless { interface := { ethernetAddress, ipAddress } } t) : InOrder t := by
  have sound : Sound t := by
    refine run.invariant ⟨⟨(by decide : 0 < word64), ?_, ?_⟩, rfl, fun _ => rfl⟩ fun _ _ _ sound harmless step =>
      sound.step harmless step
    · simp [mapping]
    · simp
  refine ⟨fun ip se waits found exist => sound.waiting.waiting ip se.eAddr se.updatedTime waits ?_, sound.frames,
    sound.order⟩
  rw [mapping, found, Option.bind_some, EtbNode.learned, if_pos exist]

/-- An ARP message of `arpm` in a frame to `dst`. -/
def arpTo (dst : EthernetAddress) (arpm : ARPMessage) : EthernetFrame where
  header := { dst, src := arpm.senderEthernetAddress, type := EthernetHeader.typeARP }
  payload := .ofString (arpm.serialize.getD [])

/-- The interface of the runs below, with address 10.0.0.1, and its neighbour 10.0.0.2. -/
def ownEth : EthernetAddress := ⟨[2, 0, 0, 0, 0, 1], rfl⟩

def neighbourEth : EthernetAddress := ⟨[2, 0, 0, 0, 0, 2], rfl⟩

def ownIp : UInt32 := 0x0a000001

def neighbourIp : UInt32 := 0x0a000002

def arpFromNeighbour (opcode : UInt16) : ARPMessage where
  opcode := opcode
  senderEthernetAddress := neighbourEth
  senderIpAddress := neighbourIp
  targetIpAddress := ownIp

/-- Two datagrams wait for the neighbour, its reply flushes them, and a third is put out at once. -/
theorem pending_in_order_reply :
    ∃ t, follow Traced.step Harmless { interface := { ethernetAddress := ownEth, ipAddress := ownIp } }
        [.sendDatagram { header := { len := 20, id := 1 } } neighbourIp,
          .sendDatagram { header := { len := 20, id := 2 } } neighbourIp,
          .recvFrame (arpTo ownEth (arpFromNeighbour ARPMessage.opcodeReply)),
          .sendDatagram { header := { len := 20, id := 3 } } neighbourIp] = some t ∧
      (forHop neighbourIp t.emitted).map (·.header.id) = [1, 2, 3] ∧ InOrder t := by
  obtain ⟨t, run, seen⟩ := Option.map_eq_some_iff.1 (show (follow Traced.step Harmless
      { interface := { ethernetAddress := ownEth, ipAddress := ownIp } }
      [.sendDatagram { header := { len := 20, id := 1 } } neighbourIp,
        .sendDatagram { header := { len := 20, id := 2 } } neighbourIp,
        .recvFrame (arpTo ownEth (arpFromNeighbour ARPMessage.opcodeReply)),
        .sendDatagram { header := { len := 20, id := 3 } } neighbourIp]).map
      (fun t => (forHop neighbourIp t.emitted).map (·.header.id)) = some [1, 2, 3] by decide +kernel)
  exact ⟨t, run, seen, pending_in_order _ _ (Reaches.start.follow run)⟩

/-- The condition on requests cannot be weakened: after one that finds datagrams waiting, they wait behind a mapping
learned just now. -/
theorem not_inOrder_of_request {t t' : Traced} {frame : EthernetFrame} {arpm : ARPMessage}
    (accepted : t.interface.accepts frame = some arpm) (request : arpm.opcode = ARPMessage.opcodeRequest)
    (waits : t.interface.sentDgram arpm.senderIpAddress ≠ []) (run : t.step (.recvFrame frame) = some t') :
    ¬ InOrder t' := by
  intro inOrder
  obtain ⟨-, meant, received⟩ := recvFrame_of_some accepted
  obtain ⟨m, asks, left⟩ := recvArp_request meant request
  rw [← received] at left
  cases run
  have old := inOrder.waiting arpm.senderIpAddress
  simp only [Op.apply, left] at old
  have now := old _ (by rw [← asks.queue] at waits; exact waits) (Function.update_self _ _ _) rfl
  dsimp only [learn] at now
  omega

/-- A datagram waits for the neighbour when a request of the neighbour arrives: the mapping is learned, the datagram
stays, and the next one overtakes it. -/
theorem request_overtakes :
    (¬ ∀ (ethernetAddress : EthernetAddress) (ipAddress : UInt32) (t : Traced),
      Reaches Traced.step (fun _ _ => True) { interface := { ethernetAddress, ipAddress } } t → InOrder t) ∧
    ¬ ∀ (ethernetAddress : EthernetAddress) (ipAddress : UInt32) (t : Traced),
      Reaches Traced.step (fun _ _ => True) { interface := { ethernetAddress, ipAddress } } t →
        ∀ hop, forHop hop t.emitted <+: forHop hop t.submitted := by
  obtain ⟨t, run, seen⟩ := Option.map_eq_some_iff.1 (show (follow Traced.step (fun _ _ => True)
      { interface := { ethernetAddress := ownEth, ipAddress := ownIp } }
      [.sendDatagram { header := { len := 20, id := 1 } } neighbourIp,
        .recvFrame (arpTo ethernetBroadcast (arpFromNeighbour ARPMessage.opcodeRequest)),
        .sendDatagram { header := { len := 20, id := 2 } } neighbourIp]).map
      (fun t => (decide (t.interface.sentDgram neighbourIp ≠ []),
        (t.interface.arpTable neighbourIp).map (fun se => (se.exist, se.updatedTime)), t.interface.timer,
        decide (forHop neighbourIp t.emitted <+: forHop neighbourIp t.submitted))) =
      some (true, some (true, 0), 0, false) by decide +kernel)
  simp only [Prod.mk.injEq, decide_eq_true_eq, decide_eq_false_iff_not, Option.map_eq_some_iff] at seen
  obtain ⟨waits, ⟨se, found, exist, learned⟩, timer, overtaken⟩ := seen
  refine ⟨fun claim => ?_, fun claim => ?_⟩
  · have old := (claim _ _ t (Reaches.start.follow run)).waiting neighbourIp se waits found exist
    rw [timer] at old
    omega
  · exact overtaken (claim _ _ t (Reaches.start.follow run) neighbourIp)

end NetworkInterface

end Sponge
