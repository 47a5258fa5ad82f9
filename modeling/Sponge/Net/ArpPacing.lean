import Mathlib.Data.List.Nodup
import Sponge.Net.Conservation

/-!
# Pacing of ARP requests

`send_arp` keeps one time for each address, that of the last message it put out,
request or reply. A message goes out only if the 64-bit difference to that time
is more than five seconds, so requests for one address are always more than five
seconds apart, also when the clock goes round.

Conversely, a datagram is queued when there is no usable mapping. As long as the
clock does not go round, the time kept for an address is that of a request, or
the mapping was learned at or after it; the mapping of a queued datagram is not
usable, so when no request goes out with it, the last one is at most five seconds
old (`requests_paced`). When the clock does go round, a time long past looks like
now, and a datagram waits without a request (`queued_without_request`).
-/

namespace Sponge

theorem sub64_mod_mod {a b : Nat} (order : b ≤ a) : sub64 (a % word64) (b % word64) = (a - b) % word64 := by
  simp only [sub64, word64]
  omega

/-- The address that an ARP request in a frame asks for. -/
def EthernetFrame.arpRequest (frame : EthernetFrame) : Option UInt32 :=
  if frame.header.type = EthernetHeader.typeARP then
    frame.arpMessage.bind fun arpm =>
      if arpm.opcode = ARPMessage.opcodeRequest then some arpm.targetIpAddress else none
  else none

theorem EthernetFrame.arpRequest_of_message {frame : EthernetFrame} {arpm : ARPMessage}
    (type : frame.header.type = EthernetHeader.typeARP) (message : frame.arpMessage = some arpm) :
    frame.arpRequest = if arpm.opcode = ARPMessage.opcodeRequest then some arpm.targetIpAddress else none := by
  rw [arpRequest, if_pos type, message]
  rfl

/-- The addresses asked for in the frames. -/
def arpRequests (frames : List EthernetFrame) : List UInt32 := frames.filterMap EthernetFrame.arpRequest

namespace NetworkInterface

/-- The addresses that a call asks for, in the frames that it adds to the queue. -/
def Op.asks (n : NetworkInterface) (op : Op) : List UInt32 :=
  arpRequests ((op.apply n).framesOut.drop n.framesOut.length)

/-- What a call can do with the table entry of an address, and how many requests for it go out. -/
inductive Touches (timer : Nat) (limited : Bool) (before : Option EtbNode) : Option EtbNode → Nat → Prop
  | kept : Touches timer limited before before 0
  | asks (free : limited = false) :
      Touches timer limited before (some { before.getD {} with askTime := timer }) 1
  | learns {eAddr : EthernetAddress} :
      Touches timer limited before (some { before.getD {} with eAddr, updatedTime := timer, exist := true }) 0
  | answers {eAddr : EthernetAddress} {asked : Nat} (free : limited = false) (once : asked ≤ 1) :
      Touches timer limited before
        (some { before.getD {} with eAddr, updatedTime := timer, askTime := timer, exist := true }) asked

section Calls

variable {n m : NetworkInterface}

theorem asks_eq {op : Op} {sent : List EthernetFrame} (out : (op.apply n).framesOut = n.framesOut ++ sent) :
    op.asks n = arpRequests sent := by
  rw [Op.asks, out, List.drop_left]

/-- Frames of another type ask for nothing. -/
theorem arpRequests_of_ipv4 {frames : List EthernetFrame}
    (type : ∀ frame ∈ frames, frame.header.type = EthernetHeader.typeIPv4) : arpRequests frames = [] := by
  refine List.filterMap_eq_nil_iff.2 fun frame member => ?_
  rw [EthernetFrame.arpRequest, if_neg]
  rw [type frame member]
  decide

variable (n)

/-- The time of the last message is all that `send_arp` changes in the table. -/
theorem sendArp_table (ip : UInt32) (eth : Option EthernetAddress) :
    (n.sendArp ip eth).interface.arpTable = Function.update n.arpTable ip
      (some { (n.arpTable ip).getD {} with
        askTime := if n.limited ip then ((n.arpTable ip).getD {}).askTime else n.timer }) := by
  unfold sendArp
  dsimp only
  rw [limited_eq]
  by_cases silent : n.limited ip = true
  · rw [if_pos silent, if_pos silent]
  · rw [if_neg silent, if_neg silent]
    obtain ⟨payload, written⟩ := arpFrame_serialize { n with
      arpTable := Function.update n.arpTable ip (some ((n.arpTable ip).getD {})) } ip eth
    rw [written]
    exact Function.update_idem _ _ _

/-- The request of `send_arp`: what it sends to an address of its own is a reply. -/
theorem sendArp_requests (ip : UInt32) (eth : Option EthernetAddress) :
    ∃ sent, (n.sendArp ip eth).interface.framesOut = n.framesOut ++ sent ∧
      arpRequests sent =
        if n.limited ip = false ∧ eth.getD ethernetBroadcast = ethernetBroadcast then [ip] else [] := by
  obtain ⟨sent, out, frames⟩ := n.sendArp_frames ip eth
  refine ⟨sent, out, ?_⟩
  by_cases silent : n.limited ip = true
  · rw [if_pos silent] at frames
    rw [frames, if_neg (by rw [silent]; simp)]
    rfl
  · rw [if_neg silent] at frames
    obtain ⟨payload, rfl, read⟩ := frames
    have asks := EthernetFrame.arpRequest_of_message rfl (n.arpMessage_arpOut (n.arpFrame ip eth).1 read)
    rw [arpRequests, List.filterMap_cons, asks, Bool.eq_false_of_not_eq_true silent]
    by_cases broadcast : eth.getD ethernetBroadcast = ethernetBroadcast
    · have request : (n.arpFrame ip eth).2.opcode = ARPMessage.opcodeRequest := if_pos broadcast
      rw [if_pos request, if_pos ⟨rfl, broadcast⟩]
      rfl
    · have reply : (n.arpFrame ip eth).2.opcode = ARPMessage.opcodeReply := if_neg broadcast
      rw [reply, if_neg (by decide), if_neg fun both => broadcast both.2]
      rfl

/-- The loop of `recv_frame` puts out IPv4 frames, also when it throws. -/
theorem resend_frames (ip : UInt32) (address : EthernetAddress) (l : List InternetDatagram) :
    ∃ sent, (n.resend ip address l).interface.framesOut = n.framesOut ++ sent ∧
      ∀ frame ∈ sent, frame.header.type = EthernetHeader.typeIPv4 := by
  induction l generalizing n with
  | nil => exact ⟨[], (List.append_nil _).symm, by simp⟩
  | cons dgram rest ih =>
    rcases n.sendDgram_spec dgram address with ⟨run, -⟩ | ⟨payload, -, run⟩
    · refine ⟨[], ?_, by simp⟩
      rw [resend, run, Call.andThen_none, List.append_nil]
    · obtain ⟨sent, out, type⟩ := ih { n with
        framesOut := n.framesOut ++ [n.ipv4Out address payload]
        sentDgram := Function.update n.sentDgram ip rest }
      refine ⟨n.ipv4Out address payload :: sent, ?_, ?_⟩
      · rw [resend, run, Call.andThen_some]
        exact out.trans (List.append_assoc _ _ _)
      · intro frame member
        rcases List.mem_cons.1 member with rfl | later
        · rfl
        · exact type frame later

theorem some_getD_of_limited {ip : UInt32} (silent : n.limited ip = true) :
    some ((n.arpTable ip).getD {}) = n.arpTable ip := by
  rw [limited] at silent
  cases entry : n.arpTable ip with
  | none => rw [entry] at silent; cases silent
  | some se => rfl

/-- A call that leaves the table and puts out IPv4 frames only. -/
theorem touches_of_same {op : Op} {sent : List EthernetFrame} (table : (op.apply n).arpTable = n.arpTable)
    (out : (op.apply n).framesOut = n.framesOut ++ sent)
    (type : ∀ frame ∈ sent, frame.header.type = EthernetHeader.typeIPv4) (ip : UInt32) :
    Touches n.timer (n.limited ip) (n.arpTable ip) ((op.apply n).arpTable ip) ((op.asks n).count ip) := by
  rw [asks_eq out, arpRequests_of_ipv4 type, table]
  exact .kept

/-- A call that changes the table and asks at one address only. -/
theorem touches_of_update {op : Op} {key : UInt32} {entry : Option EtbNode}
    (table : (op.apply n).arpTable = Function.update n.arpTable key entry) (asks : ∀ ip ∈ op.asks n, ip = key)
    (here : Touches n.timer (n.limited key) (n.arpTable key) entry ((op.asks n).count key)) (ip : UInt32) :
    Touches n.timer (n.limited ip) (n.arpTable ip) ((op.apply n).arpTable ip) ((op.asks n).count ip) := by
  rw [table]
  by_cases same : ip = key
  · rw [same, Function.update_self]
    exact here
  · rw [Function.update_of_ne same, List.count_eq_zero_of_not_mem fun member => same (asks ip member)]
    exact .kept

theorem touches_sendDatagram (dgram : InternetDatagram) (hop ip : UInt32) :
    Touches n.timer (n.limited ip) (n.arpTable ip) ((Op.apply n (.sendDatagram dgram hop)).arpTable ip)
      ((Op.asks n (.sendDatagram dgram hop)).count ip) := by
  cases known : n.usable hop with
  | none =>
    have run : Op.apply n (.sendDatagram dgram hop) = _ := congrArg Call.interface (sendDatagram_eq dgram known)
    obtain ⟨sent, out, asked⟩ := n.sendArp_requests hop none
    have asks := asks_eq (show (Op.apply n (.sendDatagram dgram hop)).framesOut = _ by rw [run]; exact out)
    rw [asked] at asks
    refine n.touches_of_update (by rw [run]; exact n.sendArp_table hop none) ?_ ?_ ip
    · rw [asks]
      split <;> simp
    · rw [asks]
      by_cases silent : n.limited hop = true
      · rw [silent, if_pos rfl, if_neg (by simp), n.some_getD_of_limited silent]
        exact .kept
      · rw [Bool.eq_false_of_not_eq_true silent, if_neg (by simp), if_pos ⟨rfl, rfl⟩, List.count_singleton_self]
        exact .asks rfl
  | some se =>
    have run : Op.apply n (.sendDatagram dgram hop) = _ := congrArg Call.interface (sendDatagram_of_some dgram known)
    rcases n.sendDgram_spec dgram se.eAddr with ⟨thrown, -⟩ | ⟨payload, -, goes⟩
    · rw [thrown] at run
      exact n.touches_of_same (by rw [run]) (by rw [run, List.append_nil]) (by simp) ip
    · rw [goes] at run
      refine n.touches_of_same (by rw [run]) (by rw [run]) ?_ ip
      intro frame member
      rw [List.mem_singleton.1 member]

/-- A request is answered through `send_arp`, and the mapping of its sender is learned in the same call. -/
theorem touches_request {frame : EthernetFrame} {arpm : ARPMessage} (accepted : n.accepts frame = some arpm)
    (request : arpm.opcode = ARPMessage.opcodeRequest) (ip : UInt32) :
    Touches n.timer (n.limited ip) (n.arpTable ip) ((Op.apply n (.recvFrame frame)).arpTable ip)
      ((Op.asks n (.recvFrame frame)).count ip) := by
  obtain ⟨-, meant, received⟩ := recvFrame_of_some accepted
  have run : Op.apply n (.recvFrame frame) = _ :=
    (congrArg Call.interface received).trans (recvArp_request_eq meant request)
  have timer := (n.sendArp_spec arpm.senderIpAddress (some arpm.senderEthernetAddress)).2.timer
  obtain ⟨sent, out, asked⟩ := n.sendArp_requests arpm.senderIpAddress (some arpm.senderEthernetAddress)
  have asks := asks_eq (show (Op.apply n (.recvFrame frame)).framesOut = _ by rw [run]; exact out)
  rw [asked] at asks
  have table := congrArg NetworkInterface.arpTable run
  simp only [learn, timer, sendArp_table, Function.update_self, Function.update_idem] at table
  refine n.touches_of_update table ?_ ?_ ip
  · rw [asks]
    split <;> simp
  · rw [asks]
    by_cases silent : n.limited arpm.senderIpAddress = true
    · rw [silent, if_pos rfl, if_neg (by simp)]
      exact .learns
    · rw [Bool.eq_false_of_not_eq_true silent, if_neg (by simp)]
      refine .answers rfl ?_
      split <;> simp

/-- A reply makes the queue go out, and its mapping is learned unless that throws. -/
theorem touches_reply {frame : EthernetFrame} {arpm : ARPMessage} (accepted : n.accepts frame = some arpm)
    (reply : arpm.opcode = ARPMessage.opcodeReply) (ip : UInt32) :
    Touches n.timer (n.limited ip) (n.arpTable ip) ((Op.apply n (.recvFrame frame)).arpTable ip)
      ((Op.asks n (.recvFrame frame)).count ip) := by
  obtain ⟨-, meant, received⟩ := recvFrame_of_some accepted
  have queued : n.sentDgram arpm.senderIpAddress = n.sentDgram arpm.senderIpAddress := rfl
  obtain ⟨flushes, -⟩ := n.resend_spec arpm.senderEthernetAddress queued
  obtain ⟨sent, out, type⟩ := n.resend_frames arpm.senderIpAddress arpm.senderEthernetAddress
    (n.sentDgram arpm.senderIpAddress)
  have run : Op.apply n (.recvFrame frame) = _ :=
    (congrArg Call.interface received).trans (recvArp_reply_eq meant reply rfl)
  split at run
  · have asks := asks_eq (show (Op.apply n (.recvFrame frame)).framesOut = _ by rw [run]; exact out)
    rw [arpRequests_of_ipv4 type] at asks
    have table := congrArg NetworkInterface.arpTable run
    simp only [learn, flushes.timer, flushes.arpTable] at table
    refine n.touches_of_update table (by simp [asks]) ?_ ip
    rw [asks]
    exact .learns
  · exact n.touches_of_same (by rw [run]; exact flushes.arpTable) (by rw [run]; exact out) type ip

/-- **What a call does with the table and the requests**, address by address. -/
theorem touches (op : Op) (ip : UInt32) :
    Touches n.timer (n.limited ip) (n.arpTable ip) ((op.apply n).arpTable ip) ((op.asks n).count ip) := by
  cases op with
  | sendDatagram dgram hop => exact n.touches_sendDatagram dgram hop ip
  | recvFrame frame =>
    cases accepted : n.accepts frame with
    | none =>
      have run : Op.apply n (.recvFrame frame) = n := recvFrame_of_none accepted
      exact n.touches_of_same (by rw [run]) (by rw [run, List.append_nil]) (by simp) ip
    | some arpm =>
      rcases (recvFrame_of_some accepted).1 with request | reply
      · exact n.touches_request accepted request ip
      · exact n.touches_reply accepted reply ip
  | tick ms => exact n.touches_of_same rfl (List.append_nil _).symm (by simp) ip

end Calls

/-- An interface, the time that has passed, and the requests put out so far with their times. -/
structure Paced where
  interface : NetworkInterface
  now : Nat := 0
  requests : List (UInt32 × Nat) := []

namespace Paced

def step (w : Paced) (op : Op) : Option Paced := some {
  interface := op.apply w.interface
  now := w.now + Watched.elapsed op
  requests := w.requests ++ (op.asks w.interface).map fun ip => (ip, w.now) }

/-- Two requests for one address are more than five seconds apart. -/
def Spaced (w : Paced) : Prop := w.requests.Pairwise fun a b => a.1 = b.1 → a.2 + 5000 < b.2

/-- The clock does not pass `2 ^ 64` milliseconds. -/
def Unwrapped (w : Paced) : Op → Prop
  | .tick ms => w.interface.timer + ms < word64
  | _ => True

instance (w : Paced) : DecidablePred w.Unwrapped
  | .sendDatagram _ _ => .isTrue trivial
  | .recvFrame _ => .isTrue trivial
  | .tick ms => inferInstanceAs (Decidable (w.interface.timer + ms < word64))

/-- Where the call of `send_datagram` queues a datagram for `hop`, a request for it goes out with the call, or one went
out at most five seconds before. -/
def Asked (w : Paced) (dgram : InternetDatagram) (hop : UInt32) : Prop :=
  ∀ w', w.step (.sendDatagram dgram hop) = some w' → w'.interface.sentDgram hop ≠ w.interface.sentDgram hop →
    ∃ t, (hop, t) ∈ w'.requests ∧ t ≤ w.now ∧ w.now ≤ t + 5000

/-- The clock tells the time up to its reductions, and the time kept for an address is not before a request for it. -/
structure Tracked (w : Paced) : Prop where
  clock : w.interface.timer = w.now % word64
  spaced : w.Spaced
  entry : ∀ ip t, (ip, t) ∈ w.requests →
    ∃ se a, w.interface.arpTable ip = some se ∧ se.askTime = a % word64 ∧ t ≤ a ∧ a ≤ w.now

/-- While the clock has not gone round: the time kept for an address is that of a request, or the mapping is not older. -/
structure Held (w : Paced) : Prop where
  clock : w.interface.timer = w.now
  fits : w.now < word64
  entry : ∀ ip se, w.interface.arpTable ip = some se → se.askTime ≤ w.now ∧ se.updatedTime ≤ w.now ∧
    ((ip, se.askTime) ∈ w.requests ∨ se.exist = true ∧ se.askTime ≤ se.updatedTime)

section Steps

variable {w w' : Paced} {op : Op}

theorem mem_requests {ip : UInt32} {t : Nat} :
    (ip, t) ∈ w.requests ++ ((op.asks w.interface).map fun ip => (ip, w.now)) ↔
      (ip, t) ∈ w.requests ∨ ip ∈ op.asks w.interface ∧ t = w.now := by
  rw [List.mem_append, List.mem_map]
  constructor
  · rintro (old | ⟨other, asked, same⟩)
    · exact Or.inl old
    · obtain ⟨rfl, rfl⟩ := Prod.mk.inj same
      exact Or.inr ⟨asked, rfl⟩
  · rintro (old | ⟨asked, rfl⟩)
    · exact Or.inl old
    · exact Or.inr ⟨ip, asked, rfl⟩

/-- A request for an address goes out more than five seconds after all requests before. -/
theorem Tracked.later (h : w.Tracked) {ip : UInt32} {t : Nat} (before : (ip, t) ∈ w.requests)
    (free : w.interface.limited ip = false) : t + 5000 < w.now := by
  obtain ⟨se, a, found, kept, after, past⟩ := h.entry ip t before
  rw [limited, found, h.clock] at free
  simp only [Option.any_some, decide_eq_false_iff_not, kept, sub64_mod_mod past] at free
  have less := Nat.mod_le (w.now - a) word64
  omega

theorem free_of_asks {ip : UInt32} (asked : ip ∈ op.asks w.interface) : w.interface.limited ip = false := by
  have touches := w.interface.touches op ip
  have positive := List.count_pos_iff.2 asked
  generalize (op.asks w.interface).count ip = count, (op.apply w.interface).arpTable ip = entry at *
  cases touches with
  | kept => cases positive
  | asks free => exact free
  | learns => cases positive
  | answers free _ => exact free

theorem asks_nodup : (op.asks w.interface).Nodup := by
  refine List.nodup_iff_count_le_one.2 fun ip => ?_
  have touches := w.interface.touches op ip
  generalize (op.asks w.interface).count ip = count, (op.apply w.interface).arpTable ip = entry at *
  cases touches with
  | kept => exact Nat.zero_le _
  | asks _ => exact Nat.le_refl _
  | learns => exact Nat.zero_le _
  | answers _ once => exact once

theorem Tracked.spaced_step (h : w.Tracked) (run : w.step op = some w') : w'.Spaced := by
  obtain rfl := Option.some.inj run
  refine List.pairwise_append.2 ⟨h.spaced, ?_, ?_⟩
  · rw [List.pairwise_map]
    exact asks_nodup.imp fun differ same => absurd same differ
  · rintro ⟨ip, t⟩ before ⟨ip', t'⟩ new rfl
    obtain ⟨other, asked, same⟩ := List.mem_map.1 new
    obtain ⟨rfl, rfl⟩ := Prod.mk.inj same
    exact h.later before (free_of_asks asked)

theorem timer_apply (n : NetworkInterface) (op : Op) :
    (op.apply n).timer = match op with
      | .tick ms => add64 n.timer ms
      | _ => n.timer := by
  cases op with
  | sendDatagram dgram hop =>
    cases known : n.usable hop with
    | none =>
      rw [Op.apply, sendDatagram_eq dgram known]
      exact (n.sendArp_spec hop none).2.timer
    | some se =>
      rw [Op.apply, sendDatagram_of_some dgram known]
      rcases n.sendDgram_spec dgram se.eAddr with ⟨run, -⟩ | ⟨payload, -, run⟩ <;> rw [run]
  | recvFrame frame =>
    cases accepted : n.accepts frame with
    | none => rw [Op.apply, recvFrame_of_none accepted]
    | some arpm =>
      obtain ⟨opcode, meant, received⟩ := recvFrame_of_some accepted
      rw [Op.apply, received]
      rcases opcode with request | reply
      · obtain ⟨m, asks, learned⟩ := recvArp_request meant request
        rw [learned]
        exact asks.timer
      · obtain ⟨m, flushes, learned⟩ := recvArp_reply meant reply rfl
        rw [learned]
        split <;> exact flushes.timer
  | tick ms => rfl

theorem Tracked.step (h : w.Tracked) (run : w.step op = some w') : w'.Tracked := by
  have spaced := h.spaced_step run
  obtain rfl := Option.some.inj run
  refine ⟨?_, spaced, fun ip t member => ?_⟩
  · show (op.apply w.interface).timer = (w.now + Watched.elapsed op) % word64
    rw [timer_apply]
    cases op with
    | tick ms => exact (congrArg (add64 · ms) h.clock).trans (add64_mod w.now ms)
    | sendDatagram dgram hop => exact h.clock
    | recvFrame frame => exact h.clock
  · replace member := mem_requests.1 member
    have now : w.now ≤ w.now + Watched.elapsed op := Nat.le_add_right _ _
    -- a request of before keeps its entry's time unless a message goes out now
    have past : t ≤ w.now := by
      rcases member with old | ⟨-, rfl⟩
      · obtain ⟨-, a, -, -, after, past⟩ := h.entry ip t old
        exact Nat.le_trans after past
      · exact Nat.le_refl _
    have old : (op.asks w.interface).count ip = 0 → (ip, t) ∈ w.requests := by
      intro none
      rcases member with old | ⟨asked, -⟩
      · exact old
      · exact absurd asked (List.count_eq_zero.1 none)
    have touches := w.interface.touches op ip
    dsimp only
    generalize (op.asks w.interface).count ip = count, (op.apply w.interface).arpTable ip = entry at *
    cases touches with
    | kept =>
      obtain ⟨se, a, found, kept, after, before⟩ := h.entry ip t (old rfl)
      exact ⟨se, a, found, kept, after, Nat.le_trans before now⟩
    | asks _ => exact ⟨_, w.now, rfl, h.clock, past, now⟩
    | learns =>
      obtain ⟨se, a, found, kept, after, before⟩ := h.entry ip t (old rfl)
      refine ⟨_, a, rfl, ?_, after, Nat.le_trans before now⟩
      rw [found]
      exact kept
    | answers _ _ => exact ⟨_, w.now, rfl, h.clock, past, now⟩

theorem Held.step (h : w.Held) (unwrapped : w.Unwrapped op) (run : w.step op = some w') : w'.Held := by
  obtain rfl := Option.some.inj run
  have clock : (op.apply w.interface).timer = w.now + Watched.elapsed op := by
    rw [timer_apply]
    cases op with
    | tick ms => exact (add64_eq unwrapped).trans (congrArg (· + ms) h.clock)
    | sendDatagram dgram hop => exact h.clock
    | recvFrame frame => exact h.clock
  have fits : w.now + Watched.elapsed op < word64 := by
    cases op with
    | tick ms => exact h.clock ▸ unwrapped
    | sendDatagram dgram hop => exact h.fits
    | recvFrame frame => exact h.fits
  refine ⟨clock, fits, fun ip se found => ?_⟩
  have now : w.now ≤ w.now + Watched.elapsed op := Nat.le_add_right _ _
  have touches := w.interface.touches op ip
  dsimp only at found ⊢
  rw [found] at touches
  -- what the entry says of before is not in the future
  have past : ((w.interface.arpTable ip).getD {}).askTime ≤ w.now ∧
      ((w.interface.arpTable ip).getD {}).updatedTime ≤ w.now := by
    cases before : w.interface.arpTable ip with
    | none => exact ⟨Nat.zero_le _, Nat.zero_le _⟩
    | some se => exact ⟨(h.entry ip se before).1, (h.entry ip se before).2.1⟩
  generalize counted : (op.asks w.interface).count ip = count at touches
  generalize before : w.interface.arpTable ip = entry at touches past
  cases touches with
  | kept =>
    obtain ⟨asked, updated, kept⟩ := h.entry ip se before
    exact ⟨Nat.le_trans asked now, Nat.le_trans updated now, kept.imp_left fun old => List.mem_append_left _ old⟩
  | asks _ =>
    have member : ip ∈ op.asks w.interface := List.count_pos_iff.1 (by omega)
    exact ⟨Nat.le_trans (Nat.le_of_eq h.clock) now, Nat.le_trans past.2 now,
      Or.inl (mem_requests.2 (Or.inr ⟨member, h.clock⟩))⟩
  | learns =>
    dsimp only
    rw [h.clock]
    exact ⟨Nat.le_trans past.1 now, now, Or.inr ⟨rfl, past.1⟩⟩
  | answers _ _ =>
    dsimp only
    rw [h.clock]
    exact ⟨now, now, Or.inr ⟨rfl, Nat.le_refl _⟩⟩

/-- A datagram that is queued finds a request on its way. -/
theorem Held.asked (h : w.Held) (dgram : InternetDatagram) (hop : UInt32) : w.Asked dgram hop := by
  intro w' run queued
  obtain rfl := Option.some.inj run
  cases known : w.interface.usable hop with
  | some se =>
    -- the datagram goes out at once
    refine absurd ?_ queued
    dsimp only
    rw [Op.apply, sendDatagram_of_some dgram known]
    rcases w.interface.sendDgram_spec dgram se.eAddr with ⟨sent, -⟩ | ⟨payload, -, sent⟩ <;> rw [sent]
  | none =>
    by_cases free : w.interface.limited hop = false
    · obtain ⟨sent, out, asked⟩ := w.interface.sendArp_requests hop none
      have run : Op.apply w.interface (.sendDatagram dgram hop) = _ :=
        congrArg Call.interface (sendDatagram_eq dgram known)
      have asks : Op.asks w.interface (.sendDatagram dgram hop) = [hop] := by
        rw [asks_eq (by rw [run]; exact out), asked, if_pos ⟨free, rfl⟩]
      refine ⟨w.now, mem_requests.2 (Or.inr ⟨?_, rfl⟩), Nat.le_refl _, Nat.le_add_right _ _⟩
      rw [asks]
      exact List.mem_singleton_self hop
    · obtain ⟨se, found, recent⟩ := (Option.any_eq_true _ _).1 (Bool.eq_true_of_not_eq_false free)
      obtain ⟨asked, updated, kept⟩ := h.entry hop se found
      rw [decide_eq_true_eq, h.clock, sub64_eq asked h.fits] at recent
      have stale : ¬ (se.exist = true ∧ w.now - se.updatedTime ≤ 30 * 1000) := by
        intro fresh
        rw [usable, found, Option.filter_some, h.clock, sub64_eq updated h.fits, fresh.1, decide_eq_true fresh.2] at known
        cases known
      refine ⟨se.askTime, ?_, asked, by omega⟩
      rcases kept with request | ⟨exist, order⟩
      · exact List.mem_append_left _ request
      · exact absurd ⟨exist, by omega⟩ stale

end Steps

/-- **Pacing of ARP requests.** In every run, requests for one address are more than five seconds apart; and in every
run in which the clock does not go round, no datagram is queued without a request in the last five seconds. -/
theorem requests_paced (ethernetAddress : EthernetAddress) (ipAddress : UInt32) :
    (∀ w, Reaches step (fun _ _ => True) { interface := { ethernetAddress, ipAddress } } w → w.Spaced) ∧
      ∀ w, Reaches step Unwrapped { interface := { ethernetAddress, ipAddress } } w →
        ∀ dgram hop, w.Asked dgram hop := by
  constructor
  · intro w run
    have tracked : w.Tracked := by
      refine run.invariant ⟨rfl, .nil, ?_⟩ fun _ _ _ tracked _ step => tracked.step step
      simp
    exact tracked.spaced
  · intro w run dgram hop
    have held : w.Held := by
      refine run.invariant ⟨rfl, (by decide : 0 < word64), ?_⟩ fun _ _ _ held unwrapped step => held.step unwrapped step
      simp
    exact held.asked dgram hop

/-- A datagram waits, and is asked for again with the next one five seconds and a millisecond later. -/
theorem requests_paced_retry :
    ∃ w, follow step Unwrapped { interface := { ethernetAddress := ownEth, ipAddress := ownIp } }
        [.sendDatagram { header := { len := 20, id := 1 } } neighbourIp, .tick 5000,
          .sendDatagram { header := { len := 20, id := 2 } } neighbourIp, .tick 1,
          .sendDatagram { header := { len := 20, id := 3 } } neighbourIp] = some w ∧
      w.requests = [(neighbourIp, 0), (neighbourIp, 5001)] ∧
      w.Asked { header := { len := 20, id := 4 } } neighbourIp := by
  obtain ⟨w, run, seen⟩ := Option.map_eq_some_iff.1 (show (follow step Unwrapped
      { interface := { ethernetAddress := ownEth, ipAddress := ownIp } }
      [.sendDatagram { header := { len := 20, id := 1 } } neighbourIp, .tick 5000,
        .sendDatagram { header := { len := 20, id := 2 } } neighbourIp, .tick 1,
        .sendDatagram { header := { len := 20, id := 3 } } neighbourIp]).map
      (fun w => w.requests) = some [(neighbourIp, 0), (neighbourIp, 5001)] by decide +kernel)
  exact ⟨w, run, seen, (requests_paced ownEth ownIp).2 w (Reaches.start.follow run) _ _⟩

/-- After `2 ^ 64` milliseconds the time of the first request looks like now: the next datagram is queued, and no
request has gone out since. -/
theorem queued_without_request :
    ¬ ∀ (ethernetAddress : EthernetAddress) (ipAddress : UInt32) (w : Paced),
      Reaches step (fun _ _ => True) { interface := { ethernetAddress, ipAddress } } w →
        ∀ dgram hop, w.Asked dgram hop := by
  intro claim
  obtain ⟨w, run, seen⟩ := Option.map_eq_some_iff.1 (show (follow step (fun _ _ => True)
      { interface := { ethernetAddress := ownEth, ipAddress := ownIp } }
      [.sendDatagram { header := { len := 20, id := 1 } } neighbourIp, .tick (2 ^ 64 - 1), .tick 1]).map
      (fun w => (w.now, (w.step (.sendDatagram { header := { len := 20, id := 2 } } neighbourIp)).map fun w' =>
        (w'.requests, decide (w'.interface.sentDgram neighbourIp = w.interface.sentDgram neighbourIp)))) =
      some (2 ^ 64, some ([(neighbourIp, 0)], false)) by decide +kernel)
  obtain ⟨now, seen⟩ := Prod.mk.inj seen
  obtain ⟨w', step, seen⟩ := Option.map_eq_some_iff.1 seen
  obtain ⟨requests, queued⟩ := Prod.mk.inj seen
  obtain ⟨t, asked, -, recent⟩ := claim ownEth ownIp w (Reaches.start.follow run) _ _ w' step (of_decide_eq_false queued)
  rw [requests, List.mem_singleton] at asked
  obtain ⟨-, rfl⟩ := Prod.mk.inj asked
  omega

end Paced

end NetworkInterface

end Sponge
