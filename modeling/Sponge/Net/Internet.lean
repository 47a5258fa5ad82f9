import Sponge.Logic.Reach
import Sponge.Net.Forwarding

/-!
# An internet of routers and hosts

Any number of nodes, each with interfaces and a routing table; a host is a node
that never calls `route`. The nodes share one wire: whatever an interface has put
out may arrive at any interface, any number of times, in any order, or never.
Nothing else is on the wire. A call that throws leaves what it has done so far,
and the run goes on.

Two things are followed through all runs. ARP tells the truth: a mapping, once
learned, is that of an interface, so that a datagram leaves for an interface that
has the address of the next hop. This needs nothing of what is submitted. And
datagrams are carried: what a node receives is what some owner has submitted,
older by the number of routers on its way and otherwise unchanged. This is for
datagrams that can be written and read back, and for routes to interfaces that
there are: a datagram at which `route` is stuck gets older without leaving.
-/

namespace Sponge

namespace NetworkInterface

/-! ### What one interface keeps to -/

/-- A frame that may be on the wire: a datagram that was given for some next hop, addressed to an owner of that address, or
an ARP message with the addresses of an owner. -/
inductive Honest (Own : UInt32 → EthernetAddress → Prop) (Given : UInt32 → InternetDatagram → Prop) (frame : EthernetFrame) :
    Prop where
  | ipv4 (type : frame.header.type = EthernetHeader.typeIPv4) {hop : UInt32} {dgram : InternetDatagram}
      (given : Given hop dgram) (written : dgram.serialize = some frame.payload) (own : Own hop frame.header.dst)
  | arp (type : frame.header.type = EthernetHeader.typeARP) {payload : List UInt8} {arpm : ARPMessage}
      (is : frame.payload = .ofString payload) (read : ARPMessage.parse {} payload = some (arpm, .noError))
      (own : Own arpm.senderIpAddress arpm.senderEthernetAddress)

/-- An interface that owns its addresses, whose mappings are those of owners, and which puts out honest frames. -/
structure Truthful (Own : UInt32 → EthernetAddress → Prop) (Given : UInt32 → InternetDatagram → Prop)
    (n : NetworkInterface) : Prop where
  self : Own n.ipAddress n.ethernetAddress
  mapping : ∀ ip address time, n.mapping ip = some (address, time) → Own ip address
  queue : ∀ ip, ∀ dgram ∈ n.sentDgram ip, Given ip dgram
  frames : ∀ frame ∈ n.framesOut, Honest Own Given frame

variable {Own : UInt32 → EthernetAddress → Prop} {Given Given' : UInt32 → InternetDatagram → Prop} {n n' : NetworkInterface}

theorem Honest.mono {frame : EthernetFrame} (more : ∀ hop dgram, Given hop dgram → Given' hop dgram)
    (h : Honest Own Given frame) : Honest Own Given' frame := by
  cases h with
  | ipv4 type given written own => exact .ipv4 type (more _ _ given) written own
  | arp type is read own => exact .arp type is read own

namespace Truthful

theorem mono (more : ∀ hop dgram, Given hop dgram → Given' hop dgram) (h : n.Truthful Own Given) : n.Truthful Own Given' :=
  ⟨h.self, h.mapping, fun ip dgram member => more ip dgram (h.queue ip dgram member),
    fun frame member => (h.frames frame member).mono more⟩

theorem tick (h : n.Truthful Own Given) (ms : Nat) : (n.tick ms).Truthful Own Given := ⟨h.self, h.mapping, h.queue, h.frames⟩

/-- `send_arp` gives its own addresses. -/
theorem sendArp (h : n.Truthful Own Given) (ip : UInt32) (eth : Option EthernetAddress) :
    (n.sendArp ip eth).interface.Truthful Own Given := by
  obtain ⟨-, asks⟩ := n.sendArp_spec ip eth
  obtain ⟨sent, out, frames⟩ := n.sendArp_frames ip eth
  refine ⟨?_, ?_, ?_, ?_⟩
  · rw [asks.ipAddress, asks.ethernetAddress]
    exact h.self
  · rw [asks.mapping]
    exact h.mapping
  · rw [asks.queue]
    exact h.queue
  · rw [out]
    refine List.forall_mem_append.2 ⟨h.frames, ?_⟩
    split at frames
    · rw [frames]
      simp
    · obtain ⟨payload, rfl, read⟩ := frames
      exact List.forall_mem_singleton.2 (.arp rfl rfl read h.self)

theorem learn (h : n.Truthful Own Given) {arpm : ARPMessage} (own : Own arpm.senderIpAddress arpm.senderEthernetAddress) :
    (n.learn arpm).Truthful Own Given := by
  refine ⟨h.self, fun ip address time known => ?_, h.queue, h.frames⟩
  rw [learn_mapping] at known
  by_cases here : ip = arpm.senderIpAddress
  · subst here
    rw [Function.update_self] at known
    cases known
    exact own
  · rw [Function.update_of_ne here] at known
    exact h.mapping ip address time known

theorem queue_update (h : n.Truthful Own Given) {ip : UInt32} {l : List InternetDatagram} (all : ∀ dgram ∈ l, Given ip dgram) :
    ∀ other, ∀ dgram ∈ Function.update n.sentDgram ip l other, Given other dgram := by
  intro other
  by_cases here : other = ip
  · subst here
    rw [Function.update_self]
    exact all
  · rw [Function.update_of_ne here]
    exact h.queue other

/-- **`send_datagram`** sends to the owner of the next hop, or asks for it. -/
theorem sendDatagram (h : n.Truthful Own Given) {hop : UInt32} {dgram : InternetDatagram} (given : Given hop dgram) :
    (n.sendDatagram dgram hop).interface.Truthful Own Given := by
  cases known : n.usable hop with
  | none =>
    rw [sendDatagram_eq dgram known]
    have asked := h.sendArp hop none
    exact ⟨asked.self, asked.mapping,
      asked.queue_update (List.forall_mem_append.2 ⟨asked.queue hop, List.forall_mem_singleton.2 given⟩), asked.frames⟩
  | some se =>
    rw [sendDatagram_of_some dgram known]
    rcases n.sendDgram_spec dgram se.eAddr with ⟨run, -⟩ | ⟨payload, written, run⟩
    · rw [run]
      exact h
    · rw [run]
      refine ⟨h.self, h.mapping, h.queue, List.forall_mem_append.2 ⟨h.frames, List.forall_mem_singleton.2 ?_⟩⟩
      exact .ipv4 rfl given written (h.mapping hop se.eAddr se.updatedTime (mapping_of_usable known).1)

/-- The datagrams that wait for an address are sent to its owner, up to the first that cannot be. -/
theorem resend (h : n.Truthful Own Given) {ip : UInt32} {address : EthernetAddress} (own : Own ip address)
    {l : List InternetDatagram} (queued : n.sentDgram ip = l) : (n.resend ip address l).interface.Truthful Own Given := by
  induction l generalizing n with
  | nil => exact h
  | cons dgram rest ih =>
    have given := h.queue ip
    rw [queued, List.forall_mem_cons] at given
    rw [NetworkInterface.resend]
    rcases n.sendDgram_spec dgram address with ⟨run, -⟩ | ⟨payload, written, run⟩
    · rw [run, Call.andThen_none]
      exact h
    · rw [run, Call.andThen_some]
      refine ih ⟨h.self, h.mapping, h.queue_update given.2, List.forall_mem_append.2 ⟨h.frames, ?_⟩⟩ (Function.update_self ..)
      exact List.forall_mem_singleton.2 (.ipv4 rfl given.1 written own)

/-- **`recv_frame`** of a frame whose message, if it is taken, is true. -/
theorem recvFrame (h : n.Truthful Own Given) {frame : EthernetFrame}
    (own : ∀ arpm, n.accepts frame = some arpm → Own arpm.senderIpAddress arpm.senderEthernetAddress) :
    (n.recvFrame frame).interface.Truthful Own Given := by
  cases accepted : n.accepts frame with
  | none =>
    rw [recvFrame_of_none accepted]
    exact h
  | some arpm =>
    obtain ⟨opcode, meant, run⟩ := recvFrame_of_some accepted
    have own := own arpm accepted
    rw [run]
    rcases opcode with request | reply
    · rw [recvArp_request_eq meant request]
      exact (h.sendArp _ _).learn own
    · have resent := h.resend own rfl
      rw [recvArp_reply_eq meant reply rfl]
      split
      · exact resent.learn own
      · exact resent

end Truthful

end NetworkInterface

/-! ### The nodes and the wire -/

open Router (Forward forward aged share)

/-- The nodes; what was handed to an interface by an owner, with `send_datagram`; and what was handed to one by `route`, with
the datagram that it was taken from a queue as. -/
structure Internet (κ : Type) where
  node : κ → Router
  submitted : List (κ × Forward) := []
  routed : List (κ × InternetDatagram × Forward) := []

/-- What can happen: an owner calls `send_datagram` of an interface, the frame with the number `m` that the interface `n'` of
`k'` has put out arrives at another, a router routes, time passes at an interface, or an owner takes the first datagram from
the queue of an interface. -/
inductive Event (κ : Type) where
  | submit (k : κ) (f : Forward)
  | arrive (k : κ) (n : Nat) (k' : κ) (n' m : Nat)
  | route (k : κ)
  | tick (k : κ) (n : Nat) (ms : Nat)
  | take (k : κ) (n : Nat)

/-- `interface(N).tick(ms)`. -/
def Router.tick (r : Router) (interfaceNum ms : Nat) : Option Router :=
  r.interfaces[interfaceNum]?.map fun i => { r with
    interfaces := r.interfaces.set interfaceNum { i with toNetworkInterface := i.toNetworkInterface.tick ms } }

/-- `interface(N).datagrams_out().pop()`. -/
def Router.take (r : Router) (interfaceNum : Nat) : Option Router :=
  r.interfaces[interfaceNum]?.map fun i => { r with
    interfaces := r.interfaces.set interfaceNum { i with datagramsOut := i.datagramsOut.tail } }

/-- The datagrams that a table forwards, beside what they are forwarded as. -/
def Router.forwardsOf (t : RouterTable) (q : List InternetDatagram) : List (InternetDatagram × Forward) :=
  q.filterMap fun dgram => (forward t dgram).join.map (dgram, ·)

/-- What `route` takes from the queues and hands over, until it is stuck (`Routed.passed`). -/
def Router.passed (r : Router) : List (InternetDatagram × Forward) :=
  (forwardsOf r.table r.queued).takeWhile fun p => r.accepts p.2

/-- Every entry is for an interface that there is. -/
def Router.Wired (r : Router) : Prop := ∀ key, (r.table.value key).interfaceNum < r.interfaces.length

/-- A frame as it is received: its payload is in one piece. -/
def EthernetFrame.received (frame : EthernetFrame) : EthernetFrame := { frame with payload := .ofString frame.payload.concatenate }

namespace Internet

variable {κ : Type}

/-- The interface with the number `n` of the node `k`. -/
def at? (w : Internet κ) (k : κ) (n : Nat) : Option AsyncNetworkInterface := (w.node k).interfaces[n]?

/-- The node `k` is replaced. -/
def put [DecidableEq κ] (w : Internet κ) (k : κ) (r : Router) : Internet κ := { w with node := Function.update w.node k r }

/-- One event. A call that throws leaves what it has done, and the run goes on. -/
def step [DecidableEq κ] (w : Internet κ) : Event κ → Option (Internet κ)
  | .submit k f =>
    let call := (w.node k).sendOn f.interfaceNum f.dgram f.nextHop
    some { w.put k call.left with submitted := w.submitted ++ if call.returns then [(k, f)] else [] }
  | .arrive k n k' n' m => (w.at? k' n').bind fun i => i.framesOut[m]?.map fun sent =>
    w.put k ((w.node k).recvFrame n sent.received).left
  | .route k => (w.node k).route.map fun call =>
    { w.put k call.left with routed := w.routed ++ (w.node k).passed.map (k, ·) }
  | .tick k n ms => ((w.node k).tick n ms).map (w.put k)
  | .take k n => ((w.node k).take n).map (w.put k)

/-- The node `k` has handed over the datagram, for its owner or by `route`. -/
def Handed (w : Internet κ) (k : κ) (f : Forward) : Prop := (k, f) ∈ w.submitted ∨ ∃ dgram, (k, dgram, f) ∈ w.routed

/-- A datagram that its owner has filled in: the header can be written and read back, and has the length of the whole. -/
def Filled (dgram : InternetDatagram) : Prop :=
  dgram.header.Writable ∧ dgram.header.len.toNat = 4 * dgram.header.hlen.toNat + dgram.payload.size

instance (header : IPv4Header) : Decidable header.Writable :=
  decidable_of_iff (header.ver = 4 ∧ 5 ≤ header.hlen ∧ header.hlen ≤ 15 ∧ header.offset < 0x2000)
    ⟨fun h => ⟨h.1, h.2.1, h.2.2.1, h.2.2.2⟩, fun h => ⟨h.version, h.least, h.most, h.offset⟩⟩

instance (dgram : InternetDatagram) : Decidable (Filled dgram) := inferInstanceAs (Decidable (_ ∧ _))

/-- Owners submit what they have filled in. -/
def Allowed (_ : Internet κ) : Event κ → Prop
  | .submit _ f => Filled f.dgram
  | _ => True

instance (w : Internet κ) : DecidablePred (Allowed w)
  | .submit _ f => inferInstanceAs (Decidable (Filled f.dgram))
  | .arrive .. | .route _ | .tick .. | .take .. => inferInstanceAs (Decidable True)

/-- `older` is `dgram` after so many hops. -/
structure Aged (hops : Nat) (dgram older : InternetDatagram) : Prop where
  ttl : older.header.ttl.toNat + hops = dgram.header.ttl.toNat
  header : { older.header with ttl := dgram.header.ttl, cksum := dgram.header.cksum } = dgram.header
  payload : older.payload.concatenate = dgram.payload.concatenate

/-- The address of an interface, as the network was set up. -/
def Owns (first : Internet κ) (ip : UInt32) (address : EthernetAddress) : Prop :=
  ∃ k n i, first.at? k n = some i ∧ i.ipAddress = ip ∧ i.ethernetAddress = address

/-- The way of a datagram: an owner has submitted it, and each of these routers has taken a copy of it from a queue, as the
one before had handed it over, and handed it over itself. -/
inductive Carried (w : Internet κ) (original : InternetDatagram) : List κ → InternetDatagram → Prop where
  | submitted {k : κ} {f : Forward} (logged : (k, f) ∈ w.submitted) (is : f.dgram = original) : Carried w original [] original
  | forwarded {routers : List κ} {k : κ} {older taken : InternetDatagram} {f : Forward} (before : Carried w original routers older)
      (copy : Aged 0 older taken) (logged : (k, taken, f) ∈ w.routed) : Carried w original (routers ++ [k]) f.dgram

/-- The datagram was received in place of one that was handed to an interface, for an address that the interface `n` of `k`
is an owner of. -/
def Came (first w : Internet κ) (k : κ) (n : Nat) (dgram : InternetDatagram) : Prop :=
  ∃ k' f i, w.Handed k' f ∧ first.at? k n = some i ∧ Owns first f.nextHop i.ethernetAddress ∧ Aged 0 f.dgram dgram

/-- What holds of an interface at all times. -/
structure Keeps (first w : Internet κ) (k : κ) (n : Nat) (i : AsyncNetworkInterface) : Prop where
  place : ∃ j, first.at? k n = some j ∧ i.ipAddress = j.ipAddress ∧ i.ethernetAddress = j.ethernetAddress
  truthful : i.toNetworkInterface.Truthful (Owns first) fun hop dgram => w.Handed k ⟨n, dgram, hop⟩

/-- What holds of all interfaces at all times. -/
def Keeping (first w : Internet κ) : Prop := ∀ k n i, w.at? k n = some i → Keeps first w k n i

/-- What holds at all times if owners submit what they have filled in. -/
structure Sound (first w : Internet κ) : Prop where
  keeps : first.Keeping w
  wired : ∀ k, (w.node k).Wired
  came : ∀ k n, ∀ dgram ∈ (w.node k).queue n, Came first w k n dgram
  filled : ∀ k f, (k, f) ∈ w.submitted → Filled f.dgram
  routed : ∀ k dgram f, (k, dgram, f) ∈ w.routed → f.dgram = aged dgram ∧ (aged dgram).header.ttl ≠ 0
  carried : ∀ k f, w.Handed k f → ∃ original routers, Carried w original routers f.dgram

/-! ### Datagrams on their way -/

section Aged

variable {hops : Nat} {dgram older oldest : InternetDatagram}

theorem Aged.fields (h : Aged hops dgram older) : older.header.ver = dgram.header.ver ∧ older.header.hlen = dgram.header.hlen ∧
    older.header.offset = dgram.header.offset ∧ older.header.len = dgram.header.len ∧ older.header.dst = dgram.header.dst := by
  rw [← h.header]
  exact ⟨rfl, rfl, rfl, rfl, rfl⟩

theorem Aged.filled (h : Aged hops dgram older) (filled : Filled dgram) : Filled older := by
  obtain ⟨ver, hlen, offset, len, -⟩ := h.fields
  obtain ⟨⟨version, least, most, small⟩, total⟩ := filled
  refine ⟨⟨ver.trans version, hlen ▸ least, hlen ▸ most, offset ▸ small⟩, ?_⟩
  rw [len, hlen, total, ← BufferList.length_concatenate, ← BufferList.length_concatenate, h.payload]

theorem Aged.trans (h : Aged hops dgram older) (more : Aged 0 older oldest) : Aged hops dgram oldest := by
  refine ⟨by have := h.ttl; have := more.ttl; omega, ?_, more.payload.trans h.payload⟩
  rw [← h.header]
  conv_rhs => rw [← more.header]

/-- One router more. -/
theorem Aged.forward (h : Aged hops dgram older) (living : (aged older).header.ttl ≠ 0) : Aged (hops + 1) dgram (aged older) := by
  have alive : 1 < older.header.ttl := UInt8.not_le.1 fun last => living ((Router.aged_ttl_eq_zero older).2 last)
  have less : (older.header.ttl - 1).toNat = older.header.ttl.toNat - 1 :=
    UInt8.toNat_sub_of_le _ 1 (UInt8.le_of_lt alive)
  have more : 1 < older.header.ttl.toNat := UInt8.lt_iff_toNat_lt.1 alive
  have ttl : (aged older).header.ttl = older.header.ttl - 1 := if_pos (Router.ttl_pos alive).1
  refine ⟨?_, h.header, h.payload⟩
  rw [ttl, less]
  have := h.ttl
  omega

theorem Filled.sendable (filled : Filled dgram) : NetworkInterface.sendable dgram = true := by
  obtain ⟨cksum, out, run, -⟩ := IPv4Datagram.serialize_eq filled.1 filled.2
  rw [NetworkInterface.sendable, run]
  rfl

/-- What is read from the datagram as it was written. -/
theorem Filled.received (filled : Filled dgram) {payload : BufferList} (written : dgram.serialize = some payload)
    (read : IPv4Datagram.parse {} payload.concatenate = some (older, .noError)) : Aged 0 dgram older := by
  obtain ⟨cksum, out, run, -, -, parses⟩ := IPv4Datagram.parse_serialized dgram filled.1 filled.2
  rw [written] at run
  cases run
  rw [parses] at read
  cases read
  exact ⟨rfl, rfl, BufferList.concatenate_ofString _⟩

end Aged

end Internet

namespace NetworkInterface

variable {Own : UInt32 → EthernetAddress → Prop} {Given : UInt32 → InternetDatagram → Prop} {n : NetworkInterface}
  {sent : EthernetFrame}

/-- A message taken from an honest frame is true. -/
theorem Honest.own (honest : Honest Own Given sent) {arpm : ARPMessage} (accepted : n.accepts sent.received = some arpm) :
    Own arpm.senderIpAddress arpm.senderEthernetAddress := by
  unfold accepts at accepted
  split at accepted
  · rename_i kind
    have type : sent.header.type = EthernetHeader.typeARP := by
      have kind : n.pkgType sent.header = .arp := kind
      unfold pkgType at kind
      split at kind
      · split at kind
        · assumption
        · split at kind <;> cases kind
      · split at kind
        · rename_i broadcast
          exact broadcast.2
        · cases kind
    cases honest with
    | ipv4 other =>
      rw [type] at other
      cases other
    | @arp _ payload message is read own =>
      have there : sent.received.payload.toBuffer = some payload := by
        show some sent.payload.concatenate = _
        rw [is, BufferList.concatenate_ofString]
      rw [there, Option.bind_some, read, Option.bind_some] at accepted
      dsimp only at accepted
      split at accepted
      · cases accepted
        exact own
      · cases accepted
  · cases accepted

/-- A datagram taken from an honest frame was given for an address whose owner takes it. -/
theorem Honest.datagram (honest : Honest Own Given sent) (filled : ∀ hop dgram, Given hop dgram → Internet.Filled dgram)
    {dgram : InternetDatagram} (returned : (n.recvFrame sent.received).result = some (some dgram)) :
    ∃ hop original, Given hop original ∧ Own hop n.ethernetAddress ∧ Internet.Aged 0 original dgram := by
  obtain ⟨dst, type, parsed⟩ := n.recvFrame_datagram sent.received returned
  cases honest with
  | @ipv4 _ hop original given written own =>
    refine ⟨hop, original, given, ?_, (filled hop original given).received written parsed⟩
    rw [← dst]
    exact own
  | arp other =>
    rw [show sent.header.type = EthernetHeader.typeIPv4 from type] at other
    cases other

/-- No call changes the addresses. -/
theorem sendDatagram_addresses (n : NetworkInterface) (dgram : InternetDatagram) (hop : UInt32) :
    (n.sendDatagram dgram hop).interface.ipAddress = n.ipAddress ∧
      (n.sendDatagram dgram hop).interface.ethernetAddress = n.ethernetAddress := by
  cases known : n.usable hop with
  | none =>
    obtain ⟨m, asks, run⟩ := n.sendDatagram_of_none dgram known
    rw [run]
    exact ⟨asks.ipAddress, asks.ethernetAddress⟩
  | some se =>
    rw [sendDatagram_of_some dgram known]
    rcases n.sendDgram_spec dgram se.eAddr with ⟨run, -⟩ | ⟨payload, -, run⟩
    · rw [run]
      exact ⟨rfl, rfl⟩
    · rw [run]
      exact ⟨rfl, rfl⟩

theorem recvFrame_addresses (n : NetworkInterface) (frame : EthernetFrame) :
    (n.recvFrame frame).interface.ipAddress = n.ipAddress ∧
      (n.recvFrame frame).interface.ethernetAddress = n.ethernetAddress := by
  cases accepted : n.accepts frame with
  | none =>
    rw [recvFrame_of_none accepted]
    exact ⟨rfl, rfl⟩
  | some arpm =>
    obtain ⟨opcode, meant, run⟩ := recvFrame_of_some accepted
    rw [run]
    rcases opcode with request | reply
    · obtain ⟨m, asks, same⟩ := recvArp_request meant request
      rw [same]
      exact ⟨asks.ipAddress, asks.ethernetAddress⟩
    · obtain ⟨m, flushes, same⟩ := recvArp_reply meant reply rfl
      rw [same]
      split
      · exact ⟨flushes.ipAddress, flushes.ethernetAddress⟩
      · exact ⟨flushes.ipAddress, flushes.ethernetAddress⟩

end NetworkInterface

namespace Router

variable {r : Router} {n : Nat}

/-- A call of a member of an interface changes that interface, or nothing. -/
theorem onInterface_left (r : Router) (n : Nat) (call : AsyncNetworkInterface → CallEnd AsyncNetworkInterface) :
    (r.onInterface n call).left = r ∨ ∃ i, r.interfaces[n]? = some i ∧
      (r.onInterface n call).left = { r with interfaces := r.interfaces.set n (call i).left } := by
  rw [onInterface]
  cases there : r.interfaces[n]? with
  | none => exact .inl rfl
  | some i => exact .inr ⟨i, rfl, rfl⟩

theorem queue_of_some {i : AsyncNetworkInterface} (there : r.interfaces[n]? = some i) : r.queue n = i.datagramsOut := by
  rw [queue, there]
  rfl

/-- The other queues stay as they are. -/
theorem queue_set {i : AsyncNetworkInterface} (there : r.interfaces[n]? = some i) (j : AsyncNetworkInterface) (m : Nat) :
    Router.queue { r with interfaces := r.interfaces.set n j } m = if n = m then j.datagramsOut else r.queue m := by
  rw [queue]
  dsimp only
  rw [List.getElem?_set]
  split
  · rename_i here
    subst here
    rw [if_pos (List.getElem?_eq_some_iff.1 there).1]
    rfl
  · rfl

/-- What a frame adds to a queue is what `recv_frame` returned. -/
theorem mem_queue_recvFrame {frame : EthernetFrame} {m : Nat} {dgram : InternetDatagram}
    (member : dgram ∈ (r.recvFrame n frame).left.queue m) : dgram ∈ r.queue m ∨ n = m ∧ ∃ i, r.interfaces[n]? = some i ∧
      (i.toNetworkInterface.recvFrame frame).result = some (some dgram) := by
  rcases r.onInterface_left n (·.recvFrame frame) with same | ⟨i, there, same⟩
  · rw [recvFrame, same] at member
    exact .inl member
  · rw [recvFrame, same, queue_set there] at member
    split at member
    · rename_i here
      subst here
      rw [queue_of_some there]
      rcases List.mem_append.1 member with old | new
      · exact .inl old
      · refine .inr ⟨rfl, i, there, ?_⟩
        cases call : (i.toNetworkInterface.recvFrame frame).result with
        | none =>
          rw [call] at new
          cases new
        | some result =>
          rw [call] at new
          exact congrArg some (Option.mem_toList.1 new)
    · exact .inl member

/-! ### What `route` has handed over -/

theorem mem_forwardsOf {t : RouterTable} {q : List InternetDatagram} {p : InternetDatagram × Forward} :
    p ∈ forwardsOf t q ↔ p.1 ∈ q ∧ forward t p.1 = some (some p.2) := by
  rw [forwardsOf, List.mem_filterMap]
  constructor
  · rintro ⟨dgram, queued, decided⟩
    obtain ⟨f, joined, rfl⟩ := Option.map_eq_some_iff.1 decided
    exact ⟨queued, Option.join_eq_some_iff.1 joined⟩
  · rintro ⟨queued, decided⟩
    refine ⟨p.1, queued, ?_⟩
    rw [decided]
    rfl

theorem forwardsOf_eq {t : RouterTable} {q : List InternetDatagram} {ds : List (Option Forward)} (decided : Decides t q ds) :
    (forwardsOf t q).map Prod.snd = ds.reduceOption := by
  induction decided with
  | nil => rfl
  | @cons dgram decision _ _ here _ ih =>
    rw [reduceOption_cons, ← ih, forwardsOf]
    cases decision with
    | none => rw [List.filterMap_cons_none (by rw [here]; rfl)]; rfl
    | some f => rw [List.filterMap_cons_some (by rw [here]; rfl)]; rfl

/-- **`route`** hands over what has passed. -/
theorem Routed.passed {o : CallEnd Router}
    (h : Routed (fun dgram decision => forward r.table dgram = some decision) r r.interfaces.length o) :
    ∃ m q, o.left = r.midway (r.passed.map Prod.snd) m q ∧ (o.returns = true → m = r.interfaces.length) := by
  have accepted : ∀ {q ds}, Decides r.table q ds → (∀ f ∈ ds.reduceOption, r.accepts f = true) →
      ∀ p ∈ forwardsOf r.table q, r.accepts p.2 = true := fun decided taken p member =>
    taken p.2 (forwardsOf_eq decided ▸ List.mem_map_of_mem member)
  cases h with
  | @all ds decided taken =>
    rw [List.take_length] at decided
    have decided : Decides r.table r.queued ds := decided
    have whole : r.passed = forwardsOf r.table r.queued := List.takeWhile_eq_self_iff.2 (accepted decided taken)
    rw [whole, forwardsOf_eq decided]
    exact ⟨_, _, rfl, fun _ => rfl⟩
  | @stuck m seen rest dgram ds f here decided taken next refused =>
    -- the queues, up to the datagram that is refused and after it
    obtain ⟨behind, split⟩ : ∃ behind, r.queued = ((r.interfaces.take m).flatMap (·.datagramsOut) ++ seen) ++ dgram :: behind := by
      refine ⟨rest ++ (r.interfaces.drop (m + 1)).flatMap (·.datagramsOut), ?_⟩
      cases there : r.interfaces[m]? with
      | none =>
        rw [queue, there] at here
        simp at here
      | some i =>
        have parts : r.interfaces = r.interfaces.take m ++ i :: r.interfaces.drop (m + 1) := by
          obtain ⟨inside, rfl⟩ := List.getElem?_eq_some_iff.1 there
          rw [List.getElem_cons_drop, List.take_append_drop]
        rw [queue_of_some there] at here
        rw [queued]
        conv_lhs => rw [parts]
        simp [here]
    have stops : r.passed = forwardsOf r.table ((r.interfaces.take m).flatMap (·.datagramsOut) ++ seen) := by
      have parts : forwardsOf r.table r.queued = forwardsOf r.table ((r.interfaces.take m).flatMap (·.datagramsOut) ++ seen) ++
          (dgram, f) :: forwardsOf r.table behind := by
        rw [split, forwardsOf, List.filterMap_append, List.filterMap_cons_some (b := (dgram, f)) (by rw [next]; rfl)]
        rfl
      rw [Router.passed, parts, List.takeWhile_append_of_pos (accepted decided taken),
        List.takeWhile_cons_of_neg (by simp [refused]), List.append_nil]
    rw [stops, forwardsOf_eq decided]
    exact ⟨m, _, rfl, fun returns => absurd returns Bool.false_ne_true⟩

/-- What is forwarded is the datagram with one less to live, to the interface of an entry. -/
theorem forward_eq {t : RouterTable} {dgram : InternetDatagram} {f : Forward} (decided : forward t dgram = some (some f)) :
    ∃ key, f.interfaceNum = (t.value key).interfaceNum ∧ f.dgram = aged dgram ∧ (aged dgram).header.ttl ≠ 0 := by
  unfold forward at decided
  split at decided
  · cases decided
  · rename_i living
    obtain ⟨found, -, some_⟩ := Option.map_eq_some_iff.1 decided
    obtain ⟨key, -, same⟩ := Option.map_eq_some_iff.1 some_
    rw [← same]
    exact ⟨key, rfl, rfl, living⟩

theorem mem_passed {p : InternetDatagram × Forward} (member : p ∈ r.passed) :
    p.1 ∈ r.queued ∧ p.2.dgram = aged p.1 ∧ (aged p.1).header.ttl ≠ 0 := by
  obtain ⟨queued, decided⟩ := mem_forwardsOf.1 ((List.takeWhile_sublist _).subset member)
  obtain ⟨-, -, same⟩ := forward_eq decided
  exact ⟨queued, same⟩

theorem mem_queued {dgram : InternetDatagram} (member : dgram ∈ r.queued) : ∃ m, dgram ∈ r.queue m := by
  obtain ⟨i, inside, waits⟩ := List.mem_flatMap.1 member
  obtain ⟨m, there⟩ := List.mem_iff_getElem?.1 inside
  exact ⟨m, by rwa [queue_of_some there]⟩

theorem midway_queue_nil (fs : List Forward) (q : List InternetDatagram) (m : Nat) :
    (r.midway fs r.interfaces.length q).queue m = [] := by
  rw [queue, midway, List.getElem?_mapIdx]
  cases there : r.interfaces[m]? with
  | none => rfl
  | some i =>
    have inside : m < r.interfaces.length := (List.getElem?_eq_some_iff.1 there).1
    simp [inside]

end Router

namespace Router.Wired

variable {r : Router}

theorem set (h : Router.Wired r) {n : Nat} {i : AsyncNetworkInterface} : Router.Wired { r with interfaces := r.interfaces.set n i } := by
  intro key
  rw [List.length_set]
  exact h key

theorem onInterface (h : Router.Wired r) {n : Nat} {call : AsyncNetworkInterface → CallEnd AsyncNetworkInterface} :
    Router.Wired (r.onInterface n call).left := by
  rcases r.onInterface_left n call with same | ⟨i, -, same⟩
  · rw [same]
    exact h
  · rw [same]
    exact h.set

end Router.Wired

/-! ### What holds at all times -/

namespace Internet

variable {κ : Type} {first w w' : Internet κ} {k : κ} {n : Nat} {i : AsyncNetworkInterface}

/-- Nothing is taken back from what was logged. -/
structure More (w w' : Internet κ) : Prop where
  submitted : ∀ p ∈ w.submitted, p ∈ w'.submitted
  routed : ∀ p ∈ w.routed, p ∈ w'.routed

theorem More.handed (more : More w w') {f : Forward} (h : w.Handed k f) : w'.Handed k f := by
  rcases h with owner | ⟨dgram, router⟩
  · exact .inl (more.submitted _ owner)
  · exact .inr ⟨dgram, more.routed _ router⟩

theorem More.carried (more : More w w') {original dgram : InternetDatagram} {routers : List κ}
    (h : Carried w original routers dgram) : Carried w' original routers dgram := by
  induction h with
  | submitted logged is => exact .submitted (more.submitted _ logged) is
  | forwarded _ copy logged ih => exact .forwarded ih copy (more.routed _ logged)

theorem Came.mono (more : More w w') {dgram : InternetDatagram} (h : Came first w k n dgram) : Came first w' k n dgram := by
  obtain ⟨k', f, j, handed, place, own, copy⟩ := h
  exact ⟨k', f, j, more.handed handed, place, own, copy⟩

theorem Keeps.mono (more : More w w') (h : Keeps first w k n i) : Keeps first w' k n i :=
  ⟨h.place, h.truthful.mono fun _ _ given => more.handed given⟩

/-- One more datagram is handed to an interface. -/
theorem Keeps.give (h : Keeps first w k n i) {f : Forward} (here : f.interfaceNum = n) (given : w.Handed k f) :
    Keeps first w k n (Router.give i f) := by
  subst here
  obtain ⟨ip, eth⟩ := i.toNetworkInterface.sendDatagram_addresses f.dgram f.nextHop
  obtain ⟨j, place, sameIp, sameEth⟩ := h.place
  exact ⟨⟨j, place, ip.trans sameIp, eth.trans sameEth⟩, h.truthful.sendDatagram given⟩

/-- Its share of a list. -/
theorem Keeps.share (h : Keeps first w k n i) {fs : List Forward} (given : ∀ f ∈ fs, w.Handed k f) :
    Keeps first w k n (Router.share fs n i) := by
  rw [Router.share]
  have all : ∀ f ∈ fs.filter fun f => f.interfaceNum = n, f.interfaceNum = n ∧ w.Handed k f := by
    intro f member
    obtain ⟨there, here⟩ := List.mem_filter.1 member
    exact ⟨by simpa using here, given f there⟩
  generalize fs.filter _ = l at all
  induction l generalizing i with
  | nil => exact h
  | cons f rest ih =>
    rw [List.forall_mem_cons] at all
    exact ih (h.give all.1.1 all.1.2) all.2

theorem Keeps.queue (h : Keeps first w k n i) (q : List InternetDatagram) : Keeps first w k n { i with datagramsOut := q } :=
  ⟨h.place, h.truthful⟩

/-- A frame arrives that some interface has put out. -/
theorem Keeps.recvFrame (h : Keeps first w k n i) (all : first.Keeping w) {k' : κ} {n' : Nat} {j : AsyncNetworkInterface}
    (there : w.at? k' n' = some j) {sent : EthernetFrame} (out : sent ∈ j.framesOut) :
    Keeps first w k n (i.recvFrame sent.received).left := by
  have honest := (all k' n' j there).truthful.frames sent out
  obtain ⟨ip, eth⟩ := i.toNetworkInterface.recvFrame_addresses sent.received
  obtain ⟨place, atPlace, sameIp, sameEth⟩ := h.place
  exact ⟨⟨place, atPlace, ip.trans sameIp, eth.trans sameEth⟩, h.truthful.recvFrame fun arpm accepted => honest.own accepted⟩

/-- An interface that has not been used. -/
structure Unused (i : AsyncNetworkInterface) : Prop where
  arpTable : i.arpTable = fun _ => none
  sentDgram : i.sentDgram = fun _ => []
  framesOut : i.framesOut = []
  datagramsOut : i.datagramsOut = []

/-- The network as it is set up: nothing has been sent. -/
structure SetUp (w : Internet κ) : Prop where
  interfaces : ∀ k n i, w.at? k n = some i → Unused i
  submitted : w.submitted = []
  routed : w.routed = []

theorem SetUp.keeping (h : SetUp first) : first.Keeping first := by
  intro k n i there
  have unused := h.interfaces k n i there
  refine ⟨⟨i, there, rfl, rfl⟩, ⟨⟨k, n, i, there, rfl, rfl⟩, fun ip address time known => ?_, ?_, ?_⟩⟩
  · rw [NetworkInterface.mapping, unused.arpTable] at known
    cases known
  · rw [unused.sentDgram]
    simp
  · rw [unused.framesOut]
    simp

variable [DecidableEq κ]

theorem more_put (w : Internet κ) (k : κ) (r : Router) : More w (w.put k r) := ⟨fun _ member => member, fun _ member => member⟩

theorem more_submitted (w : Internet κ) (k : κ) (r : Router) (new : List (κ × Forward)) :
    More w { w.put k r with submitted := w.submitted ++ new } :=
  ⟨fun _ member => List.mem_append_left _ member, fun _ member => member⟩

theorem more_routed (w : Internet κ) (k : κ) (r : Router) (new : List (κ × InternetDatagram × Forward)) :
    More w { w.put k r with routed := w.routed ++ new } :=
  ⟨fun _ member => member, fun _ member => List.mem_append_left _ member⟩

/-- The events change one node, and add to the logs. -/
theorem Keeping.put (h : first.Keeping w) {r : Router} {submitted : List (κ × Forward)}
    {routed : List (κ × InternetDatagram × Forward)} (more : More w { w.put k r with submitted, routed })
    (here : ∀ n i, r.interfaces[n]? = some i → Keeps first { w.put k r with submitted, routed } k n i) :
    first.Keeping { w.put k r with submitted, routed } := by
  intro k' n i there
  have there : (Function.update w.node k r k').interfaces[n]? = some i := there
  by_cases same : k' = k
  · subst same
    rw [Function.update_self] at there
    exact here n i there
  · rw [Function.update_of_ne same] at there
    exact (h k' n i there).mono more

/-- One interface of a node is changed. -/
theorem Keeping.set (h : first.Keeping w) {i j : AsyncNetworkInterface} (there : (w.node k).interfaces[n]? = some i)
    (keeps : Keeps first w k n j) :
    first.Keeping (w.put k { w.node k with interfaces := (w.node k).interfaces.set n j }) := by
  refine h.put (more_put w k _) fun m i' place => ?_
  by_cases here : n = m
  · subst here
    rw [List.getElem?_set_self (List.getElem?_eq_some_iff.1 there).1] at place
    cases place
    exact keeps.mono (more_put w k _)
  · rw [List.getElem?_set_ne here] at place
    exact (h k m i' place).mono (more_put w k _)

/-- **One event** keeps what holds of the interfaces, whatever is submitted and whichever call throws. -/
theorem Keeping.step (h : first.Keeping w) {e : Event κ} (stepped : w.step e = some w') : first.Keeping w' := by
  cases e with
  | submit k f =>
    cases stepped
    dsimp only
    rw [Router.sendOn_eq]
    split
    · refine h.put (more_submitted w k _ _) fun n i there => ?_
      dsimp only at there
      rw [Router.handed, List.getElem?_mapIdx] at there
      obtain ⟨i, place, rfl⟩ := Option.map_eq_some_iff.1 there
      refine Keeps.share ((h k n i place).mono (more_submitted w k _ _)) fun g member => .inl ?_
      rw [List.mem_singleton.1 member]
      exact List.mem_append_right _ List.mem_cons_self
    · exact h.put (more_submitted w k _ _) fun n i there => (h k n i there).mono (more_submitted w k _ _)
  | arrive k n k' n' m =>
    obtain ⟨j, place, stepped⟩ := Option.bind_eq_some_iff.1 stepped
    obtain ⟨sent, out, rfl⟩ := Option.map_eq_some_iff.1 stepped
    rw [Router.recvFrame]
    rcases (w.node k).onInterface_left n (·.recvFrame sent.received) with same | ⟨i, there, same⟩
    · rw [same]
      exact h.put (more_put w k _) fun m i there => (h k m i there).mono (more_put w k _)
    · rw [same]
      exact h.set there ((h k n i there).recvFrame h place (List.mem_of_getElem? out))
  | route k =>
    obtain ⟨call, routed, rfl⟩ := Option.map_eq_some_iff.1 stepped
    obtain ⟨m, q, left, -⟩ := (Router.routed_of_route routed).passed
    rw [left]
    refine h.put (more_routed w k _ _) fun n i there => ?_
    rw [Router.midway, List.getElem?_mapIdx] at there
    obtain ⟨i, place, rfl⟩ := Option.map_eq_some_iff.1 there
    refine (Keeps.share ((h k n i place).mono (more_routed w k _ _)) fun f member => .inr ?_).queue _
    obtain ⟨⟨dgram, f⟩, passed, rfl⟩ := List.mem_map.1 member
    exact ⟨dgram, List.mem_append_right _ (List.mem_map_of_mem passed)⟩
  | tick k n ms =>
    obtain ⟨r, ticked, rfl⟩ := Option.map_eq_some_iff.1 stepped
    obtain ⟨i, there, rfl⟩ := Option.map_eq_some_iff.1 ticked
    exact h.set there ⟨(h k n i there).place, (h k n i there).truthful.tick ms⟩
  | take k n =>
    obtain ⟨r, taken, rfl⟩ := Option.map_eq_some_iff.1 stepped
    obtain ⟨i, there, rfl⟩ := Option.map_eq_some_iff.1 taken
    exact h.set there ((h k n i there).queue _)

/-! ### If all that is submitted is filled in -/

omit [DecidableEq κ] in
/-- Each router on the way has taken one from the time to live. -/
theorem Carried.aged {original dgram : InternetDatagram} {routers : List κ} (h : Carried w original routers dgram)
    (logged : ∀ k dgram f, (k, dgram, f) ∈ w.routed → f.dgram = Router.aged dgram ∧ (Router.aged dgram).header.ttl ≠ 0) :
    Aged routers.length original dgram := by
  induction h with
  | submitted => exact ⟨rfl, rfl, rfl⟩
  | forwarded _ copy taken ih =>
    obtain ⟨same, living⟩ := logged _ _ _ taken
    rw [same, List.length_append]
    exact (ih.trans copy).forward living

omit [DecidableEq κ] in
theorem Carried.filled {original dgram : InternetDatagram} {routers : List κ} (h : Carried w original routers dgram)
    (filled : ∀ k f, (k, f) ∈ w.submitted → Filled f.dgram) : Filled original := by
  induction h with
  | submitted logged is => exact is ▸ filled _ _ logged
  | forwarded _ _ _ ih => exact ih

omit [DecidableEq κ] in
/-- What was handed to an interface is filled in. -/
theorem Sound.handed_filled (h : Sound first w) {f : Forward} (handed : w.Handed k f) : Filled f.dgram := by
  obtain ⟨original, routers, carried⟩ := h.carried k f handed
  exact (carried.aged h.routed).filled (carried.filled h.filled)

omit [DecidableEq κ] in
/-- What waits in a queue can be sent when it is older. -/
theorem Sound.sendable (h : Sound first w) {dgram : InternetDatagram} (waits : dgram ∈ (w.node k).queue n) :
    NetworkInterface.sendable dgram = true := by
  obtain ⟨k', f, j, handed, -, -, copy⟩ := h.came k n dgram waits
  exact (copy.filled (h.handed_filled handed)).sendable

omit [DecidableEq κ] in
theorem SetUp.sound (h : SetUp first) (wired : ∀ k, Router.Wired (first.node k)) : Sound first first := by
  refine ⟨h.keeping, wired, fun k n dgram waits => ?_, ?_, ?_, ?_⟩
  · cases there : (first.node k).interfaces[n]? with
    | none =>
      rw [Router.queue, there] at waits
      cases waits
    | some i =>
      rw [Router.queue_of_some there, (h.interfaces k n i there).datagramsOut] at waits
      cases waits
  · rw [h.submitted]
    simp
  · rw [h.routed]
    simp
  · rintro k f (owner | ⟨dgram, router⟩)
    · rw [h.submitted] at owner
      cases owner
    · rw [h.routed] at router
      cases router

omit [DecidableEq κ] in
/-- **`route` returns**: every datagram that it forwards goes to an interface that there is, and can be serialized. -/
theorem Sound.route_returns (h : Sound first w) {o : CallEnd Router} (run : (w.node k).route = some o) : o.returns = true := by
  cases Router.routed_of_route run with
  | all => rfl
  | @stuck m seen rest dgram _ f here _ _ next refused =>
    have waits : dgram ∈ (w.node k).queue m := by
      rw [here]
      simp
    obtain ⟨inside, same⟩ : f.interfaceNum < (w.node k).interfaces.length ∧ f.dgram = Router.aged dgram := by
      obtain ⟨key, number, same, -⟩ := Router.forward_eq next
      rw [number]
      exact ⟨h.wired k key, same⟩
    rw [Router.accepts, List.getElem?_eq_getElem inside, Option.any_some, same, Router.sendable_aged (h.sendable waits),
      Bool.or_true] at refused
    cases refused

/-- What an event has to keep to: it changes the node `k`, and logs what `k` was given and what it took from its queues. -/
theorem Sound.next (h : Sound first w) {r : Router} {submitted : List (κ × Forward)}
    {routed : List (κ × InternetDatagram × Forward)} (more : More w { w.put k r with submitted, routed })
    (keeps : first.Keeping { w.put k r with submitted, routed }) (wired : Router.Wired r)
    (came : ∀ n, ∀ dgram ∈ r.queue n, Came first { w.put k r with submitted, routed } k n dgram)
    (given : ∀ p ∈ submitted, p ∈ w.submitted ∨ Filled p.2.dgram)
    (passed : ∀ p ∈ routed, p ∈ w.routed ∨ ∃ q ∈ (w.node k).passed, p = (k, q)) :
    Sound first { w.put k r with submitted, routed } := by
  refine ⟨keeps, fun k' => ?_, fun k' n dgram waits => ?_, fun k' f member => ?_, fun k' dgram f member => ?_,
    fun k' f handed => ?_⟩
  · show Router.Wired (Function.update w.node k r k')
    by_cases same : k' = k
    · subst same
      rw [Function.update_self]
      exact wired
    · rw [Function.update_of_ne same]
      exact h.wired k'
  · have waits : dgram ∈ (Function.update w.node k r k').queue n := waits
    by_cases same : k' = k
    · subst same
      rw [Function.update_self] at waits
      exact came n dgram waits
    · rw [Function.update_of_ne same] at waits
      exact (h.came k' n dgram waits).mono more
  · rcases given _ member with old | new
    · exact h.filled k' f old
    · exact new
  · rcases passed _ member with old | ⟨q, new, same⟩
    · exact h.routed k' dgram f old
    · cases same
      exact (Router.mem_passed new).2
  · rcases handed with owner | ⟨dgram, router⟩
    · exact ⟨f.dgram, [], .submitted owner rfl⟩
    · rcases passed _ router with old | ⟨q, new, same⟩
      · obtain ⟨original, routers, carried⟩ := h.carried k' f (.inr ⟨dgram, old⟩)
        exact ⟨original, routers, more.carried carried⟩
      · -- it was in a queue, so some node had handed it over
        cases same
        obtain ⟨m, waits⟩ := Router.mem_queued (Router.mem_passed new).1
        obtain ⟨k'', g, -, before, -, -, copy⟩ := h.came k m dgram waits
        obtain ⟨original, routers, carried⟩ := h.carried k'' g before
        exact ⟨original, routers ++ [k], .forwarded (more.carried carried) copy router⟩

/-- One interface is changed, and nothing is added to its queue. -/
theorem Sound.set (h : Sound first w) {i j : AsyncNetworkInterface} (there : (w.node k).interfaces[n]? = some i)
    (keeps : first.Keeping (w.put k { w.node k with interfaces := (w.node k).interfaces.set n j }))
    (fewer : ∀ dgram ∈ j.datagramsOut, dgram ∈ i.datagramsOut) :
    Sound first (w.put k { w.node k with interfaces := (w.node k).interfaces.set n j }) := by
  refine h.next (more_put w k _) keeps (h.wired k).set (fun m dgram waits => ?_) (fun _ member => .inl member) fun _ member =>
    .inl member
  rw [Router.queue_set there] at waits
  refine (h.came k m dgram ?_).mono (more_put w k _)
  split at waits
  · rename_i here
    rw [← here, Router.queue_of_some there]
    exact fewer dgram waits
  · exact waits

/-- **One event** keeps all of it. -/
theorem Sound.step (h : Sound first w) {e : Event κ} (allowed : Allowed w e) (stepped : w.step e = some w') : Sound first w' := by
  have keeps := h.keeps.step stepped
  cases e with
  | submit k f =>
    cases stepped
    refine h.next (more_submitted w k _ _) keeps (h.wired k).onInterface (fun n dgram waits => ?_) (fun p member => ?_)
      fun _ member => .inl member
    · rw [Router.queue_sendOn] at waits
      exact (h.came k n dgram waits).mono (more_submitted w k _ _)
    · rcases List.mem_append.1 member with old | new
      · exact .inl old
      · refine .inr ?_
        split at new
        · rw [List.mem_singleton.1 new]
          exact allowed
        · cases new
  | arrive k n k' n' m =>
    obtain ⟨j, place, stepped⟩ := Option.bind_eq_some_iff.1 stepped
    obtain ⟨sent, out, rfl⟩ := Option.map_eq_some_iff.1 stepped
    refine h.next (more_put w k _) keeps (h.wired k).onInterface (fun n' dgram waits => ?_) (fun _ member => .inl member)
      fun _ member => .inl member
    rcases Router.mem_queue_recvFrame waits with old | ⟨rfl, i, there, returned⟩
    · exact (h.came k n' dgram old).mono (more_put w k _)
    · have honest := (h.keeps k' _ j place).truthful.frames sent (List.mem_of_getElem? out)
      obtain ⟨hop, original, given, own, copy⟩ := honest.datagram (fun hop dgram given => h.handed_filled given) returned
      obtain ⟨i', atPlace, -, address⟩ := (h.keeps k n i there).place
      exact ⟨k', _, i', given, atPlace, address ▸ own, copy⟩
  | route k =>
    obtain ⟨call, run, rfl⟩ := Option.map_eq_some_iff.1 stepped
    obtain ⟨m, q, left, done⟩ := (Router.routed_of_route run).passed
    cases done (h.route_returns run)
    refine h.next (more_routed w k _ _) keeps ?_ (fun n dgram waits => ?_) (fun _ member => .inl member) fun p member => ?_
    · rw [left]
      intro key
      rw [Router.midway, List.length_mapIdx]
      exact h.wired k key
    · rw [left, Router.midway_queue_nil] at waits
      cases waits
    · rcases List.mem_append.1 member with old | new
      · exact .inl old
      · obtain ⟨q, there, rfl⟩ := List.mem_map.1 new
        exact .inr ⟨q, there, rfl⟩
  | tick k n ms =>
    obtain ⟨r, ticked, rfl⟩ := Option.map_eq_some_iff.1 stepped
    obtain ⟨i, there, rfl⟩ := Option.map_eq_some_iff.1 ticked
    exact h.set there keeps fun _ member => member
  | take k n =>
    obtain ⟨r, taken, rfl⟩ := Option.map_eq_some_iff.1 stepped
    obtain ⟨i, there, rfl⟩ := Option.map_eq_some_iff.1 taken
    exact h.set there keeps fun _ member => List.mem_of_mem_tail member

/-- The states that the network gets to, whatever is submitted. -/
def Gets (first w : Internet κ) : Prop := Reaches step (fun _ _ => True) first w

theorem Gets.keeping (reached : Gets first w) (start : SetUp first) : first.Keeping w :=
  Reaches.invariant reached start.keeping fun _ _ _ h _ stepped => h.step stepped

/-- The states that it gets to if owners submit what they have filled in. -/
def GetsFilled (first w : Internet κ) : Prop := Reaches step Allowed first w

theorem GetsFilled.sound (reached : GetsFilled first w) (start : SetUp first) (wired : ∀ k, Router.Wired (first.node k)) : Sound first w :=
  Reaches.invariant reached (start.sound wired) fun _ _ _ h allowed stepped => h.step allowed stepped

/-- The Ethernet addresses of a network of two hosts and a router. -/
def station (last : UInt8) : EthernetAddress := ⟨[2, 0, 0, 7, 0, last], rfl⟩

/-- An interface that has just been set up. -/
def plugged (last : UInt8) (ipAddress : UInt32) : AsyncNetworkInterface := { ethernetAddress := station last, ipAddress }

/-- Its nodes. -/
inductive Node where
  | left | middle | right
  deriving DecidableEq

/-- A host in 10.0.0.0/24, a router, and a host in 10.0.1.0/24. -/
def twoHosts : Internet Node where
  node
    | .left => { interfaces := [plugged 1 0x0a000002] }
    | .middle => (Router.addRoutes { interfaces := [plugged 2 0x0a000001, plugged 3 0x0a000101] } [
        { routePrefix := 0x0a000000, prefixLength := 24, interfaceNum := 0 },
        { routePrefix := 0x0a000100, prefixLength := 24, interfaceNum := 1 }]).getD {}
    | .right => { interfaces := [plugged 4 0x0a000102] }

/-- The first host sends a datagram to the second one by the router. Each hop starts with a question and its answer. -/
def journey : List (Event Node) := [
  .submit .left ⟨0, Router.bare 0x0a000102 9, 0x0a000001⟩, .arrive .middle 0 .left 0 0, .arrive .left 0 .middle 0 0,
  .arrive .middle 0 .left 0 1, .route .middle, .arrive .right 0 .middle 1 0, .arrive .middle 1 .right 0 0,
  .arrive .right 0 .middle 1 1]

/-- All interfaces of this network. -/
def plugs : List (UInt8 × UInt32) := [(1, 0x0a000002), (2, 0x0a000001), (3, 0x0a000101), (4, 0x0a000102)]

theorem twoHosts_plugged {k : Node} {n : Nat} {i : AsyncNetworkInterface} (there : twoHosts.at? k n = some i) :
    ∃ p ∈ plugs, i = plugged p.1 p.2 := by
  have member : i ∈ (twoHosts.node k).interfaces := List.mem_of_getElem? there
  cases k with
  | left => exact ⟨(1, 0x0a000002), by decide, List.mem_singleton.1 member⟩
  | middle =>
    have both : (twoHosts.node .middle).interfaces = [plugged 2 0x0a000001, plugged 3 0x0a000101] := by rfl
    rw [both] at member
    rcases List.mem_cons.1 member with first | second
    · exact ⟨(2, 0x0a000001), by decide, first⟩
    · exact ⟨(3, 0x0a000101), by decide, List.mem_singleton.1 second⟩
  | right => exact ⟨(4, 0x0a000102), by decide, List.mem_singleton.1 member⟩

theorem twoHosts_setUp : SetUp twoHosts := by
  refine ⟨fun k n i there => ?_, rfl, rfl⟩
  obtain ⟨p, -, rfl⟩ := twoHosts_plugged there
  exact ⟨rfl, rfl, rfl, rfl⟩

/-- **ARP tells the truth.** In any network of routers and hosts, after any run, whatever is submitted and whichever calls
throw, every mapping that an interface has is that of some interface of the network; and an IPv4 frame that an interface has
put out carries a datagram that was handed to this interface, by its owner or by `route`, to an interface that has the
address of the next hop it was handed over for. -/
theorem arp_truthful (start : SetUp first) (reached : Gets first w) {i : AsyncNetworkInterface} (there : w.at? k n = some i) :
    (∀ ip address time, i.toNetworkInterface.mapping ip = some (address, time) → Owns first ip address) ∧
      ∀ frame ∈ i.framesOut, frame.header.type = EthernetHeader.typeIPv4 → ∃ dgram hop,
        w.Handed k ⟨n, dgram, hop⟩ ∧ dgram.serialize = some frame.payload ∧ Owns first hop frame.header.dst := by
  have keeps := reached.keeping start k n i there
  refine ⟨keeps.truthful.mapping, fun frame out type => ?_⟩
  cases keeps.truthful.frames frame out with
  | @ipv4 _ hop dgram given written own => exact ⟨dgram, hop, given, written, own⟩
  | arp other =>
    rw [type] at other
    cases other

/-- The router has asked for the second host, and sent it the datagram. -/
theorem arp_truthful_journey :
    ∃ w i, Gets twoHosts w ∧ w.at? .middle 1 = some i ∧
      (∃ address time, i.toNetworkInterface.mapping 0x0a000102 = some (address, time) ∧ Owns twoHosts 0x0a000102 address) ∧
      ∃ frame ∈ i.framesOut, ∃ dgram hop, w.Handed .middle ⟨1, dgram, hop⟩ ∧ Owns twoHosts hop frame.header.dst := by
  obtain ⟨w, run, seen⟩ := Option.bind_eq_some_iff.1
    (show ((follow step (fun _ _ => True) twoHosts journey).bind fun w => (w.at? .middle 1).bind fun i =>
        (i.toNetworkInterface.mapping 0x0a000102).bind fun known => i.framesOut[1]?.map fun frame =>
          (known.1, frame.header.type)) = some (station 4, EthernetHeader.typeIPv4) by decide +kernel)
  obtain ⟨i, there, seen⟩ := Option.bind_eq_some_iff.1 seen
  obtain ⟨⟨address, time⟩, known, seen⟩ := Option.bind_eq_some_iff.1 seen
  obtain ⟨frame, out, seen⟩ := Option.map_eq_some_iff.1 seen
  have reached : Gets twoHosts w := Reaches.follow .start run
  obtain ⟨mappings, frames⟩ := arp_truthful twoHosts_setUp reached there
  have member := List.mem_of_getElem? out
  obtain ⟨dgram, hop, given, -, own⟩ := frames frame member (congrArg Prod.snd seen)
  exact ⟨w, i, reached, there, ⟨address, time, known, mappings _ _ _ known⟩, frame, member, dgram, hop, given, own⟩

theorem twoHosts_wired (k : Node) : Router.Wired (twoHosts.node k) := by
  cases k with
  | left => exact fun _ => Nat.one_pos
  | right => exact fun _ => Nat.one_pos
  | middle =>
    intro key
    have values : (twoHosts.node .middle).table.value = Function.update (Function.update (fun _ => {}) ⟨0x0a000000, 0x0a0000ff⟩
        ⟨0, 0, 24⟩) ⟨0x0a000100, 0x0a0001ff⟩ ⟨1, 0, 24⟩ := by rfl
    rw [values, show (twoHosts.node .middle).interfaces.length = 2 by rfl, Function.update_apply, Function.update_apply]
    split
    · decide
    · split <;> decide

/-- **Datagrams are carried.** In any network whose interfaces have Ethernet addresses of their own and whose routes are for
interfaces that there are, after any run in which owners submit datagrams that they have filled in, a datagram in the queue
of an interface was handed to some interface for the IP address of this one. It is a datagram that an owner has submitted and
that the routers of a list have taken from a queue and handed on, one after the other, with its header and payload, except
that its time to live is less by the number of these routers. It can be sent on. -/
theorem received_aged (start : SetUp first) (wired : ∀ k, Router.Wired (first.node k))
    (distinct : ∀ k n i k' n' j, first.at? k n = some i → first.at? k' n' = some j → i.ethernetAddress = j.ethernetAddress →
      i.ipAddress = j.ipAddress)
    (reached : GetsFilled first w) {i : AsyncNetworkInterface} (there : w.at? k n = some i) {dgram : InternetDatagram}
    (received : dgram ∈ i.datagramsOut) :
    ∃ k' f original routers, w.Handed k' f ∧ f.nextHop = i.ipAddress ∧ Carried w original routers f.dgram ∧
      Aged 0 f.dgram dgram ∧ Aged routers.length original dgram ∧ NetworkInterface.sendable dgram = true := by
  have sound := reached.sound start wired
  have waits : dgram ∈ (w.node k).queue n := by rwa [Router.queue_of_some there]
  obtain ⟨k', f, j, handed, place, ⟨k'', m, i', place', ip, address⟩, copy⟩ := sound.came k n dgram waits
  obtain ⟨original, routers, carried⟩ := sound.carried k' f handed
  obtain ⟨mine, atPlace, sameIp, -⟩ := (sound.keeps k n i there).place
  cases place.symm.trans atPlace
  refine ⟨k', f, original, routers, handed, ?_, carried, copy, (carried.aged sound.routed).trans copy, sound.sendable waits⟩
  rw [← ip, sameIp]
  exact distinct k'' m i' k n j place' place address

/-- What the second host gets has passed one router. -/
theorem received_aged_journey :
    ∃ w i dgram, GetsFilled twoHosts w ∧ w.at? .right 0 = some i ∧ dgram ∈ i.datagramsOut ∧ dgram.header.ttl = 8 ∧
      ∃ k f original routers, w.Handed k f ∧ f.nextHop = i.ipAddress ∧ Carried w original routers f.dgram ∧
        Aged routers.length original dgram := by
  obtain ⟨w, run, seen⟩ := Option.bind_eq_some_iff.1
    (show ((follow step Allowed twoHosts journey).bind fun w => (w.at? .right 0).bind fun i =>
        i.datagramsOut[0]?.map (·.header.ttl)) = some 8 by decide +kernel)
  obtain ⟨i, there, seen⟩ := Option.bind_eq_some_iff.1 seen
  obtain ⟨dgram, out, ttl⟩ := Option.map_eq_some_iff.1 seen
  have reached : GetsFilled twoHosts w := Reaches.follow .start run
  have member := List.mem_of_getElem? out
  have apart : plugs.all fun p => plugs.all fun q => !decide (station p.1 = station q.1) || decide (p.2 = q.2) := by
    decide +kernel
  obtain ⟨k, f, original, routers, handed, hop, carried, -, older, -⟩ := received_aged twoHosts_setUp twoHosts_wired
    (by
      intro k n i k' n' j here elsewhere same
      obtain ⟨p, mine, rfl⟩ := twoHosts_plugged here
      obtain ⟨q, other, rfl⟩ := twoHosts_plugged elsewhere
      have pair := List.all_eq_true.1 (List.all_eq_true.1 apart p mine) q other
      rw [show station p.1 = station q.1 from same] at pair
      exact show p.2 = q.2 by simpa using pair)
    reached there member
  exact ⟨w, i, dgram, reached, there, member, ttl, k, f, original, routers, handed, hop, carried, older⟩

end Internet

end Sponge
