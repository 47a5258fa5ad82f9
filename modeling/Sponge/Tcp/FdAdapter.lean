import Sponge.Logic.Reach
import Sponge.Tcp.Outgoing
import Sponge.Tcp.TCPOverIPv4
import Sponge.Util.FileDescriptor

/-!
# Adapters (`tcp_helpers/fd_adapter.{hh,cc}`, `tcp_helpers/lossy_fd_adapter.hh`)

An adapter reads and writes segments on a datagram device. `TCPSpongeSocket` is a
template over it, so what it calls is a class here (`FdAdapter`), with one
instance for each adapter. What the system calls of a call return is its
argument. A call that throws is `none`.

An adapter fills in the ports and the checksum of a segment and leaves the rest
(`TCPSegment.content`). It is honest if whatever it puts on its device is read,
by any adapter of its kind and in any state, as a segment that it was given or
not at all (`Honest`).
-/

namespace Sponge

/-- The segment without what an adapter fills in: the ports and the checksum. -/
def TCPSegment.content (seg : TCPSegment) : TCPSegment :=
  { seg with header := { seg.header with sport := 0, dport := 0, cksum := 0 } }

/-- `FdAdapterConfig`, with the loss rates. -/
structure FdAdapterSettings extends FdAdapterConfig where
  lossRateDn : UInt16 := 0
  lossRateUp : UInt16 := 0
  deriving DecidableEq

/-- What `sendmsg` or `writev` returns for each of the datagrams that a call sends: for the datagram with this number, of so
many bytes. -/
abbrev Sends := Nat → Nat → Option Nat

/-- Every datagram is taken. -/
def Sends.Whole (sends : Sends) : Prop := ∀ j n, sends j n = some n

/-- A device that takes every datagram. -/
def Sends.all : Sends := fun _ n => some n

theorem Sends.all_whole : Sends.all.Whole := fun _ _ => rfl

/-- What `TCPSpongeSocket` calls on its adapter. `ι` is what the system calls of `read` return. -/
class FdAdapter (α : Type) (ι : outParam Type) where
  fd : α → FDWrapper
  read : α → ι → Option (α × Option TCPSegment)
  write : α → TCPSegment → Sends → Option α
  tick : α → Nat → Sends → Option α
  setConfig : α → FdAdapterSettings → α
  setListening : α → Bool → α

/-- An adapter on a network of datagrams `δ`. `out` is what it has sent, and `Arrives d i` says that `i` is what a `read`
is given when the datagram `d` arrives. `Holds S a` says that what `a` has sent, or has still to send, are segments of `S`
and what the adapter itself has to say. -/
class Honest (α : Type) (ι δ : outParam Type) [FdAdapter α ι] where
  out : α → List δ
  Arrives : δ → ι → Prop
  Holds : (TCPSegment → Prop) → α → Prop
  mono : ∀ {S S' : TCPSegment → Prop} {a : α}, (∀ seg, S seg → S' seg) → Holds S a → Holds S' a
  read : ∀ {S : TCPSegment → Prop} {a a' : α} {i : ι} {got : Option TCPSegment}, Holds S a →
    FdAdapter.read a i = some (a', got) → Holds S a'
  write : ∀ {S : TCPSegment → Prop} {a a' : α} {seg : TCPSegment} {sends : Sends}, Holds S a → S seg → seg.Fits →
    FdAdapter.write a seg sends = some a' → Holds S a'
  tick : ∀ {S : TCPSegment → Prop} {a a' : α} {ms : Nat} {sends : Sends}, Holds S a →
    FdAdapter.tick a ms sends = some a' → Holds S a'
  setConfig : ∀ {S : TCPSegment → Prop} {a : α} (cfg : FdAdapterSettings), Holds S a → Holds S (FdAdapter.setConfig a cfg)
  setListening : ∀ {S : TCPSegment → Prop} {a : α} (l : Bool), Holds S a → Holds S (FdAdapter.setListening a l)
  carried : ∀ {S : TCPSegment → Prop} {a b b' : α} {d : δ} {i : ι} {seg : TCPSegment}, Holds S a → d ∈ out a →
    Arrives d i → FdAdapter.read b i = some (b', some seg) → ∃ sent, S sent ∧ seg.content = sent.content

/-- A call of the socket on its adapter, with what its system calls return. -/
inductive AdapterOp (ι : Type) where
  | read (input : ι)
  | write (seg : TCPSegment) (sends : Sends)
  | tick (ms : Nat) (sends : Sends)

namespace FdAdapter

variable {α ι : Type} [FdAdapter α ι]

/-- A call, and the segment that it returns if it is a `read` that returns one. -/
def perform (a : α) : AdapterOp ι → Option (α × Option TCPSegment)
  | .read i => read a i
  | .write seg sends => (write a seg sends).map fun a => (a, none)
  | .tick ms sends => (tick a ms sends).map fun a => (a, none)

/-- A run of calls, and the segments that they return. -/
def run (a : α) : List (AdapterOp ι) → Option (α × List TCPSegment)
  | [] => some (a, [])
  | op :: rest => (perform a op).bind fun (a, got) => (run a rest).map fun (a, more) => (a, got.toList ++ more)

end FdAdapter

/-! ### TCP in IPv4 -/

namespace TCPOverIPv4Adapter

/-- The connection that a segment in a datagram belongs to, as its receiver writes it down. -/
def connectionOf (ipDgram : InternetDatagram) (seg : TCPSegment) : FdAdapterConfig where
  source := ⟨ipDgram.header.dst, seg.header.dport⟩
  destination := ⟨ipDgram.header.src, seg.header.sport⟩

/-- The connection that a segment in a datagram belongs to, as its sender writes it down. -/
def connectionTo (ipDgram : InternetDatagram) (seg : TCPSegment) : FdAdapterConfig where
  source := ⟨ipDgram.header.src, seg.header.sport⟩
  destination := ⟨ipDgram.header.dst, seg.header.dport⟩

/-- What is seen of an adapter: a segment that it unwraps or wraps, with its connection. -/
inductive Event where
  | unwrapped (connection : FdAdapterConfig) (seg : TCPSegment)
  | wrapped (connection : FdAdapterConfig)
  deriving DecidableEq

/-- An adapter and what was seen of it. -/
structure Observed where
  adapter : TCPOverIPv4Adapter
  log : List Event := []
  deriving DecidableEq

/-- A call of `unwrap_tcp_in_ip` or of `wrap_tcp_in_ip`. -/
inductive Call where
  | unwrap (ipDgram : InternetDatagram)
  | wrap (seg : TCPSegment)

/-- A call, with what is seen of it. -/
def Observed.step (o : Observed) : Call → Option Observed
  | .unwrap ipDgram => (o.adapter.unwrapTcpInIp ipDgram).map fun r =>
    ⟨r.1, o.log ++ r.2.toList.map fun seg => .unwrapped (connectionOf ipDgram seg) seg⟩
  | .wrap seg => (o.adapter.wrapTcpInIp seg).map fun r => ⟨o.adapter, o.log ++ [.wrapped (connectionTo r.2 r.1)]⟩

/-- The event belongs to the connection. -/
def Event.Of (connection : FdAdapterConfig) : Event → Prop
  | .unwrapped c _ => c = connection
  | .wrapped c => c = connection

/-- Nothing is unwrapped. -/
def Event.isWrapped : Event → Prop
  | .unwrapped _ _ => False
  | .wrapped _ => True

/-- The SYN that opens a connection, to the port the adapter listens on. -/
def Event.Syn (port : UInt16) (connection : FdAdapterConfig) : Event → Prop
  | .unwrapped c seg => c = connection ∧ c.source.port = port ∧ seg.header.syn = true ∧ seg.header.rst = false
  | .wrapped _ => False

/-- The connection of an adapter that has one. -/
def connection (a : TCPOverIPv4Adapter) : Option FdAdapterConfig := if a.listening then none else some a.config

theorem connection_eq_some {a : TCPOverIPv4Adapter} {c : FdAdapterConfig} :
    a.connection = some c ↔ a.listening = false ∧ a.config = c := by
  unfold connection
  cases a.listening <;> simp

theorem connection_eq_none {a : TCPOverIPv4Adapter} : a.connection = none ↔ a.listening = true := by
  unfold connection
  cases a.listening <;> simp

/-- An accepted segment belongs to the adapter's connection. -/
theorem Accepts.connectionOf {a : TCPOverIPv4Adapter} {ipDgram : InternetDatagram} {seg : TCPSegment}
    (accepts : a.Accepts ipDgram seg) : connectionOf ipDgram seg = a.config := by
  rw [TCPOverIPv4Adapter.connectionOf, accepts.dst, accepts.src, accepts.dport, accepts.sport]

theorem fromPeer_keeps (a : TCPOverIPv4Adapter) (seg : TCPSegment) : (a.fromPeer seg).1 = a := by
  unfold fromPeer
  split <;> rfl

/-- A call that returns nothing leaves the adapter. A SYN that opens a connection is from its own port, so it is
returned. -/
theorem unwrap_nothing {a a' : TCPOverIPv4Adapter} {ipDgram : InternetDatagram}
    (run : a.unwrapTcpInIp ipDgram = some (a', none)) : a' = a := by
  have same : ∀ {c : TCPOverIPv4Adapter}, some (c, (none : Option TCPSegment)) = some (a', none) → a' = c := fun is =>
    (Prod.mk.inj (Option.some.inj is)).1.symm
  unfold unwrapTcpInIp at run
  split at run
  · exact same run
  split at run
  · exact same run
  split at run
  · exact same run
  obtain ⟨payload, -, run⟩ := Option.bind_eq_some_iff.1 run
  obtain ⟨⟨tcpSeg, result⟩, -, run⟩ := Option.bind_eq_some_iff.1 run
  dsimp only at run
  split at run
  · exact same run
  split at run
  · exact same run
  split at run
  · split at run
    · rw [fromPeer, if_neg (not_not_intro rfl)] at run
      cases run
    · exact same run
  · have kept := fromPeer_keeps a tcpSeg
    rw [Option.some.inj run] at kept
    exact kept

theorem unwrap_port {a a' : TCPOverIPv4Adapter} {ipDgram : InternetDatagram} {seg : TCPSegment}
    (run : a.unwrapTcpInIp ipDgram = some (a', some seg)) : seg.header.dport = a.config.source.port := by
  unfold unwrapTcpInIp at run
  split at run
  · simp at run
  split at run
  · simp at run
  split at run
  · simp at run
  obtain ⟨payload, -, run⟩ := Option.bind_eq_some_iff.1 run
  obtain ⟨⟨tcpSeg, result⟩, -, run⟩ := Option.bind_eq_some_iff.1 run
  dsimp only at run
  split at run
  · simp at run
  split at run
  · simp at run
  rename_i dport
  have same : ∀ {b : TCPOverIPv4Adapter}, b.fromPeer tcpSeg = (a', some seg) → seg = tcpSeg := fun is => (fromPeer_some is).2.1
  split at run
  · split at run
    · rw [same (Option.some.inj run)]
      exact not_not.1 dport
    · simp at run
  · rw [same (Option.some.inj run)]
    exact not_not.1 dport

/-- What is wrapped goes to the peer of the configuration. -/
theorem wrap_connection {a : TCPOverIPv4Adapter} {seg wrapped : TCPSegment} {ipDgram : InternetDatagram}
    (run : a.wrapTcpInIp seg = some (wrapped, ipDgram)) : connectionTo ipDgram wrapped = a.config := by
  obtain ⟨payload, -, same⟩ := Option.bind_eq_some_iff.1 run
  obtain ⟨rfl, rfl⟩ := Prod.mk.inj (Option.some.inj same)
  rfl

/-- The adapter is as it was as long as it listens. -/
theorem listening_keeps {a : TCPOverIPv4Adapter} {o : Observed}
    (reached : Reaches Observed.step (fun _ _ => True) ⟨a, []⟩ o) (listens : o.adapter.listening = true) :
    o.adapter = a := by
  revert listens
  refine reached.invariant ?_ fun o op o' (inv : o.adapter.listening = true → o.adapter = a) _ run => ?_
  · exact fun _ => rfl
  cases op with
  | unwrap ipDgram =>
    obtain ⟨⟨a', got⟩, unwrapped, rfl⟩ := Option.map_eq_some_iff.1 run
    cases got with
    | none =>
      rw [unwrap_nothing unwrapped]
      exact inv
    | some seg =>
      intro listens
      rw [(unwrap_accepts unwrapped).1] at listens
      cases listens
  | wrap seg =>
    obtain ⟨r, -, rfl⟩ := Option.map_eq_some_iff.1 run
    exact inv

/-- **A listening adapter takes one connection.** Whatever datagrams arrive, it unwraps nothing until the first SYN, that
is no RST, to its port. The addresses and the ports of that SYN are its connection from then on: every segment unwrapped,
and every segment wrapped, is of that connection. -/
theorem ipv4_single_connection (a : TCPOverIPv4Adapter) (listening : a.listening = true) {o : Observed}
    (reached : Reaches Observed.step (fun _ _ => True) ⟨a, []⟩ o) :
    (o.adapter = a ∧ ∀ e ∈ o.log, e.isWrapped) ∨
      ∃ c before e after, o.adapter = ⟨c, false⟩ ∧ o.log = before ++ e :: after ∧ (∀ e ∈ before, e.isWrapped) ∧
        e.Syn a.config.source.port c ∧ ∀ e ∈ after, e.Of c := by
  have binds := reached.binds_once Observed.log (fun o => o.adapter.connection) Event.isWrapped
    (Event.Syn a.config.source.port) Event.Of rfl (connection_eq_none.2 listening) ?_ ?_
  · rcases binds with ⟨free, events⟩ | ⟨c, before, e, after, bound, shape, free, opens, belongs⟩
    · exact Or.inl ⟨listening_keeps reached (connection_eq_none.1 free), events⟩
    · obtain ⟨connected, config⟩ := connection_eq_some.1 bound
      refine Or.inr ⟨c, before, e, after, ?_, shape, free, opens, belongs⟩
      rw [← config, ← connected]
  · intro o call o' before free _ run
    have listens := connection_eq_none.1 free
    cases call with
    | unwrap ipDgram =>
      obtain ⟨⟨a', got⟩, unwrapped, rfl⟩ := Option.map_eq_some_iff.1 run
      cases got with
      | none => exact Or.inl ⟨by rw [unwrap_nothing unwrapped]; exact free, [], rfl, by simp⟩
      | some seg =>
        obtain ⟨connected, accepts, -, syn⟩ := unwrap_accepts unwrapped
        have port := unwrap_port unwrapped
        rw [listening_keeps before listens] at port
        exact Or.inr ⟨a'.config, _, connection_eq_some.2 ⟨connected, rfl⟩, rfl, accepts.connectionOf, port, syn listens⟩
    | wrap seg =>
      obtain ⟨r, -, rfl⟩ := Option.map_eq_some_iff.1 run
      exact Or.inl ⟨free, _, rfl, List.forall_mem_singleton.2 trivial⟩
  · intro o call o' c bound _ run
    obtain ⟨connected, config⟩ := connection_eq_some.1 bound
    cases call with
    | unwrap ipDgram =>
      obtain ⟨⟨a', got⟩, unwrapped, rfl⟩ := Option.map_eq_some_iff.1 run
      cases got with
      | none => exact ⟨by rw [unwrap_nothing unwrapped]; exact bound, [], rfl, by simp⟩
      | some seg =>
        obtain ⟨-, accepts, same, -⟩ := unwrap_accepts unwrapped
        cases same connected
        exact ⟨bound, _, rfl, List.forall_mem_singleton.2 (accepts.connectionOf.trans config)⟩
    | wrap seg =>
      obtain ⟨⟨wrapped, ipDgram⟩, made, rfl⟩ := Option.map_eq_some_iff.1 run
      exact ⟨bound, _, rfl, List.forall_mem_singleton.2 ((wrap_connection made).trans config)⟩

/-- The datagram of a segment between two adapters, as it is read. -/
def sentBy (a : TCPOverIPv4Adapter) (seg : TCPSegment) : InternetDatagram :=
  ((a.wrapTcpInIp seg).map fun r => { r.2 with payload := .ofString r.2.payload.concatenate }).getD {}

/-- A SYN to another port is not for the adapter, a SYN to its port is, and then one from elsewhere is not. -/
theorem ipv4_single_connection_syn :
    ∃ o, follow Observed.step (fun _ _ => True) ⟨⟨⟨⟨0, 80⟩, ⟨0, 0⟩⟩, true⟩, []⟩
        [.unwrap (sentBy ⟨⟨⟨7, 1000⟩, ⟨9, 81⟩⟩, false⟩ { header := { syn := true } }),
          .unwrap (sentBy ⟨⟨⟨7, 1000⟩, ⟨9, 80⟩⟩, false⟩ { header := { syn := true } }), .wrap {},
          .unwrap (sentBy ⟨⟨⟨8, 1000⟩, ⟨9, 80⟩⟩, false⟩ { header := { syn := true } })] = some o ∧
      o.adapter = ⟨⟨⟨9, 80⟩, ⟨7, 1000⟩⟩, false⟩ ∧ o.log.length = 2 ∧
      ∃ c before e after, o.adapter = ⟨c, false⟩ ∧ o.log = before ++ e :: after ∧ (∀ e ∈ before, e.isWrapped) ∧
        e.Syn 80 c ∧ ∀ e ∈ after, e.Of c := by
  obtain ⟨o, run, seen⟩ := Option.map_eq_some_iff.1
    (show (follow Observed.step (fun _ _ => True) ⟨⟨⟨⟨0, 80⟩, ⟨0, 0⟩⟩, true⟩, []⟩
        [.unwrap (sentBy ⟨⟨⟨7, 1000⟩, ⟨9, 81⟩⟩, false⟩ { header := { syn := true } }),
          .unwrap (sentBy ⟨⟨⟨7, 1000⟩, ⟨9, 80⟩⟩, false⟩ { header := { syn := true } }), .wrap {},
          .unwrap (sentBy ⟨⟨⟨8, 1000⟩, ⟨9, 80⟩⟩, false⟩ { header := { syn := true } })]).map
      (fun o => (o.adapter, o.log.length)) = some (⟨⟨⟨9, 80⟩, ⟨7, 1000⟩⟩, false⟩, 2) by decide +kernel)
  obtain ⟨adapter, count⟩ := Prod.mk.inj seen
  refine ⟨o, run, adapter, count, ?_⟩
  rcases ipv4_single_connection _ rfl (Reaches.start.follow run) with ⟨same, -⟩ | connected
  · rw [same] at adapter
    cases adapter
  · exact connected

end TCPOverIPv4Adapter

/-! ### TCP in UDP -/

/-- `UDPSocket::received_datagram`. -/
structure ReceivedDatagram where
  sourceAddress : Address
  payload : List UInt8
  deriving DecidableEq

/-- `TCPOverUDPSocketAdapter`: the fields of `FdAdapterBase`, the socket, and the datagrams that went out of it, each with
its destination. -/
structure TCPOverUDPSocketAdapter where
  config : FdAdapterConfig := {}
  listening : Bool := false
  sock : FDWrapper := {}
  sent : List (Address × List UInt8) := []
  deriving DecidableEq

namespace TCPOverUDPSocketAdapter

/-- The `mtu` of `UDPSocket::recv`. -/
def mtu : Nat := 65536

/-- `read` after `recv`. -/
def accept (a : TCPOverUDPSocketAdapter) (datagram : ReceivedDatagram) :
    Option (TCPOverUDPSocketAdapter × Option TCPSegment) :=
  if !a.listening ∧ datagram.sourceAddress ≠ a.config.destination then some (a, none)
  else do
    let (seg, result) ← TCPSegment.parse {} datagram.payload 0
    if result ≠ .noError then some (a, none)
    else if a.listening then
      if seg.header.syn ∧ !seg.header.rst then
        some ({ a with config := { a.config with destination := datagram.sourceAddress }, listening := false }, some seg)
      else some (a, none)
    else some (a, some seg)

/-- `read`, in which `recvfrom` returns `result`. -/
def read (a : TCPOverUDPSocketAdapter) (result : Option ReceivedDatagram) :
    Option (TCPOverUDPSocketAdapter × Option TCPSegment) :=
  result.bind fun datagram =>
    if datagram.payload.length > mtu then none
    else accept { a with sock := a.sock.registerRead } datagram

/-- The segment with its port numbers. -/
def addressed (a : TCPOverUDPSocketAdapter) (seg : TCPSegment) : TCPSegment :=
  { seg with header := { seg.header with sport := a.config.source.port, dport := a.config.destination.port } }

/-- `UDPSocket::sendto`, in which `sendmsg` returns `result`. It throws on an error, and where not all was sent. -/
def sendTo (a : TCPOverUDPSocketAdapter) (destination : Address) (payload : List UInt8) (result : Option Nat) :
    Option TCPOverUDPSocketAdapter :=
  result.bind fun bytesSent =>
    if bytesSent ≠ payload.length then none
    else some { a with sock := a.sock.registerWrite, sent := a.sent ++ [(destination, payload)] }

/-- `write`. -/
def write (a : TCPOverUDPSocketAdapter) (seg : TCPSegment) (sends : Sends) : Option TCPOverUDPSocketAdapter :=
  ((a.addressed seg).serialize 0).bind fun payload =>
    a.sendTo a.config.destination payload.concatenate (sends 0 payload.concatenate.length)

instance : FdAdapter TCPOverUDPSocketAdapter (Option ReceivedDatagram) where
  fd := sock
  read := read
  write := write
  tick a _ _ := some a
  setConfig a cfg := { a with config := cfg.toFdAdapterConfig }
  setListening a l := { a with listening := l }

/-- What a segment that fits is read back as. -/
theorem parse_addressed (a : TCPOverUDPSocketAdapter) {seg : TCPSegment} (fits : seg.Fits) :
    ∃ out got, (a.addressed seg).serialize 0 = some out ∧ TCPSegment.parse {} out.concatenate 0 = some (got, .noError) ∧
      got.content = seg.content := by
  obtain ⟨doff, small⟩ := fits
  have limit : TCPConfig.maxPayloadSize = 1000 := rfl
  have least : 5 ≤ (a.addressed seg).header.doff := by
    show 5 ≤ seg.header.doff
    rw [doff]
    decide
  have most : (a.addressed seg).header.doff ≤ 15 := by
    show seg.header.doff ≤ 15
    rw [doff]
    decide
  have size : 4 * (a.addressed seg).header.doff.toNat + (a.addressed seg).payload.length ≤ 65535 := by
    show 4 * seg.header.doff.toNat + seg.payload.length ≤ 65535
    rw [doff]
    show 4 * 5 + _ ≤ _
    omega
  obtain ⟨cksum, out, run, -, back⟩ := (a.addressed seg).parse_serialized least most size (.inl rfl)
  exact ⟨out, _, run, back {}, rfl⟩

/-- What `read` can do: it keeps what was sent, and a segment that it returns was parsed from the payload. -/
theorem read_cases {a a' : TCPOverUDPSocketAdapter} {result : Option ReceivedDatagram} {got : Option TCPSegment}
    (run : a.read result = some (a', got)) :
    ∃ datagram, result = some datagram ∧ a'.sent = a.sent ∧ a'.sock = a.sock.registerRead ∧
      a'.config.source = a.config.source ∧
      ((got = none ∧ a'.config = a.config ∧ a'.listening = a.listening) ∨
        ∃ seg, got = some seg ∧ TCPSegment.parse {} datagram.payload 0 = some (seg, .noError) ∧
          a'.listening = false ∧ a'.config.destination = datagram.sourceAddress ∧
          (a.listening = false → a'.config = a.config) ∧
          (a.listening = true → seg.header.syn = true ∧ seg.header.rst = false)) := by
  obtain ⟨datagram, arrived, rest⟩ := Option.bind_eq_some_iff.1 run
  split at rest
  · cases rest
  have nothing : ∀ {c : TCPOverUDPSocketAdapter} {r : Option TCPSegment}, some (c, (none : Option TCPSegment)) = some (a', r) →
      a' = c ∧ r = none := fun same => by
    obtain ⟨here, there⟩ := Prod.mk.inj (Option.some.inj same)
    exact ⟨here.symm, there.symm⟩
  unfold accept at rest
  split at rest
  · obtain ⟨rfl, rfl⟩ := nothing rest
    exact ⟨datagram, arrived, rfl, rfl, rfl, .inl ⟨rfl, rfl, rfl⟩⟩
  rename_i ours
  obtain ⟨⟨seg, parsed⟩, read, rest⟩ := Option.bind_eq_some_iff.1 rest
  dsimp only at rest ours
  split at rest
  · obtain ⟨rfl, rfl⟩ := nothing rest
    exact ⟨datagram, arrived, rfl, rfl, rfl, .inl ⟨rfl, rfl, rfl⟩⟩
  rename_i fine
  rw [not_not.1 fine] at read
  split at rest
  · rename_i listening
    split at rest
    · rename_i syn
      obtain ⟨rfl, rfl⟩ := Prod.mk.inj (Option.some.inj rest)
      refine ⟨datagram, arrived, rfl, rfl, rfl, .inr ⟨seg, rfl, read, rfl, rfl, fun connected => ?_, fun _ => ?_⟩⟩
      · rw [connected] at listening
        cases listening
      · simpa using syn
    · obtain ⟨rfl, rfl⟩ := nothing rest
      exact ⟨datagram, arrived, rfl, rfl, rfl, .inl ⟨rfl, rfl, rfl⟩⟩
  · rename_i connected
    rw [Bool.not_eq_true] at connected
    obtain ⟨rfl, rfl⟩ := Prod.mk.inj (Option.some.inj rest)
    refine ⟨datagram, arrived, rfl, rfl, rfl, .inr ⟨seg, rfl, read, connected, ?_, fun _ => rfl, fun listening => ?_⟩⟩
    · rw [connected] at ours
      simpa [eq_comm] using ours
    · rw [connected] at listening
      cases listening

/-- What `write` can do: the segment goes to the destination of the configuration. -/
theorem write_cases {a a' : TCPOverUDPSocketAdapter} {seg : TCPSegment} {sends : Sends} (run : a.write seg sends = some a') :
    ∃ payload, (a.addressed seg).serialize 0 = some payload ∧ a' = { a with
      sock := a.sock.registerWrite
      sent := a.sent ++ [(a.config.destination, payload.concatenate)] } := by
  obtain ⟨payload, written, rest⟩ := Option.bind_eq_some_iff.1 run
  obtain ⟨bytesSent, -, rest⟩ := Option.bind_eq_some_iff.1 rest
  split at rest
  · cases rest
  · exact ⟨payload, written, (Option.some.inj rest).symm⟩

/-- Everything that was sent is a segment of `S`, as `parse` reads it. -/
def Holds (S : TCPSegment → Prop) (a : TCPOverUDPSocketAdapter) : Prop :=
  ∀ d ∈ a.sent, ∃ sent got, S sent ∧ TCPSegment.parse {} d.2 0 = some (got, .noError) ∧ got.content = sent.content

/-- **TCP over UDP is honest**, whichever address a datagram seems to come from. -/
instance : Honest TCPOverUDPSocketAdapter (Option ReceivedDatagram) (Address × List UInt8) where
  out := sent
  Arrives d i := ∃ source, i = some ⟨source, d.2⟩
  Holds := Holds
  mono weaker holds d member := by
    obtain ⟨sent, got, is, read, same⟩ := holds d member
    exact ⟨sent, got, weaker sent is, read, same⟩
  read holds run := by
    obtain ⟨_, -, kept, -⟩ := read_cases run
    rw [Holds, kept]
    exact holds
  write {S a a' seg sends} holds is fits run := by
    obtain ⟨payload, written, rfl⟩ := write_cases run
    obtain ⟨out, got, serialized, read, same⟩ := a.parse_addressed fits
    cases written.symm.trans serialized
    exact List.forall_mem_append.2 ⟨holds, List.forall_mem_singleton.2 ⟨seg, got, is, read, same⟩⟩
  tick holds run := by
    cases run
    exact holds
  setConfig _ holds := holds
  setListening _ holds := holds
  carried {S a b b' d i seg} holds member arrives run := by
    obtain ⟨source, rfl⟩ := arrives
    obtain ⟨sent, got, is, read, same⟩ := holds d member
    obtain ⟨datagram, arrived, -, -, -, nothing | ⟨seg', returned, read', -⟩⟩ := read_cases run
    · cases nothing.1
    · cases arrived
      cases returned
      cases read.symm.trans read'
      exact ⟨sent, is, same⟩

/-- What is seen of an adapter: a segment that it returns, with the source of its datagram, and a datagram that it sends,
with its destination. -/
inductive Event where
  | received (source : Address) (seg : TCPSegment)
  | sent (destination : Address)
  deriving DecidableEq

/-- An adapter and what was seen of it. -/
structure Observed where
  adapter : TCPOverUDPSocketAdapter
  log : List Event := []
  deriving DecidableEq

/-- A call, with what is seen of it: what `read` returns, and what has gone out of the socket. -/
def Observed.step (o : Observed) : AdapterOp (Option ReceivedDatagram) → Option Observed
  | .read i => (o.adapter.read i).map fun (a, got) =>
    ⟨a, o.log ++ (got.toList.zip (i.toList.map (·.sourceAddress))).map fun (seg, source) => .received source seg⟩
  | .write seg sends => (o.adapter.write seg sends).map fun a =>
    ⟨a, o.log ++ (a.sent.drop o.adapter.sent.length).map fun d => .sent d.1⟩
  | .tick ms sends => (FdAdapter.tick o.adapter ms sends).map fun a => { o with adapter := a }

/-- The event has to do with the peer. -/
def Event.With (peer : Address) : Event → Prop
  | .received source _ => source = peer
  | .sent destination => destination = peer

/-- Nothing is returned. -/
def Event.isSent : Event → Prop
  | .received _ _ => False
  | .sent _ => True

/-- The SYN that opens a connection. -/
def Event.Syn (peer : Address) : Event → Prop
  | .received source seg => source = peer ∧ seg.header.syn = true ∧ seg.header.rst = false
  | .sent _ => False

/-- The peer of an adapter that has one. -/
def peer (a : TCPOverUDPSocketAdapter) : Option Address := if a.listening then none else some a.config.destination

theorem peer_eq_some {a : TCPOverUDPSocketAdapter} {p : Address} :
    a.peer = some p ↔ a.listening = false ∧ a.config.destination = p := by
  unfold peer
  cases a.listening <;> simp

theorem peer_eq_none {a : TCPOverUDPSocketAdapter} : a.peer = none ↔ a.listening = true := by
  unfold peer
  cases a.listening <;> simp

/-- **A listening adapter takes one peer.** Whatever datagrams arrive, and whatever is written between, it returns nothing
until the first SYN that is no RST; that SYN's source is its peer from then on: every segment returned is from there, and
every datagram sent goes there. -/
theorem udp_single_peer (a : TCPOverUDPSocketAdapter) (listening : a.listening = true) {o : Observed}
    (reached : Reaches Observed.step (fun _ _ => True) ⟨a, []⟩ o) :
    (o.adapter.listening = true ∧ ∀ e ∈ o.log, e.isSent) ∨
      ∃ p before e after, o.adapter.listening = false ∧ o.adapter.config.destination = p ∧
        o.log = before ++ e :: after ∧ (∀ e ∈ before, e.isSent) ∧ e.Syn p ∧ ∀ e ∈ after, e.With p := by
  have binds := reached.binds_once Observed.log (fun o => o.adapter.peer) Event.isSent Event.Syn Event.With rfl (peer_eq_none.2 listening) ?_ ?_
  · rcases binds with ⟨free, events⟩ | ⟨p, before, e, after, bound, shape, free, opens, belongs⟩
    · exact Or.inl ⟨peer_eq_none.1 free, events⟩
    · obtain ⟨connected, destination⟩ := peer_eq_some.1 bound
      exact Or.inr ⟨p, before, e, after, connected, destination, shape, free, opens, belongs⟩
  · intro o op o' _ free _ run
    have listens := peer_eq_none.1 free
    cases op with
    | read i =>
      obtain ⟨⟨a', got⟩, read, rfl⟩ := Option.map_eq_some_iff.1 run
      obtain ⟨datagram, rfl, -, -, -, ⟨rfl, -, same⟩ | ⟨seg, rfl, -, connected, destination, -, syn⟩⟩ := read_cases read
      · exact Or.inl ⟨peer_eq_none.2 (same.trans listens), [], rfl, by simp⟩
      · obtain ⟨isSyn, noRst⟩ := syn listens
        exact Or.inr ⟨datagram.sourceAddress, _, peer_eq_some.2 ⟨connected, destination⟩, rfl, rfl, isSyn, noRst⟩
    | write seg sends =>
      obtain ⟨a', written, rfl⟩ := Option.map_eq_some_iff.1 run
      obtain ⟨payload, -, rfl⟩ := write_cases written
      refine Or.inl ⟨peer_eq_none.2 listens, _, rfl, ?_⟩
      rw [List.drop_left]
      exact List.forall_mem_singleton.2 trivial
    | tick ms sends =>
      cases run
      exact Or.inl ⟨free, [], (List.append_nil _).symm, by simp⟩
  · intro o op o' p bound _ run
    obtain ⟨connected, destination⟩ := peer_eq_some.1 bound
    cases op with
    | read i =>
      obtain ⟨⟨a', got⟩, read, rfl⟩ := Option.map_eq_some_iff.1 run
      obtain ⟨datagram, rfl, -, -, -, ⟨rfl, config, same⟩ | ⟨seg, rfl, -, still, source, config, -⟩⟩ := read_cases read
      · exact ⟨peer_eq_some.2 ⟨same.trans connected, by rw [config]; exact destination⟩, [], rfl, by simp⟩
      · have kept : a'.config.destination = p := by rw [config connected]; exact destination
        exact ⟨peer_eq_some.2 ⟨still, kept⟩, _, rfl, List.forall_mem_singleton.2 (source.symm.trans kept)⟩
    | write seg sends =>
      obtain ⟨a', written, rfl⟩ := Option.map_eq_some_iff.1 run
      obtain ⟨payload, -, rfl⟩ := write_cases written
      refine ⟨peer_eq_some.2 ⟨connected, destination⟩, _, rfl, ?_⟩
      rw [List.drop_left]
      exact List.forall_mem_singleton.2 destination
    | tick ms sends =>
      cases run
      exact ⟨bound, [], (List.append_nil _).symm, by simp⟩

/-- What `recvfrom` returns for a segment from `source`. -/
def arriving (source : Address) (seg : TCPSegment) : Option ReceivedDatagram :=
  (seg.serialize 0).map fun payload => ⟨source, payload.concatenate⟩

/-- Data from one place is not returned, a SYN from another is, and then a SYN from the first is not. -/
theorem udp_single_peer_syn :
    ∃ o, follow Observed.step (fun _ _ => True) ⟨{ listening := true }, []⟩
        [.read (arriving ⟨0x7f000001, 2001⟩ { payload := [7] }),
          .read (arriving ⟨0x7f000001, 2002⟩ { header := { syn := true } }), .write {} .all,
          .read (arriving ⟨0x7f000001, 2001⟩ { header := { syn := true } })] = some o ∧
      o.adapter.listening = false ∧ o.log.length = 2 ∧
      ∃ p before e after, o.adapter.config.destination = p ∧ o.log = before ++ e :: after ∧
        (∀ e ∈ before, e.isSent) ∧ e.Syn p ∧ ∀ e ∈ after, e.With p := by
  obtain ⟨o, run, seen⟩ := Option.map_eq_some_iff.1
    (show (follow Observed.step (fun _ _ => True) ⟨{ listening := true }, []⟩
        [.read (arriving ⟨0x7f000001, 2001⟩ { payload := [7] }),
          .read (arriving ⟨0x7f000001, 2002⟩ { header := { syn := true } }), .write {} .all,
          .read (arriving ⟨0x7f000001, 2001⟩ { header := { syn := true } })]).map
      (fun o => (o.adapter.listening, o.log.length)) = some (false, 2) by decide +kernel)
  obtain ⟨connected, count⟩ := Prod.mk.inj seen
  refine ⟨o, run, connected, count, ?_⟩
  rcases udp_single_peer _ rfl (Reaches.start.follow run) with ⟨listening, -⟩ | ⟨p, before, e, after, -, shape⟩
  · rw [connected] at listening
    cases listening
  · exact ⟨p, before, e, after, shape⟩

end TCPOverUDPSocketAdapter

/-! ### Losses -/

/-- `LossyFdAdapter`. The generator is the sequence of numbers that it gives and how many were drawn. -/
structure LossyFdAdapter (α : Type) where
  adapter : α
  lossRateDn : UInt16 := 0
  lossRateUp : UInt16 := 0
  rand : Nat → UInt32
  drawn : Nat := 0

namespace LossyFdAdapter

variable {α ι : Type}

/-- `loss` of `_should_drop`. -/
def loss (a : LossyFdAdapter α) (uplink : Bool) : UInt16 := if uplink then a.lossRateUp else a.lossRateDn

/-- `_should_drop`. Without losses no number is drawn. -/
def shouldDrop (a : LossyFdAdapter α) (uplink : Bool) : LossyFdAdapter α × Bool :=
  if a.loss uplink ≠ 0 then
    ({ a with drawn := a.drawn + 1 }, decide ((a.rand a.drawn).toUInt16 < a.loss uplink))
  else (a, false)

variable [FdAdapter α ι]

/-- `read`. The underlying adapter has read the datagram when it is dropped. -/
def read (a : LossyFdAdapter α) (i : ι) : Option (LossyFdAdapter α × Option TCPSegment) :=
  (FdAdapter.read a.adapter i).map fun ret =>
    let drop := { a with adapter := ret.1 }.shouldDrop false
    (drop.1, if drop.2 then none else ret.2)

/-- `write`. -/
def write (a : LossyFdAdapter α) (seg : TCPSegment) (sends : Sends) : Option (LossyFdAdapter α) :=
  let drop := a.shouldDrop true
  if drop.2 then some drop.1
  else (FdAdapter.write drop.1.adapter seg sends).map fun inner => { drop.1 with adapter := inner }

instance : FdAdapter (LossyFdAdapter α) ι where
  fd a := FdAdapter.fd a.adapter
  read := read
  write := write
  tick a ms sends := (FdAdapter.tick a.adapter ms sends).map fun inner => { a with adapter := inner }
  setConfig a cfg :=
    { a with
      adapter := FdAdapter.setConfig a.adapter cfg
      lossRateDn := cfg.lossRateDn
      lossRateUp := cfg.lossRateUp }
  setListening a l := { a with adapter := FdAdapter.setListening a.adapter l }

@[simp] theorem shouldDrop_adapter (a : LossyFdAdapter α) (uplink : Bool) : (a.shouldDrop uplink).1.adapter = a.adapter := by
  unfold shouldDrop
  split <;> rfl

/-- Drawing a number keeps the rates. -/
theorem shouldDrop_rates (a : LossyFdAdapter α) (uplink : Bool) :
    (a.shouldDrop uplink).1.lossRateDn = a.lossRateDn ∧ (a.shouldDrop uplink).1.lossRateUp = a.lossRateUp := by
  unfold shouldDrop
  split <;> exact ⟨rfl, rfl⟩

theorem shouldDrop_of_zero {a : LossyFdAdapter α} (dn : a.lossRateDn = 0) (up : a.lossRateUp = 0) (uplink : Bool) :
    a.shouldDrop uplink = (a, false) := by
  cases uplink <;> simp [shouldDrop, loss, dn, up]

/-- The underlying adapter reads all the same. -/
theorem read_cases {a a' : LossyFdAdapter α} {i : ι} {got : Option TCPSegment} (run : a.read i = some (a', got)) :
    ∃ ret, FdAdapter.read a.adapter i = some (a'.adapter, ret) ∧ (got = none ∨ got = ret) ∧
      (a'.lossRateDn = a.lossRateDn ∧ a'.lossRateUp = a.lossRateUp) ∧
      (a.lossRateDn = 0 → a.lossRateUp = 0 → got = ret) := by
  obtain ⟨⟨inner, ret⟩, inside, rest⟩ := Option.map_eq_some_iff.1 run
  obtain ⟨rfl, rfl⟩ := Prod.mk.inj rest
  refine ⟨ret, ?_, ?_, shouldDrop_rates _ _, fun dn up => ?_⟩
  · rw [shouldDrop_adapter]
    exact inside
  · split
    · exact Or.inl rfl
    · exact Or.inr rfl
  · rw [shouldDrop_of_zero (a := { a with adapter := inner }) dn up]
    rfl

/-- A datagram is dropped or written. -/
theorem write_cases {a a' : LossyFdAdapter α} {seg : TCPSegment} {sends : Sends} (run : a.write seg sends = some a') :
    (a'.lossRateDn = a.lossRateDn ∧ a'.lossRateUp = a.lossRateUp) ∧
      (a'.adapter = a.adapter ∧ ¬(a.lossRateDn = 0 ∧ a.lossRateUp = 0) ∨
        FdAdapter.write a.adapter seg sends = some a'.adapter) := by
  have rates := a.shouldDrop_rates true
  unfold write at run
  dsimp only at run
  split at run
  · rename_i drop
    cases run
    refine ⟨rates, Or.inl ⟨shouldDrop_adapter a true, ?_⟩⟩
    rintro ⟨dn, up⟩
    rw [shouldDrop_of_zero dn up] at drop
    cases drop
  · obtain ⟨inner, written, rfl⟩ := Option.map_eq_some_iff.1 run
    rw [shouldDrop_adapter] at written
    exact ⟨rates, Or.inr written⟩

/-- **A lossy adapter is honest** if the adapter under it is. -/
instance {δ : Type} [Honest α ι δ] : Honest (LossyFdAdapter α) ι δ where
  out a := Honest.out a.adapter
  Arrives := Honest.Arrives (α := α)
  Holds S a := Honest.Holds S a.adapter
  mono weaker holds := Honest.mono weaker holds
  read holds run := by
    obtain ⟨ret, inside, -⟩ := read_cases run
    exact Honest.read holds inside
  write holds is fits run := by
    rcases (write_cases run).2 with ⟨same, -⟩ | written
    · rw [same]
      exact holds
    · exact Honest.write holds is fits written
  tick holds run := by
    obtain ⟨inner, ticked, rfl⟩ := Option.map_eq_some_iff.1 run
    exact Honest.tick holds ticked
  setConfig cfg holds := Honest.setConfig cfg holds
  setListening l holds := Honest.setListening l holds
  carried holds member arrives run := by
    obtain ⟨ret, inside, got | got, -⟩ := read_cases run
    · cases got
    · subst got
      exact Honest.carried holds member arrives inside

end LossyFdAdapter

/-- The call is a `write`. -/
def AdapterOp.isWrite {ι : Type} : AdapterOp ι → Bool
  | .write _ _ => true
  | _ => false

namespace LossyFdAdapter

variable {α ι : Type} [FdAdapter α ι]

/-- One call, as a run of the adapter under it. -/
theorem perform_inner {a a' : LossyFdAdapter α} {op : AdapterOp ι} {got : Option TCPSegment}
    (run : FdAdapter.perform a op = some (a', got)) :
    (a'.lossRateDn = a.lossRateDn ∧ a'.lossRateUp = a.lossRateUp) ∧
      ∃ ops ret, ops.Sublist [op] ∧ ops.filter (!·.isWrite) = [op].filter (!·.isWrite) ∧
        FdAdapter.run a.adapter ops = some (a'.adapter, ret) ∧ got.toList.Sublist ret ∧
        (a.lossRateDn = 0 → a.lossRateUp = 0 → ops = [op] ∧ ret = got.toList) := by
  cases op with
  | read i =>
    obtain ⟨ret, inside, seen, rates, exact_⟩ := read_cases run
    refine ⟨rates, [.read i], ret.toList, .refl _, rfl, ?_, ?_, fun dn up => ⟨rfl, by rw [exact_ dn up]⟩⟩
    · simp [FdAdapter.run, FdAdapter.perform, inside]
    · rcases seen with rfl | rfl
      · exact List.nil_sublist _
      · exact .refl _
  | write seg sends =>
    obtain ⟨a'', written, same⟩ := Option.map_eq_some_iff.1 run
    obtain ⟨rfl, rfl⟩ := Prod.mk.inj same
    obtain ⟨rates, ⟨dropped, lossy⟩ | inside⟩ := write_cases written
    · refine ⟨rates, [], [], List.nil_sublist _, rfl, ?_, .refl _, fun dn up => absurd ⟨dn, up⟩ lossy⟩
      rw [dropped]
      rfl
    · refine ⟨rates, [.write seg sends], [], .refl _, rfl, ?_, .refl _, fun _ _ => ⟨rfl, rfl⟩⟩
      simp [FdAdapter.run, FdAdapter.perform, inside]
  | tick ms sends =>
    obtain ⟨a'', ticked, same⟩ := Option.map_eq_some_iff.1 run
    obtain ⟨rfl, rfl⟩ := Prod.mk.inj same
    obtain ⟨inner, inside, rfl⟩ := Option.map_eq_some_iff.1 ticked
    refine ⟨⟨rfl, rfl⟩, [.tick ms sends], [], .refl _, rfl, ?_, .refl _, fun _ _ => ⟨rfl, rfl⟩⟩
    simp [FdAdapter.run, FdAdapter.perform, inside]

end LossyFdAdapter

namespace FdAdapter

variable {α ι : Type} [FdAdapter α ι]

/-- Runs compose, and so do the segments they return. -/
theorem run_append {a b c : α} {ops ops' : List (AdapterOp ι)} {got got' : List TCPSegment}
    (first : run a ops = some (b, got)) (second : run b ops' = some (c, got')) :
    run a (ops ++ ops') = some (c, got ++ got') := by
  induction ops generalizing a got with
  | nil =>
    cases first
    exact second
  | cons op rest ih =>
    obtain ⟨⟨mid, one⟩, performed, after⟩ := Option.bind_eq_some_iff.1 first
    obtain ⟨⟨last, more⟩, run', same⟩ := Option.map_eq_some_iff.1 after
    obtain ⟨rfl, rfl⟩ := Prod.mk.inj same
    rw [List.cons_append, run, performed, Option.bind_some]
    dsimp only
    rw [ih run', Option.map_some, List.append_assoc]

end FdAdapter

namespace LossyFdAdapter

/-- **A lossy adapter is the adapter under it on a worse network.** Whatever the generator gives, a run of calls leaves the
inner adapter as some of the same calls do without losses: all but some of the writes. What is returned is returned there
too, in the same order. With loss rates of zero it is the same run. -/
theorem lossy_run {α ι : Type} [FdAdapter α ι] (a a' : LossyFdAdapter α) (ops : List (AdapterOp ι)) (got : List TCPSegment)
    (run : FdAdapter.run a ops = some (a', got)) :
    ∃ ops' ret, ops'.Sublist ops ∧ ops'.filter (!·.isWrite) = ops.filter (!·.isWrite) ∧
      FdAdapter.run a.adapter ops' = some (a'.adapter, ret) ∧ got.Sublist ret ∧
      (a.lossRateDn = 0 → a.lossRateUp = 0 → ops' = ops ∧ ret = got) := by
  induction ops generalizing a got with
  | nil =>
    cases run
    exact ⟨[], [], .refl _, rfl, rfl, .refl _, fun _ _ => ⟨rfl, rfl⟩⟩
  | cons op rest ih =>
    obtain ⟨⟨mid, one⟩, performed, after⟩ := Option.bind_eq_some_iff.1 run
    obtain ⟨⟨last, more⟩, run', same⟩ := Option.map_eq_some_iff.1 after
    obtain ⟨rfl, rfl⟩ := Prod.mk.inj same
    obtain ⟨⟨dn, up⟩, first, ret, some_, reads, inside, seen, plain⟩ := perform_inner performed
    obtain ⟨others, ret', rest_, reads', inside', seen', plain'⟩ := ih mid more run'
    refine ⟨first ++ others, ret ++ ret', some_.append rest_, ?_, FdAdapter.run_append inside inside', seen.append seen',
      fun noDn noUp => ?_⟩
    · rw [List.filter_append, reads, reads', ← List.filter_append]
      rfl
    · obtain ⟨rfl, rfl⟩ := plain noDn noUp
      obtain ⟨rfl, rfl⟩ := plain' (dn.trans noDn) (up.trans noUp)
      exact ⟨rfl, rfl⟩

/-- The first write is dropped and the second is not; a SYN arrives. -/
theorem lossy_run_dropped :
    ∃ a' got, FdAdapter.run
        ({ adapter := { listening := true }, lossRateUp := 9, rand := fun n => if n = 0 then 8 else 9 } :
          LossyFdAdapter TCPOverUDPSocketAdapter)
        [.write {} .all, .read (TCPOverUDPSocketAdapter.arriving ⟨0x7f000001, 2002⟩ { header := { syn := true } }),
          .write {} .all] =
          some (a', got) ∧ a'.adapter.sent.length = 1 ∧ got.length = 1 ∧
      ∃ ops ret, FdAdapter.run ({ listening := true } : TCPOverUDPSocketAdapter) ops = some (a'.adapter, ret) ∧
        got.Sublist ret := by
  obtain ⟨⟨a', got⟩, run, seen⟩ := Option.map_eq_some_iff.1
    (show (FdAdapter.run
        ({ adapter := { listening := true }, lossRateUp := 9, rand := fun n => if n = 0 then 8 else 9 } :
          LossyFdAdapter TCPOverUDPSocketAdapter)
        [.write {} .all, .read (TCPOverUDPSocketAdapter.arriving ⟨0x7f000001, 2002⟩ { header := { syn := true } }),
          .write {} .all]).map
      (fun r => (r.1.adapter.sent.length, r.2.length)) = some (1, 1) by decide +kernel)
  obtain ⟨sent, count⟩ := Prod.mk.inj seen
  obtain ⟨ops, ret, -, -, inside, seen, -⟩ := lossy_run _ _ _ _ run
  exact ⟨a', got, run, sent, count, ops, ret, inside, seen⟩

end LossyFdAdapter

end Sponge
