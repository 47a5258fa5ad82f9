import Sponge.Logic.Reach
import Sponge.Tcp.Pair

/-!
# Two connections and a network

Two connections talk over a network that remembers every segment either of them
has put out and may deliver any of them, any number of times, in any order or
never. Between deliveries either side connects, writes, ends its stream, reads
and lets time pass, in any order. In every state reached the two agree
(`agreed`), and from that: what is assembled on one side is a prefix of what was
written on the other, a clean close loses nothing, and a passive close leaves
the peer with nothing to wait for.
-/

namespace Sponge

open TCPConnection (Op)

inductive Side where
  | a
  | b
  deriving DecidableEq

/-- The two connections. Their `segments_out` are never emptied and are what the network remembers. -/
structure Network where
  a : Endpoint
  b : Endpoint
  deriving DecidableEq

/-- The bytes assembled into the inbound stream: those read and those still buffered. -/
def Endpoint.assembled (e : Endpoint) : List UInt8 := e.taken ++ e.conn.inboundStream.pending

namespace Network

/-- Two new connections. -/
def new (cfgA cfgB : TCPConfig) : Network := ⟨.new cfgA, .new cfgB⟩

/-- One side takes a step. -/
def step (n : Network) : Side × Op → Option Network
  | (.a, op) => (n.a.step op).map fun a => { n with a }
  | (.b, op) => (n.b.step op).map fun b => { n with b }

/-- A step that the side allows itself. -/
def Allowed (n : Network) : Side × Op → Prop
  | (.a, op) => n.a.Allows n.b op
  | (.b, op) => n.b.Allows n.a op

instance (n : Network) : DecidablePred n.Allowed
  | (.a, op) => inferInstanceAs (Decidable (n.a.Allows n.b op))
  | (.b, op) => inferInstanceAs (Decidable (n.b.Allows n.a op))

variable {cfgA cfgB : TCPConfig} {n : Network}

/-- **The two sides agree** in every state reached. -/
theorem agreed (reached : Reaches step Allowed (new cfgA cfgB) n) : Agreed n.a n.b := by
  refine reached.invariant ?_ fun n action n' (agreed : Agreed n.a n.b) allowed run => ?_
  · exact .new cfgA cfgB
  obtain ⟨side, op⟩ := action
  cases side with
  | a =>
    obtain ⟨a, moved, rfl⟩ := Option.map_eq_some_iff.1 run
    exact agreed.step allowed moved
  | b =>
    obtain ⟨b, moved, rfl⟩ := Option.map_eq_some_iff.1 run
    exact (agreed.symm.step allowed moved).symm

/-! ### Safety of the stream -/

/-- What `b` has assembled is a prefix of what `a` has written, and all of it once the stream has ended. -/
def Delivered (a b : Endpoint) : Prop :=
  b.assembled <+: a.written ∧
    (b.conn.inboundStream.inputEnded = true → a.conn.sender.stream.inputEnded = true ∧ b.assembled = a.written)

theorem delivered {a b : Endpoint} (link : Link a b) : Delivered a b := by
  have bytes : b.assembled = _ := link.bytes
  refine ⟨?_, fun ended => ?_⟩
  · rw [bytes]
    exact List.take_prefix _ _
  · obtain ⟨fined, whole⟩ := link.receives.complete ended
    exact ⟨(link.closed fined).1, by rw [bytes, whole, List.take_length]⟩

/-- **Stream safety**, in both directions and over every run of the network. -/
theorem stream_safety (cfgA cfgB : TCPConfig) {n : Network} (reached : Reaches step Allowed (new cfgA cfgB) n) :
    Delivered n.a n.b ∧ Delivered n.b n.a := by
  have agreed := agreed reached
  exact ⟨delivered agreed.pair.forth, delivered agreed.pair.back⟩

/-- One side writes three bytes and closes, over the wrap of its sequence numbers. Its FIN arrives before the bytes and
the bytes arrive twice. The other side reads two of them and then closes as well. -/
def exchange : List (Side × Op) := [
  (.a, .connect),
  (.a, .write [1, 2, 3]),
  (.b, .segmentReceived { header := { seqno := .ofNat 4294967294, syn := true, win := 64000 } }),
  (.a, .segmentReceived
    { header := { seqno := .ofNat 7, syn := true, ack := true, ackno := .ofNat 4294967295, win := 64000 } }),
  (.a, .endInputStream),
  (.b, .segmentReceived { header := { seqno := .ofNat 2, fin := true, ack := true, ackno := .ofNat 8, win := 64000 } }),
  (.b, .segmentReceived
    { header := { seqno := .ofNat 4294967295, ack := true, ackno := .ofNat 8, win := 64000 }, payload := [1, 2, 3] }),
  (.b, .read 2),
  (.b, .segmentReceived
    { header := { seqno := .ofNat 4294967295, ack := true, ackno := .ofNat 8, win := 64000 }, payload := [1, 2, 3] }),
  (.b, .endInputStream),
  (.a, .segmentReceived { header := { seqno := .ofNat 8, fin := true, ack := true, ackno := .ofNat 3, win := 63999 } })]

/-- The acknowledgment of the second FIN. -/
def lastAck : TCPSegment := { header := { seqno := .ofNat 3, ack := true, ackno := .ofNat 9, win := 64000 } }

/-- Everything written arrives, and the end of the stream with it. -/
theorem stream_safety_reordered :
    ∃ n, follow step Allowed (new { isn := .ofNat 4294967294 } { isn := .ofNat 7 }) exchange = some n ∧
      n.b.assembled = [1, 2, 3] ∧ n.b.conn.inboundStream.inputEnded = true ∧ Delivered n.a n.b ∧ Delivered n.b n.a := by
  obtain ⟨n, run, seen⟩ := Option.map_eq_some_iff.1
    (show (follow step Allowed (new { isn := .ofNat 4294967294 } { isn := .ofNat 7 }) exchange).map
      (fun n => (n.b.assembled, n.b.conn.inboundStream.inputEnded)) = some ([1, 2, 3], true) by decide +kernel)
  obtain ⟨bytes, ended⟩ := Prod.mk.inj seen
  exact ⟨n, run, bytes, ended, stream_safety _ _ (Reaches.start.follow run)⟩

/-! ### A clean close -/

/-- Once the sender of `a` has everything acknowledged `b` has everything, and once `a` is inactive without an error
both sides have. -/
def NothingLost (a b : Endpoint) : Prop :=
  (a.conn.sender.fullFined = true → b.conn.receiver.fullFined = true ∧ b.assembled = a.written) ∧
    (a.conn.active = false → a.conn.inboundStream.error = false →
      (a.conn.inboundStream.inputEnded = true ∧ a.assembled = b.written) ∧
        b.conn.inboundStream.inputEnded = true ∧ b.assembled = a.written)

theorem full_delivered {a b : Endpoint} (link : Link a b) (full : a.conn.sender.fullFined = true) :
    b.conn.receiver.fullFined = true ∧ b.assembled = a.written := by
  obtain ⟨fined, next⟩ := (TCPSender.fullFined_iff _).1 full
  have acked := link.acked
  rw [← next, (link.next_of_fined fined).2] at acked
  obtain ⟨received, whole⟩ := link.receives.fullFined_of_ackPosition acked
  have bytes : b.assembled = _ := link.bytes
  rw [whole, List.take_length] at bytes
  exact ⟨received, bytes⟩

theorem nothingLost {a b : Endpoint} (pair : Pair a b) : NothingLost a b := by
  refine ⟨full_delivered pair.forth, fun inactive noError => ?_⟩
  obtain ⟨full, received⟩ := pair.own.clean inactive noError
  obtain ⟨received', bytes⟩ := full_delivered pair.forth full
  have ended := pair.back.receives.fullFined.symm.trans received
  exact ⟨⟨ended, ((delivered pair.back).2 ended).2⟩, pair.forth.receives.fullFined.symm.trans received', bytes⟩

/-- **A clean close loses nothing**, on either side and over every run of the network. -/
theorem clean_close (cfgA cfgB : TCPConfig) {n : Network} (reached : Reaches step Allowed (new cfgA cfgB) n) :
    NothingLost n.a n.b ∧ NothingLost n.b n.a := by
  have agreed := agreed reached
  exact ⟨nothingLost agreed.pair, nothingLost agreed.pair.symm⟩

/-- The side that closed second is done with the acknowledgment of its FIN. -/
theorem clean_close_second :
    ∃ n, follow step Allowed (new { isn := .ofNat 4294967294 } { isn := .ofNat 7 })
        (exchange ++ [(.b, .segmentReceived lastAck)]) = some n ∧
      n.b.conn.active = false ∧ n.b.conn.inboundStream.error = false ∧ NothingLost n.a n.b ∧ NothingLost n.b n.a := by
  obtain ⟨n, run, seen⟩ := Option.map_eq_some_iff.1
    (show (follow step Allowed (new { isn := .ofNat 4294967294 } { isn := .ofNat 7 })
        (exchange ++ [(.b, .segmentReceived lastAck)])).map
      (fun n => (n.b.conn.active, n.b.conn.inboundStream.error)) = some (false, false) by decide +kernel)
  obtain ⟨inactive, noError⟩ := Prod.mk.inj seen
  exact ⟨n, run, inactive, noError, clean_close _ _ (Reaches.start.follow run)⟩

/-! ### A passive close -/

/-- `op` takes `own` to `own'` by the branch of `judge_do` that does not linger: the flag was false when `judge_do`
was called, the connection was active, and it is closed without an error. -/
def ClosesPassively (own own' : Endpoint) (op : Op) : Prop :=
  ∃ p, own.prepare? op = some p ∧ own' = p.on (·.judgeDo) ∧ p.conn.active = true ∧
    p.conn.lingerAfterStreamsFinish = false ∧ own'.conn.active = false ∧ own'.conn.inboundStream.error = false

/-- The flag was false before the operation too, as the FIN is out, and the peer has seen the FIN. -/
theorem passive {a a' b : Endpoint} {op : Op} (agreed : Agreed a b) (allowed : a.Allows b op)
    (closes : ClosesPassively a a' op) : b.conn.sender.fullFined = true := by
  obtain ⟨p, prepared, rfl, active, linger, inactive, noError⟩ := closes
  obtain ⟨-, full, -, -⟩ := (Endpoint.judged p.conn).clean active inactive noError
  have pair := agreed.pair.prepare allowed prepared
  have heard := agreed.heard.prepare prepared pair.forth
  have seen := (full_delivered pair.forth full).1
  refine heard active linger fun none => ?_
  rw [TCPReceiver.fullFined, none] at seen
  cases seen

/-- **A passive close strands nobody**: when a step closes one side without lingering, the sender of the other has its
FIN out and everything acknowledged. -/
theorem passive_close (cfgA cfgB : TCPConfig) {n n' : Network} {op : Op}
    (reached : Reaches step Allowed (new cfgA cfgB) n) :
    (n.Allowed (.a, op) → n.step (.a, op) = some n' → ClosesPassively n.a n'.a op → n'.b.conn.sender.fullFined = true) ∧
      (n.Allowed (.b, op) → n.step (.b, op) = some n' → ClosesPassively n.b n'.b op →
        n'.a.conn.sender.fullFined = true) := by
  have agreed := agreed reached
  refine ⟨fun allowed run closes => ?_, fun allowed run closes => ?_⟩
  · obtain ⟨a, -, rfl⟩ := Option.map_eq_some_iff.1 run
    exact passive agreed allowed closes
  · obtain ⟨b, -, rfl⟩ := Option.map_eq_some_iff.1 run
    exact passive agreed.symm allowed closes

/-- The side that closed second does not linger, and the first has its FIN acknowledged. -/
theorem passive_close_second :
    ∃ n n', follow step Allowed (new { isn := .ofNat 4294967294 } { isn := .ofNat 7 }) exchange = some n ∧
      n.Allowed (.b, .segmentReceived lastAck) ∧ n.step (.b, .segmentReceived lastAck) = some n' ∧
      ClosesPassively n.b n'.b (.segmentReceived lastAck) ∧ n'.a.conn.sender.fullFined = true := by
  obtain ⟨n, run, seen⟩ := Option.map_eq_some_iff.1
    (show (follow step Allowed (new { isn := .ofNat 4294967294 } { isn := .ofNat 7 }) exchange).map
      (fun n => (decide (n.Allowed (.b, .segmentReceived lastAck)),
        (n.b.prepare? (.segmentReceived lastAck)).map fun p =>
          (p.conn.active, p.conn.lingerAfterStreamsFinish, p.conn.judgeDo.active, p.conn.judgeDo.inboundStream.error))) =
      some (true, some (true, false, false, false)) by decide +kernel)
  obtain ⟨allowed, seen⟩ := Prod.mk.inj seen
  obtain ⟨p, prepared, seen⟩ := Option.map_eq_some_iff.1 seen
  simp only [Prod.mk.injEq] at seen
  obtain ⟨active, linger, inactive, noError⟩ := seen
  have allowed := of_decide_eq_true allowed
  have moved : n.step (.b, .segmentReceived lastAck) = some { n with b := p.on (·.judgeDo) } := by
    rw [step, Endpoint.step_eq _ (by simp), prepared]
    rfl
  have closes : ClosesPassively n.b (p.on (·.judgeDo)) (.segmentReceived lastAck) :=
    ⟨p, prepared, rfl, active, linger, inactive, noError⟩
  exact ⟨n, _, run, allowed, moved, closes, (passive_close _ _ (Reaches.start.follow run)).2 allowed moved closes⟩

end Network

end Sponge
