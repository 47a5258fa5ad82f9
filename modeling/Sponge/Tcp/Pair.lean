import Sponge.Tcp.Closing

/-!
# Both directions

`Pair` is a link in each direction and the closing flags of each side. It is kept
phase by phase, and so by every operation of either side.

`Heard a b` is the agreement at the end of a passive close: while `a` is active
and need not linger, `b` has its own stream acknowledged from the moment it has
seen the FIN of `a`. It does not hold between the phases of `segment_received`,
only between operations (`Agreed`): the FIN and the acknowledgment come in one
segment.
-/

namespace Sponge

open TCPConnection (Op)
open TCPSender (Keeps)

namespace Endpoint

/-- What a side may do: write fewer than `2 ^ 31 - 4` bytes in all and none after it has ended its stream, and receive
what its peer has put out. -/
def Allows (own peer : Endpoint) : Op → Prop
  | .write data => own.conn.sender.stream.inputEnded = false ∧
      (own.written ++ data.take (own.conn.written data)).length < 2 ^ 31 - 4
  | .segmentReceived seg => seg ∈ peer.conn.segmentsOut
  | _ => True

instance (own peer : Endpoint) : DecidablePred (Allows own peer)
  | .connect => .isTrue trivial
  | .write _ => inferInstanceAs (Decidable (_ ∧ _))
  | .endInputStream => .isTrue trivial
  | .tick _ => .isTrue trivial
  | .segmentReceived _ => inferInstanceAs (Decidable (_ ∈ _))
  | .read _ => .isTrue trivial

end Endpoint

/-- The two directions and the flags of the two sides. -/
structure Pair (a b : Endpoint) : Prop where
  forth : Link a b
  back : Link b a
  own : Closes a b
  peer : Closes b a

section Phases

variable {a a' b : Endpoint}

theorem Pair.symm (h : Pair a b) : Pair b a := ⟨h.back, h.forth, h.peer, h.own⟩

/-- A phase of `a` that only changes its sender. -/
theorem Pair.of_sender (h : Pair a b) (forth : Link a' b) (receiver : a'.conn.receiver = a.conn.receiver)
    (out : a'.conn.segmentsOut = a.conn.segmentsOut) (taken : a'.taken = a.taken)
    (active : a'.conn.active = a.conn.active)
    (linger : a'.conn.lingerAfterStreamsFinish = a.conn.lingerAfterStreamsFinish) (written : a'.written = a.written)
    (isn : a'.conn.sender.isn = a.conn.sender.isn)
    (full : a.conn.sender.fullFined = true → a'.conn.sender.fullFined = true) : Pair a' b :=
  ⟨forth, h.back.of_receiver receiver out taken, h.own.of_sender receiver out active linger full,
    h.peer.of_peer written isn⟩

theorem Pair.fill (h : Pair a b) : Pair a.fill b :=
  h.of_sender h.forth.fill rfl rfl rfl rfl rfl rfl a.conn.sender.fillWindow_fills.isn TCPSender.fullFined_fillWindow

theorem Pair.fillIfSyned (h : Pair a b) : Pair a.fillIfSyned b := by
  unfold Endpoint.fillIfSyned
  split
  · exact h.fill
  · exact h

theorem Pair.accept (h : Pair a b) {data : List UInt8} (more : a.conn.sender.stream.inputEnded = false)
    (short : (a.accept data).written.length < 2 ^ 31 - 4) : Pair (a.accept data) b :=
  ⟨h.forth.accept more (by omega), h.back.of_receiver rfl rfl rfl, h.own.of_sender rfl rfl rfl rfl id,
    h.peer.accept_peer h.forth more⟩

theorem Pair.endInput (h : Pair a b) : Pair a.endInput b :=
  h.of_sender h.forth.endInput rfl rfl rfl rfl rfl rfl rfl id

theorem Pair.passTime (h : Pair a b) (ms : Nat) : Pair (a.passTime ms) b := by
  obtain ⟨same, -⟩ := a.conn.sender.tick_spec ms
  exact h.of_sender (h.forth.passTime ms) rfl rfl rfl rfl rfl rfl same.isn (TCPSender.fullFined_of_same same)

theorem Pair.reset (h : Pair a b) : Pair a.reset b :=
  h.of_sender (h.forth.of_sender h.forth.sends.reset (.refl _) rfl rfl h.forth.acked) rfl rfl rfl rfl rfl rfl rfl id

theorem full_ackSender (seg : TCPSegment) (full : a.conn.sender.fullFined = true) :
    (a.conn.ackSender seg).sender.fullFined = true := by
  unfold TCPConnection.ackSender
  split
  · exact TCPSender.fullFined_of_acked (a.conn.sender.ackReceived_spec _ _) full
  · exact full

theorem Pair.ackSender (h : Pair a b) {seg : TCPSegment} (member : seg ∈ b.conn.segmentsOut)
    (noRst : seg.header.rst = false) : Pair (a.on (·.ackSender seg)) b := by
  have forth := h.forth.ackSender member noRst
  have full : _ → _ := full_ackSender (a := a) seg
  have isn := Endpoint.ackSender_isn a.conn seg
  simp only [Endpoint.on] at forth ⊢
  rw [Endpoint.ackSender_eq] at forth ⊢
  exact h.of_sender forth rfl rfl rfl rfl rfl rfl isn full

theorem Pair.replyEmpty (h : Pair a b) (seg : TCPSegment) : Pair (a.on (·.replyEmpty seg)) b := by
  have forth := h.forth.replyEmpty seg
  have same := Endpoint.replyEmpty_same a.conn seg
  simp only [Endpoint.on] at forth ⊢
  rw [Endpoint.replyEmpty_eq] at forth ⊢
  exact h.of_sender forth rfl rfl rfl rfl rfl rfl same.isn (TCPSender.fullFined_of_same same)

theorem Pair.noteLinger (h : Pair a b) : Pair (a.on (·.noteLinger)) b := by
  have own := h.own.noteLinger h.forth.sends
  have sends := h.forth.sends.noteLinger
  simp only [Endpoint.on] at own sends ⊢
  rw [Endpoint.noteLinger_eq] at own sends ⊢
  exact ⟨h.forth.of_sender sends (.refl _) rfl rfl h.forth.acked, h.back.of_receiver rfl rfl rfl, own,
    h.peer.of_peer rfl rfl⟩

/-- A segment that `b` has put out arrives. -/
theorem Pair.receive (h : Pair a b) {seg : TCPSegment} (member : seg ∈ b.conn.segmentsOut)
    (noRst : seg.header.rst = false) {r : TCPReceiver} (run : a.conn.receiver.segmentReceived? seg = some r) :
    Pair (a.receive r) b := by
  have progress := h.back.progress member noRst run
  refine ⟨h.forth.of_sender (h.forth.sends.receive r) (.refl _) rfl rfl h.forth.acked, h.back.receive member noRst run,
    ?_, h.peer.of_peer rfl rfl⟩
  refine h.own.of_receiver a.taken rfl rfl rfl rfl progress.error fun full => ?_
  rw [h.back.receives.fullFined] at full
  exact progress.receives.fullFined.trans (progress.ended full)

theorem Pair.react (h : Pair a b) {seg : TCPSegment} (member : seg ∈ b.conn.segmentsOut)
    (noRst : seg.header.rst = false) : Pair (a.react seg) b := by
  unfold Endpoint.react
  split
  · exact h.fill
  · exact (h.ackSender member noRst).fillIfSyned.noteLinger.replyEmpty seg

theorem Pair.judge (h : Pair a b) : Pair (a.on (·.judgeDo)) b :=
  ⟨h.forth.judge, h.back.judge_receiver h.forth.sends, h.own.judge h.forth.sends h.back,
    h.peer.of_peer rfl (Endpoint.judged a.conn).sender.isn⟩

theorem Pair.read (h : Pair a b) (len : Nat) : Pair { a with
    conn := a.conn.popInbound len
    taken := a.taken ++ a.conn.inboundStream.peekOutput len } b :=
  ⟨h.forth.of_sender (h.forth.sends.same_sender (c := a.conn.popInbound len) rfl rfl rfl _) (.refl _) rfl rfl
      h.forth.acked,
    h.back.read len, h.own.of_receiver (c := a.conn.popInbound len) _ rfl rfl rfl rfl rfl id, h.peer.of_peer rfl rfl⟩

/-- An operation, up to `judge_do`. -/
theorem Pair.prepare (h : Pair a b) {op : Op} (allowed : a.Allows b op) {p : Endpoint} (run : a.prepare? op = some p) :
    Pair p b := by
  rcases Endpoint.prepare?_cases run with ⟨-, rfl⟩ | ⟨data, rfl, rfl⟩ | ⟨-, rfl⟩ | ⟨ms, -, rfl⟩ | ⟨seg, -, -, rfl⟩ |
    ⟨seg, r, rfl, noRst, received, rfl⟩
  · exact h.fill
  · exact (h.accept allowed.1 allowed.2).fillIfSyned
  · exact h.endInput.fill
  · exact (h.passTime ms).fillIfSyned
  · exact h.reset
  · exact (h.receive allowed noRst received).react allowed noRst

theorem Pair.step (h : Pair a b) {op : Op} (allowed : a.Allows b op) (run : a.step op = some a') : Pair a' b := by
  rcases Endpoint.step_cases run with ⟨p, prepared, rfl⟩ | ⟨len, -, rfl⟩
  · exact (h.prepare allowed prepared).judge
  · exact h.read len

end Phases

/-! ### The end of a passive close -/

/-- While `a` is active and need not linger, a peer that has seen its FIN has everything acknowledged. -/
def Heard (a b : Endpoint) : Prop :=
  a.conn.active = true → a.conn.lingerAfterStreamsFinish = false → b.conn.receiver.fin ≠ .notReceived →
    b.conn.sender.fullFined = true

section Full

variable {e : Endpoint}

theorem full_fillIfSyned (full : e.conn.sender.fullFined = true) : e.fillIfSyned.conn.sender.fullFined = true := by
  unfold Endpoint.fillIfSyned
  split
  · exact TCPSender.fullFined_fillWindow full
  · exact full

/-- What follows the acknowledgment in `segment_received` does not undo the end of the sender's stream. -/
theorem full_afterAck (seg : TCPSegment) (full : e.conn.sender.fullFined = true) :
    ((e.fillIfSyned.on (·.noteLinger)).on (·.replyEmpty seg)).conn.sender.fullFined = true := by
  refine TCPSender.fullFined_of_same (Endpoint.replyEmpty_same _ seg) ?_
  have filled := full_fillIfSyned full
  simp only [Endpoint.on]
  rwa [Endpoint.noteLinger_eq]

theorem full_react (seg : TCPSegment) (full : e.conn.sender.fullFined = true) :
    (e.react seg).conn.sender.fullFined = true := by
  unfold Endpoint.react
  split
  · exact TCPSender.fullFined_fillWindow full
  · exact full_afterAck seg (full_ackSender seg full)

end Full

section Heard

variable {a b : Endpoint}

/-- A peer that has seen the FIN of `a` saw it sent. -/
theorem Link.fined_of_seen (link : Link a b) (seen : b.conn.receiver.fin ≠ .notReceived) : a.conn.sender.fined = true := by
  refine (link.receives.eof ?_).1
  rcases link.receives.state with ⟨fresh, -⟩ | synced
  · exact absurd fresh.fin seen
  · exact synced.eof.2 seen

/-- With the FIN out every byte has its number. -/
theorem Link.next_of_fined (link : Link a b) (fined : a.conn.sender.fined = true) :
    a.conn.sender.syned = true ∧ a.conn.sender.nextAbsSeqno = a.written.length + 2 := by
  have tiled := link.sends.tiled
  obtain ⟨-, seg, member, -⟩ := tiled.fined fined
  have syned := tiled.syned.2 (List.ne_nil_of_mem member)
  have whole := tiled.bytes
  rw [(link.closed fined).2, List.append_nil] at whole
  refine ⟨syned, ?_⟩
  rw [tiled.flight.next_eq link.few, tiled.total, if_pos syned, if_pos fined, whole]
  omega

theorem noteLinger_flags (c : TCPConnection) : c.noteLinger.active = c.active ∧
    (c.noteLinger.lingerAfterStreamsFinish = c.lingerAfterStreamsFinish ∨ c.sender.fined = false) := by
  unfold TCPConnection.noteLinger
  split
  · rename_i cleared
    rw [Bool.and_eq_true, Bool.not_eq_true'] at cleared
    exact ⟨rfl, Or.inr cleared.2⟩
  · exact ⟨rfl, Or.inl rfl⟩

theorem fillIfSyned_flags (e : Endpoint) : e.fillIfSyned.conn.active = e.conn.active ∧
    e.fillIfSyned.conn.lingerAfterStreamsFinish = e.conn.lingerAfterStreamsFinish := by
  unfold Endpoint.fillIfSyned
  split <;> exact ⟨rfl, rfl⟩

theorem ackSender_flags (c : TCPConnection) (seg : TCPSegment) : (c.ackSender seg).active = c.active ∧
    (c.ackSender seg).lingerAfterStreamsFinish = c.lingerAfterStreamsFinish := by
  rw [Endpoint.ackSender_eq]
  exact ⟨rfl, rfl⟩

/-- Of the phases of `segment_received` only one touches the flag, after the sender has filled its window. -/
theorem react_flags (e : Endpoint) (seg : TCPSegment) : (e.react seg).conn.active = e.conn.active ∧
    ((e.react seg).conn.lingerAfterStreamsFinish = e.conn.lingerAfterStreamsFinish ∨
      (e.react seg).conn.sender.fined = false) := by
  unfold Endpoint.react
  split
  · exact ⟨rfl, Or.inl rfl⟩
  · obtain ⟨active₁, linger₁⟩ := ackSender_flags e.conn seg
    obtain ⟨active₂, linger₂⟩ := fillIfSyned_flags (e.on (·.ackSender seg))
    obtain ⟨active₃, linger₃⟩ := noteLinger_flags (e.on (·.ackSender seg)).fillIfSyned.conn
    have fined := (Endpoint.replyEmpty_same (e.on (·.ackSender seg)).fillIfSyned.conn.noteLinger seg).fined
    rw [Endpoint.noteLinger_sender] at fined
    simp only [Endpoint.on] at active₂ linger₂ active₃ linger₃ fined ⊢
    rw [Endpoint.replyEmpty_eq]
    exact ⟨active₃.trans (active₂.trans active₁), linger₃.imp (·.trans (linger₂.trans linger₁)) fined.trans⟩

theorem fillIfSyned_receiver (e : Endpoint) : e.fillIfSyned.conn.receiver.fin = e.conn.receiver.fin := by
  unfold Endpoint.fillIfSyned
  split <;> rfl

theorem react_receiver (e : Endpoint) (seg : TCPSegment) : (e.react seg).conn.receiver.fin = e.conn.receiver.fin := by
  unfold Endpoint.react
  split
  · rfl
  · have acked : (e.conn.ackSender seg).receiver = e.conn.receiver := by rw [Endpoint.ackSender_eq]
    have filled := fillIfSyned_receiver (e.on (·.ackSender seg))
    simp only [Endpoint.on] at filled ⊢
    rw [acked] at filled
    rw [Endpoint.replyEmpty_eq, Endpoint.noteLinger_eq]
    exact filled

/-- An operation leaves the linger flag, or clears it before the FIN is out. -/
theorem prepare_flags {p : Endpoint} {op : Op} (run : a.prepare? op = some p) : p.conn.active = a.conn.active ∧
    (p.conn.lingerAfterStreamsFinish = a.conn.lingerAfterStreamsFinish ∨ p.conn.sender.fined = false) := by
  rcases Endpoint.prepare?_cases run with ⟨-, rfl⟩ | ⟨data, -, rfl⟩ | ⟨-, rfl⟩ | ⟨ms, -, rfl⟩ | ⟨seg, -, -, rfl⟩ |
    ⟨seg, r, -, -, -, rfl⟩
  · exact ⟨rfl, Or.inl rfl⟩
  · obtain ⟨active, linger⟩ := fillIfSyned_flags (a.accept data)
    exact ⟨active, Or.inl linger⟩
  · exact ⟨rfl, Or.inl rfl⟩
  · obtain ⟨active, linger⟩ := fillIfSyned_flags (a.passTime ms)
    exact ⟨active, Or.inl linger⟩
  · exact ⟨rfl, Or.inl rfl⟩
  · exact react_flags (a.receive r) seg

/-- An operation of `a`: where it clears the flag, the FIN of `a` has not been seen. -/
theorem Heard.prepare (h : Heard a b) {p : Endpoint} {op : Op} (run : a.prepare? op = some p) (link : Link p b) :
    Heard p b := by
  intro active linger seen
  obtain ⟨same, kept | unfinished⟩ := prepare_flags run
  · exact h (same.symm.trans active) (kept.symm.trans linger) seen
  · rw [link.fined_of_seen seen] at unfinished
    cases unfinished

theorem Heard.judge (h : Heard a b) : Heard (a.on (·.judgeDo)) b := by
  intro active linger
  obtain ⟨before, -, same, -⟩ := (Endpoint.judged a.conn).alive active
  exact h before (same.symm.trans linger)

/-- A phase of the peer that receives nothing. -/
theorem Heard.of_peer {b' : Endpoint} (h : Heard a b) (fin : b'.conn.receiver.fin = b.conn.receiver.fin)
    (full : b.conn.sender.fullFined = true → b'.conn.sender.fullFined = true) : Heard a b' := by
  intro active linger seen
  rw [fin] at seen
  exact full (h active linger seen)

theorem Heard.judge_peer (h : Heard a b) : Heard a (b.on (·.judgeDo)) := by
  have j := Endpoint.judged b.conn
  refine h.of_peer ?_ (TCPSender.fullFined_of_same j.sender)
  show b.conn.judgeDo.receiver.fin = b.conn.receiver.fin
  rcases j.receiver with same | error
  · rw [same]
  · rw [error]
    rfl

/-- The acknowledgment of everything. -/
theorem full_of_finalAck (link : Link a b) (fined : a.conn.sender.fined = true) {seg : TCPSegment}
    (ack : seg.header.ack = true) (number : seg.header.ackno = wrap (a.written.length + 2) a.conn.sender.isn) :
    (a.conn.ackSender seg).sender.fullFined = true := by
  obtain ⟨syned, next⟩ := link.next_of_fined fined
  have spec := a.conn.sender.ackReceived_spec seg.header.ackno seg.header.win
  have short := link.short
  have flight := link.sends.tiled.flight.acked_le_iff.2 link.few
  rw [TCPSender.fullFined_iff, TCPConnection.ackSender, if_pos ack]
  rw [number, unwrap_wrap _ (by omega) (by omega) (by omega)] at spec
  rw [number, spec.fined, spec.next, spec.acked]
  refine ⟨fined, ?_⟩
  split <;> omega

/-- **The peer of `a` receives**: a FIN of `a` acknowledges everything, in the same segment. -/
theorem Heard.receive_peer (h : Heard a b) (pair : Pair b a) {seg : TCPSegment} (member : seg ∈ a.conn.segmentsOut)
    (noRst : seg.header.rst = false) {r : TCPReceiver} (run : b.conn.receiver.segmentReceived? seg = some r) :
    Heard a ((b.receive r).react seg) := by
  have progress := pair.back.progress member noRst run
  intro active linger seen
  rw [react_receiver (b.receive r) seg] at seen
  rcases progress.fin seen with before | isFin
  · exact full_react seg (h active linger before)
  · obtain ⟨ack, number⟩ := pair.peer.fins active linger seg member noRst isFin
    have ended := pair.forth.receives.fullFined.symm.trans (pair.peer.linger linger)
    have fined := (pair.forth.receives.complete ended).1
    have full : ((b.receive r).conn.ackSender seg).sender.fullFined = true :=
      full_of_finalAck (pair.receive member noRst run).forth fined ack number
    rw [Endpoint.react, if_neg]
    · exact full_afterAck seg full
    · rw [show (b.receive r).conn.sender = b.conn.sender from rfl, (pair.forth.next_of_fined fined).1]
      simp

/-- Any operation of the peer, up to `judge_do`. -/
theorem Heard.prepare_peer (h : Heard a b) (pair : Pair b a) {op : Op} (allowed : b.Allows a op) {p : Endpoint}
    (run : b.prepare? op = some p) : Heard a p := by
  rcases Endpoint.prepare?_cases run with ⟨-, rfl⟩ | ⟨data, -, rfl⟩ | ⟨-, rfl⟩ | ⟨ms, -, rfl⟩ | ⟨seg, -, -, rfl⟩ |
    ⟨seg, r, rfl, noRst, received, rfl⟩
  · exact h.of_peer rfl TCPSender.fullFined_fillWindow
  · have written : Heard a (b.accept data) := h.of_peer rfl id
    exact written.of_peer (fillIfSyned_receiver _) full_fillIfSyned
  · have ended : Heard a b.endInput := h.of_peer rfl id
    exact ended.of_peer rfl TCPSender.fullFined_fillWindow
  · have ticked : Heard a (b.passTime ms) :=
      h.of_peer rfl (TCPSender.fullFined_of_same (b.conn.sender.tick_spec ms).1)
    exact ticked.of_peer (fillIfSyned_receiver _) full_fillIfSyned
  · exact h.of_peer rfl id
  · exact h.receive_peer pair allowed noRst received

end Heard

/-- Between operations. -/
structure Agreed (a b : Endpoint) : Prop where
  pair : Pair a b
  heard : Heard a b
  told : Heard b a

section Agreed

variable {a a' b : Endpoint}

theorem Agreed.new (cfgA cfgB : TCPConfig) : Agreed (.new cfgA) (.new cfgB) where
  pair := ⟨.new cfgA cfgB, .new cfgB cfgA, .new cfgA cfgB, .new cfgB cfgA⟩
  heard := by
    intro _ linger
    cases linger
  told := by
    intro _ linger
    cases linger

theorem Agreed.symm (h : Agreed a b) : Agreed b a := ⟨h.pair.symm, h.told, h.heard⟩

/-- **Every operation of a side** keeps the two in agreement. -/
theorem Agreed.step (h : Agreed a b) {op : Op} (allowed : a.Allows b op) (run : a.step op = some a') : Agreed a' b := by
  have pair := h.pair.step allowed run
  rcases Endpoint.step_cases run with ⟨p, prepared, rfl⟩ | ⟨len, -, rfl⟩
  · have link := (h.pair.prepare allowed prepared).forth
    exact ⟨pair, (h.heard.prepare prepared link).judge, (h.told.prepare_peer h.pair allowed prepared).judge_peer⟩
  · exact ⟨pair, h.heard, h.told.of_peer rfl id⟩

end Agreed

end Sponge
