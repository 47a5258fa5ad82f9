import Sponge.Tcp.LateWrites
import Sponge.Tcp.ReceiverSafety

/-!
# One direction of a connection

`Link a b` relates the sender of `a` to the receiver of `b`: everything `a` puts
out belongs to the stream it was given, `b` has assembled a prefix of that
stream, every acknowledgment `b` has put out stands for no more than `b` really
has, and `a` takes nothing more for acknowledged. The lemmas say that each phase
of an operation, of `a` or of `b`, keeps the link; nothing is assumed about which
of the segments put out arrive, in which order and how often.
-/

namespace Sponge

open TCPSender (Tiled Keeps carried seqLength)

namespace Endpoint

variable {e : Endpoint}

theorem carried_le (h : e.Sends) : (carried e.created).length ≤ e.written.length := by
  rw [← h.tiled.bytes, List.length_append]
  omega

/-- A created segment is a slice of the written bytes at its place. -/
theorem created_carries (h : e.Sends) (closed : e.conn.sender.Closed) {seg : TCPSegment} (member : seg ∈ e.created) :
    Carries e.written e.conn.sender.isn (e.conn.sender.fined = true) seg := by
  obtain ⟨k, found⟩ := List.mem_iff_getElem?.1 member
  have number := h.tiled.numbered k seg found
  have syn := h.tiled.syn k seg found
  have split : carried e.created = carried (e.created.take k) ++ (seg.payload ++ carried (e.created.drop (k + 1))) := by
    obtain ⟨inside, is⟩ := List.getElem?_eq_some_iff.1 found
    have parts : e.created = e.created.take k ++ ([seg] ++ e.created.drop (k + 1)) := by
      rw [List.singleton_append, ← is, ← List.drop_eq_getElem_cons inside, List.take_append_drop]
    have whole := congrArg carried parts
    rwa [TCPSender.carried_append, TCPSender.carried_append, TCPSender.carried_singleton] at whole
  have piece : seg.payload <+: e.written.drop (carried (e.created.take k)).length := by
    rw [← h.tiled.bytes, split, List.append_assoc, List.drop_left, List.append_assoc]
    exact List.prefix_append _ _
  have bytes := carried_le h
  have length := congrArg List.length split
  simp only [List.length_append] at length
  refine .slice (carried (e.created.take k)).length piece (by omega) ?_ (fun isSyn => ?_) (fun isFin => ?_)
  · rw [number, h.tiled.placed k seg found]
    by_cases first : k = 0
    · rw [if_pos first, if_pos (syn.2 first), first]
      rfl
    · rw [if_neg first, if_neg (fun isSyn => first (syn.1 isSyn))]
  · rw [syn.1 isSyn]
    rfl
  · obtain ⟨last, fined⟩ := h.tiled.fin k seg found isFin
    have whole := h.tiled.bytes
    rw [(closed fined).2, List.append_nil] at whole
    rw [show e.created.drop (k + 1) = [] from List.drop_eq_nil_of_le (by omega)] at length
    refine ⟨fined, ?_⟩
    rw [← whole]
    simpa using length.symm

/-- Everything put out, resets apart, belongs to the written stream. -/
theorem out_carries (h : e.Sends) (closed : e.conn.sender.Closed) {seg : TCPSegment} (member : seg ∈ e.conn.segmentsOut)
    (noRst : seg.header.rst = false) : Carries e.written e.conn.sender.isn (e.conn.sender.fined = true) seg := by
  rcases h.out seg member with rst | ⟨base, made, same⟩
  · rw [rst] at noRst
    cases noRst
  have content : Carries e.written e.conn.sender.isn (e.conn.sender.fined = true) base := by
    rcases made with created | ⟨n, reached, rfl⟩
    · exact created_carries h closed created
    · exact .empty n (Nat.le_trans reached h.tiled.seqLength_le) rfl rfl rfl rfl
  obtain ⟨payload, seqno, syn, fin⟩ := same
  cases content with
  | slice i piece inside number isSyn isFin =>
    refine .slice i ?_ ?_ ?_ ?_ ?_
    · rw [payload]
      exact piece
    · rw [payload]
      exact inside
    · rw [seqno, syn]
      exact number
    · rw [syn]
      exact isSyn
    · rw [fin, payload]
      exact isFin
  | empty n bound number nothing noSyn noFin =>
    exact .empty n bound (seqno.trans number) (payload.trans nothing) (syn.trans noSyn) (fin.trans noFin)

end Endpoint

/-- The sender of `a` and the receiver of `b`. -/
structure Link (a b : Endpoint) : Prop where
  sends : a.Sends
  closed : a.conn.sender.Closed
  short : a.written.length + 4 < 2 ^ 31
  receives : b.conn.receiver.Receives a.written a.conn.sender.isn (a.conn.sender.fined = true)
  bytes : b.taken ++ b.conn.inboundStream.pending = a.written.take b.conn.receiver.reassembler.firstIndex
  acks : ∀ seg ∈ b.conn.segmentsOut, seg.header.rst = false → seg.header.ack = true →
    ∃ m ≤ b.conn.receiver.ackPosition, seg.header.ackno = wrap m a.conn.sender.isn
  acked : a.conn.sender.lastAckedAbsSeqno ≤ b.conn.receiver.ackPosition

section Link

variable {a a' b b' : Endpoint}

theorem Link.new (cfgA cfgB : TCPConfig) : Link (.new cfgA) (.new cfgB) where
  sends := .new cfgA
  closed := by
    intro fined
    cases fined
  short := by simp [Endpoint.new]
  receives := .new _ _ _ cfgB.recvFits
  bytes := rfl
  acks := by simp [Endpoint.new, TCPConnection.new]
  acked := Nat.le_refl _

/-- The numbers sent are words. -/
theorem Link.few (h : Link a b) : seqLength a.created < word64 := by
  have most := h.sends.tiled.seqLength_le
  have short := h.short
  simp only [word64]
  omega

/-- A phase of the sending side. -/
theorem Link.of_sender (h : Link a b) (sends : a'.Sends) (keeps : Keeps a.conn.sender a'.conn.sender)
    (isn : a'.conn.sender.isn = a.conn.sender.isn) (written : a'.written = a.written)
    (acked : a'.conn.sender.lastAckedAbsSeqno ≤ b.conn.receiver.ackPosition) : Link a' b := by
  refine ⟨sends, keeps.closed h.closed, ?_, ?_, ?_, ?_, acked⟩
  · rw [written]
    exact h.short
  · rw [written, isn]
    exact h.receives.mono (List.prefix_refl _) fun fined => ⟨rfl, (keeps.fined fined).1⟩
  · rw [written]
    exact h.bytes
  · rw [isn]
    exact h.acks

/-- A phase of the receiving side that neither receives nor puts out. -/
theorem Link.of_receiver (h : Link a b) (receiver : b'.conn.receiver = b.conn.receiver)
    (out : b'.conn.segmentsOut = b.conn.segmentsOut) (taken : b'.taken = b.taken) : Link a b' := by
  refine ⟨h.sends, h.closed, h.short, ?_, ?_, ?_, ?_⟩
  · rw [receiver]
    exact h.receives
  · rw [TCPConnection.inboundStream, receiver, taken]
    exact h.bytes
  · rw [out, receiver]
    exact h.acks
  · rw [receiver]
    exact h.acked

theorem Link.fill (h : Link a b) : Link a.fill b :=
  h.of_sender h.sends.fill (TCPSender.keeps_fillWindow _) a.conn.sender.fillWindow_fills.isn rfl
    (by
      have acked := h.acked
      rwa [← a.conn.sender.fillWindow_fills.window.1] at acked)

/-- A write, made before the end of the input and short enough. -/
theorem Link.accept (h : Link a b) {data : List UInt8} (more : a.conn.sender.stream.inputEnded = false)
    (short : (a.accept data).written.length + 4 < 2 ^ 31) : Link (a.accept data) b := by
  have unfinished : a.conn.sender.fined ≠ true := by
    intro fined
    rw [(h.closed fined).1] at more
    cases more
  refine ⟨h.sends.accept data, fun fined => absurd fined unfinished, short, ?_, ?_, h.acks, h.acked⟩
  · exact h.receives.mono (List.prefix_append _ _) fun fined => absurd fined unfinished
  · have inside := h.receives.safe.inside
    rw [h.bytes]
    exact (List.take_append_of_le_length inside).symm

theorem Link.endInput (h : Link a b) : Link a.endInput b :=
  h.of_sender h.sends.endInput (TCPSender.keeps_endInput _) rfl rfl h.acked

theorem Link.passTime (h : Link a b) (ms : Nat) : Link (a.passTime ms) b := by
  obtain ⟨same, -⟩ := a.conn.sender.tick_spec ms
  refine h.of_sender (h.sends.passTime ms) (.of_same same) same.isn rfl ?_
  have acked := h.acked
  rwa [← same.acked] at acked

/-- An acknowledgment that `b` has put out. -/
theorem Link.ackSender (h : Link a b) {seg : TCPSegment} (member : seg ∈ b.conn.segmentsOut)
    (noRst : seg.header.rst = false) : Link (a.on (·.ackSender seg)) b := by
  refine h.of_sender (h.sends.ackSender seg) (a.keeps_ackSender seg) (Endpoint.ackSender_isn _ _) rfl ?_
  show (a.conn.ackSender seg).sender.lastAckedAbsSeqno ≤ _
  unfold TCPConnection.ackSender
  split
  · rename_i ack
    obtain ⟨m, bound, number⟩ := h.acks seg member noRst ack
    have spec := a.conn.sender.ackReceived_spec seg.header.ackno seg.header.win
    have short := h.short
    have most := h.receives.ackPosition_le
    have acked := h.acked
    rw [number, unwrap_wrap _ (by omega) (by omega) (by omega)] at spec
    rw [number, spec.acked]
    split <;> omega
  · exact h.acked

theorem Link.replyEmpty (h : Link a b) (seg : TCPSegment) : Link (a.on (·.replyEmpty seg)) b := by
  have same := Endpoint.replyEmpty_same a.conn seg
  refine h.of_sender (h.sends.replyEmpty seg) (.of_same same) same.isn rfl ?_
  have acked := h.acked
  rwa [← same.acked] at acked

theorem Link.judge (h : Link a b) : Link (a.on (·.judgeDo)) b := by
  have j := Endpoint.judged a.conn
  refine h.of_sender h.sends.judge (.of_same j.sender) j.sender.isn rfl ?_
  have acked := h.acked
  rwa [← j.sender.acked] at acked

/-! ### The receiving side -/

/-- What `a` has put out brings the receiver of `b` forward. -/
theorem Link.progress (h : Link a b) {seg : TCPSegment} (member : seg ∈ a.conn.segmentsOut)
    (noRst : seg.header.rst = false) {r : TCPReceiver} (run : b.conn.receiver.segmentReceived? seg = some r) :
    TCPReceiver.Progress a.written a.conn.sender.isn (a.conn.sender.fined = true) seg b.conn.receiver r := by
  have short := h.short
  exact h.receives.segment (by omega) (Endpoint.out_carries h.sends h.closed member noRst) run

/-- **A segment that `a` has put out arrives at `b`.** -/
theorem Link.receive (h : Link a b) {seg : TCPSegment} (member : seg ∈ a.conn.segmentsOut)
    (noRst : seg.header.rst = false) {r : TCPReceiver} (run : b.conn.receiver.segmentReceived? seg = some r) :
    Link a (b.receive r) := by
  have progress := h.progress member noRst run
  have position := progress.ackPosition_le
  obtain ⟨new, pending, piece, first⟩ := progress.appends
  refine ⟨h.sends, h.closed, h.short, progress.receives, ?_, fun seg member noRst ack => ?_,
    Nat.le_trans h.acked position⟩
  · show b.taken ++ r.streamOut.pending = _
    have bytes := h.bytes
    rw [TCPConnection.inboundStream] at bytes
    rw [pending, ← List.append_assoc, bytes]
    show _ = a.written.take r.reassembler.firstIndex
    rw [first, take_append_piece piece]
  · obtain ⟨m, bound, number⟩ := h.acks seg member noRst ack
    exact ⟨m, Nat.le_trans bound position, number⟩

/-- The reader of `b` takes bytes. -/
theorem Link.read (h : Link a b) (len : Nat) : Link a { b with
    conn := b.conn.popInbound len
    taken := b.taken ++ b.conn.inboundStream.peekOutput len } := by
  refine ⟨h.sends, h.closed, h.short, h.receives.pop len, ?_, h.acks, h.acked⟩
  have bytes := h.bytes
  rw [← ByteStream.peek_append_pop _ len, ← List.append_assoc] at bytes
  exact bytes

/-- What the sender makes has no acknowledgment yet. -/
theorem Endpoint.Sends.queue_plain (h : a.Sends) {base : TCPSegment} (queued : base ∈ a.conn.sender.segmentsOut) :
    base.header.ack = false := by
  rcases h.queue base queued with created | ⟨n, -, rfl⟩
  · exact (h.tiled.plain base created).1
  · rfl

/-- The acknowledgment a segment is completed with. -/
theorem outgoing_ack {c : TCPConnection} {base : TCPSegment} {S : List UInt8} {x : WrappingInt32} {finSent : Prop}
    (h : c.receiver.Receives S x finSent) (plain : base.header.ack = false)
    (noRst : (c.outgoing base).header.rst = false) :
    (c.outgoing base).header.ack = c.receiver.syn ∧
      (c.receiver.syn = true → (c.outgoing base).header.ackno = wrap c.receiver.ackPosition x) := by
  have ackno := h.ackno
  unfold TCPConnection.outgoing at noRst ⊢
  cases rst : c.rst with
  | true => simp [rst] at noRst
  | false =>
    cases syn : c.receiver.syn with
    | true =>
      rw [syn, if_pos rfl] at ackno
      simp [ackno]
    | false =>
      rw [syn, if_neg (by decide)] at ackno
      simp [ackno, plain]

/-- What `b` puts out acknowledges what it has. -/
theorem Link.judge_receiver (h : Link a b) (sends : b.Sends) : Link a (b.on (·.judgeDo)) := by
  have j := Endpoint.judged b.conn
  have position : (b.on (·.judgeDo)).conn.receiver.ackPosition = b.conn.receiver.ackPosition := by
    show b.conn.judgeDo.receiver.ackPosition = _
    rcases j.receiver with same | error
    · rw [same]
    · rw [error]
      rfl
  refine ⟨h.sends, h.closed, h.short, ?_, ?_, fun seg member noRst ack => ?_, ?_⟩
  · show b.conn.judgeDo.receiver.Receives _ _ _
    rcases j.receiver with same | error
    · rw [same]
      exact h.receives
    · rw [error]
      exact h.receives.setError
  · show b.taken ++ b.conn.judgeDo.receiver.streamOut.pending =
      a.written.take b.conn.judgeDo.receiver.reassembler.firstIndex
    rcases j.receiver with same | error
    · rw [same]
      exact h.bytes
    · rw [error]
      exact h.bytes
  · rw [position]
    obtain ⟨new, out, pulled⟩ := j.out
    rw [show (b.on (·.judgeDo)).conn.segmentsOut = b.conn.segmentsOut ++ new from out] at member
    rcases List.mem_append.1 member with old | fresh
    · exact h.acks seg old noRst ack
    · rcases pulled seg fresh with rst | ⟨base, queued, rfl⟩
      · rw [rst] at noRst
        cases noRst
      · obtain ⟨isAck, number⟩ := outgoing_ack h.receives (sends.queue_plain queued) noRst
        exact ⟨_, Nat.le_refl _, number (isAck.symm.trans ack)⟩
  · rw [position]
    exact h.acked

end Link

end Sponge
