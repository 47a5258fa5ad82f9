import Sponge.Tcp.Link

/-!
# How a connection closes

`Closes a b` is what holds of the flags of `a`, given its peer `b`. The linger
flag is cleared only when the peer's stream has ended and, by `segment_received`,
before the own FIN is out. So while `a` is active with the flag cleared, every
FIN it has put out acknowledges the FIN of `b` (`fins`). A connection that is
inactive without an error has finished both streams (`clean`).
-/

namespace Sponge

open TCPSender (SameData Acked)

/-- The flags of `a`, with peer `b`. -/
structure Closes (a b : Endpoint) : Prop where
  linger : a.conn.lingerAfterStreamsFinish = false → a.conn.receiver.fullFined = true
  fins : a.conn.active = true → a.conn.lingerAfterStreamsFinish = false → ∀ seg ∈ a.conn.segmentsOut,
    seg.header.rst = false → seg.header.fin = true →
      seg.header.ack = true ∧ seg.header.ackno = wrap (b.written.length + 2) b.conn.sender.isn
  clean : a.conn.active = false → a.conn.inboundStream.error = false →
    a.conn.sender.fullFined = true ∧ a.conn.receiver.fullFined = true

namespace TCPSender

variable {s t : TCPSender}

theorem fullFined_iff (s : TCPSender) :
    s.fullFined = true ↔ s.fined = true ∧ s.nextAbsSeqno = s.lastAckedAbsSeqno := by
  rw [fullFined, Bool.and_eq_true, beq_iff_eq]

theorem fullFined_of_same (same : SameData s t) (h : s.fullFined = true) : t.fullFined = true := by
  rw [fullFined_iff] at h ⊢
  rw [same.fined, same.next, same.acked]
  exact h

theorem fullFined_of_acked {tmp : Nat} {window : UInt16} (a : Acked s tmp window t) (h : s.fullFined = true) :
    t.fullFined = true := by
  rw [fullFined_iff] at h ⊢
  rw [a.fined, a.next, a.acked, if_neg (by omega)]
  exact h

theorem fullFined_fillWindow (h : s.fullFined = true) : s.fillWindow.fullFined = true := by
  rw [fillWindow_fined ((fullFined_iff s).1 h).1]
  exact h

end TCPSender

section Closes

variable {a a' b : Endpoint}

theorem Closes.new (cfgA cfgB : TCPConfig) : Closes (.new cfgA) (.new cfgB) where
  linger := by
    intro linger
    cases linger
  fins := by
    intro _ linger
    cases linger
  clean := by
    intro inactive
    cases inactive

/-- A phase of `a` that only changes the sender, and does not undo its end. -/
theorem Closes.of_sender (h : Closes a b) (receiver : a'.conn.receiver = a.conn.receiver)
    (out : a'.conn.segmentsOut = a.conn.segmentsOut) (active : a'.conn.active = a.conn.active)
    (linger : a'.conn.lingerAfterStreamsFinish = a.conn.lingerAfterStreamsFinish)
    (full : a.conn.sender.fullFined = true → a'.conn.sender.fullFined = true) : Closes a' b := by
  refine ⟨?_, ?_, ?_⟩
  · rw [linger, receiver]
    exact h.linger
  · rw [active, linger, out]
    exact h.fins
  · rw [active, TCPConnection.inboundStream, receiver]
    intro inactive noError
    obtain ⟨sender, received⟩ := h.clean inactive noError
    exact ⟨full sender, received⟩

/-- A phase of the peer that leaves what it has written. -/
theorem Closes.of_peer {b' : Endpoint} (h : Closes a b) (written : b'.written = b.written)
    (isn : b'.conn.sender.isn = b.conn.sender.isn) : Closes a b' := by
  refine ⟨h.linger, ?_, h.clean⟩
  rw [written, isn]
  exact h.fins

/-- The peer writes before its end, which the flag of `a` excludes. -/
theorem Closes.accept_peer (h : Closes a b) (link : Link b a) {data : List UInt8}
    (more : b.conn.sender.stream.inputEnded = false) : Closes a (b.accept data) := by
  refine ⟨h.linger, fun _ linger => ?_, h.clean⟩
  have ended := link.receives.fullFined.symm.trans (h.linger linger)
  have fined := (link.receives.complete ended).1
  rw [(link.closed fined).1] at more
  cases more

/-- A phase of `a` that changes the receiver, and does not undo its end. -/
theorem Closes.of_receiver (h : Closes a b) {c : TCPConnection} (taken : List UInt8) (sender : c.sender = a.conn.sender)
    (out : c.segmentsOut = a.conn.segmentsOut) (active : c.active = a.conn.active)
    (linger : c.lingerAfterStreamsFinish = a.conn.lingerAfterStreamsFinish)
    (error : c.inboundStream.error = a.conn.inboundStream.error)
    (full : a.conn.receiver.fullFined = true → c.receiver.fullFined = true) : Closes { a with conn := c, taken } b := by
  refine ⟨?_, ?_, ?_⟩
  · simp only [linger]
    exact fun off => full (h.linger off)
  · simp only [active, linger, out]
    exact h.fins
  · simp only [active, error, sender]
    intro inactive noError
    obtain ⟨finished, received⟩ := h.clean inactive noError
    exact ⟨finished, full received⟩

/-- The flag is cleared before the own FIN is out. -/
theorem Closes.noteLinger (h : Closes a b) (sends : a.Sends) : Closes (a.on (·.noteLinger)) b := by
  show Closes { a with conn := a.conn.noteLinger } b
  unfold TCPConnection.noteLinger
  split
  · rename_i cleared
    rw [Bool.and_eq_true, Bool.not_eq_true'] at cleared
    obtain ⟨received, unfinished⟩ := cleared
    refine ⟨fun _ => received, fun _ _ seg member noRst isFin => ?_, h.clean⟩
    -- a FIN put out was created, and then the sender has sent its FIN
    rcases sends.out seg member with rst | ⟨base, made, same⟩
    · rw [rst] at noRst
      cases noRst
    · rw [same.fin] at isFin
      rcases made with created | ⟨n, -, rfl⟩
      · obtain ⟨k, found⟩ := List.mem_iff_getElem?.1 created
        have fined := (sends.tiled.fin k base found isFin).2
        rw [unfinished] at fined
        cases fined
      · cases isFin
  · exact h

/-- `judge_do` completes a FIN with the final acknowledgment, and closes without an error only a finished connection. -/
theorem Closes.judge (h : Closes a b) (sends : a.Sends) (link : Link b a) : Closes (a.on (·.judgeDo)) b := by
  have j := Endpoint.judged a.conn
  have received : a.conn.judgeDo.receiver.fullFined = a.conn.receiver.fullFined := by
    rcases j.receiver with same | error
    · rw [same]
    · rw [error]
      rfl
  refine ⟨fun off => ?_, fun alive off seg member noRst isFin => ?_, fun inactive noError => ?_⟩
  · show a.conn.judgeDo.receiver.fullFined = true
    rw [received]
    rcases j.linger with same | full
    · exact h.linger (same.symm.trans off)
    · exact full
  · obtain ⟨active, -, same, -⟩ := j.alive alive
    have cleared := same.symm.trans off
    obtain ⟨new, out, pulled⟩ := j.out
    rw [show (a.on (·.judgeDo)).conn.segmentsOut = a.conn.segmentsOut ++ new from out] at member
    rcases List.mem_append.1 member with old | fresh
    · exact h.fins active cleared seg old noRst isFin
    · rcases pulled seg fresh with rst | ⟨base, queued, rfl⟩
      · rw [rst] at noRst
        cases noRst
      · obtain ⟨isAck, number⟩ := outgoing_ack link.receives (sends.queue_plain queued) noRst
        obtain ⟨syn, position⟩ := link.receives.ackPosition_of_fullFined (h.linger cleared)
        rw [isAck, number syn, position]
        exact ⟨syn, rfl⟩
  · cases active : a.conn.active with
    | true =>
      obtain ⟨-, finished, ready, same⟩ := j.clean active inactive noError
      refine ⟨TCPSender.fullFined_of_same j.sender finished, received.trans ?_⟩
      exact ready.elim h.linger id
    | false =>
      have idle := j.dead active
      rw [show (a.on (·.judgeDo)).conn = a.conn from idle] at noError ⊢
      exact h.clean active noError

end Closes

end Sponge
