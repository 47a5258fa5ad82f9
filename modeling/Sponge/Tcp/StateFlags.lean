import Sponge.Tcp.InOrder
import Sponge.Tcp.OfficialStates
import Sponge.Tcp.RetransmissionTimer

/-!
# The summaries and the flags

`TCPState` recomputes the phase of each stream from counters, while the connection
decides by `_syned`, `_fined` and the receiver's `_fin`. The two agree, whatever
segments arrive and in whatever order, as long as nothing is written behind the end
of the stream and the counters have not wrapped: they are those of the tiling
(`Sends`), and the receiver's flags are consistent (`Flagged`).
-/

namespace Sponge

open TCPConnection (Op)

namespace TCPSender

section Tiled

variable {created : List TCPSegment} {written : List UInt8} {s : TCPSender}

/-- The summary's last three values, by the FIN and the numbers acknowledged. -/
theorem Tiled.summary_iff (h : Tiled created written s) (short : written.length + 2 < word64) (closed : s.Closed)
    (fine : s.stream.error = false) :
    (s.stateSummary = .closed ↔ s.syned = false) ∧ (s.stateSummary = .finAcked ↔ s.fullFined = true) ∧
      (s.stateSummary = .finSent ↔
        s.fined = true ∧ 0 < s.lastAckedAbsSeqno ∧ s.lastAckedAbsSeqno < s.nextAbsSeqno) := by
  have few : seqLength created < word64 := Nat.lt_of_le_of_lt h.seqLength_le short
  have acked := h.flight.acked_le_iff.2 few
  rw [h.stateSummary short closed fine, ← h.next_eq_zero few, fullFined, Bool.and_eq_true, beq_iff_eq]
  by_cases none : s.nextAbsSeqno = 0
  · have unfinished : s.fined = false := Bool.eq_false_iff.2 fun fined => h.fined_next few fined none
    simp [none, unfinished]
  rw [if_neg none]
  by_cases unheard : s.lastAckedAbsSeqno = 0
  · simp [none, unheard]
  rw [if_neg unheard]
  cases s.fined with
  | false => simp [none]
  | true =>
    by_cases level : s.nextAbsSeqno = s.lastAckedAbsSeqno
    · simp [level, unheard]
    · have behind : 0 < s.lastAckedAbsSeqno ∧ s.lastAckedAbsSeqno < s.nextAbsSeqno := by omega
      simp [none, level, behind]

end Tiled

end TCPSender

namespace TCPConnection

/-- What the summaries say, in terms of the flags. -/
structure SummaryAgrees (c : TCPConnection) (synAccepted : Bool) : Prop where
  closed : c.sender.stateSummary = .closed ↔ c.sender.syned = false
  finAcked : c.sender.stateSummary = .finAcked ↔ c.sender.fullFined = true
  finSent : c.sender.stateSummary = .finSent ↔
    c.sender.fined = true ∧ 0 < c.sender.lastAckedAbsSeqno ∧ c.sender.lastAckedAbsSeqno < c.sender.nextAbsSeqno
  finRecv : c.receiver.stateSummary = .finRecv ↔ c.receiver.fullFined = true
  listen : c.receiver.stateSummary = .listen ↔ synAccepted = false

end TCPConnection

namespace Endpoint

/-- The receiver accepts a SYN with this operation. -/
def acceptsSyn (e : Endpoint) : Op → Bool
  | .segmentReceived seg => !seg.header.rst && seg.header.syn && !e.conn.receiver.ignores seg
  | _ => false

/-- An endpoint, and whether its receiver has accepted a SYN. -/
structure Greeted where
  endpoint : Endpoint
  synAccepted : Bool := false
  deriving DecidableEq

def Greeted.step (w : Greeted) (op : Op) : Option Greeted :=
  (w.endpoint.step op).map fun endpoint =>
    { endpoint, synAccepted := w.synAccepted || w.endpoint.acceptsSyn op }

section Steps

variable {e e' : Endpoint} {op : Op}

/-- The receiver's flag is set by the SYN it accepts, and by nothing else. -/
theorem step_syn (flagged : e.conn.receiver.Flagged) (run : e.step op = some e') :
    e'.conn.receiver.syn = (e.conn.receiver.syn || e.acceptsSyn op) := by
  rcases step_cases run with ⟨p, prepared, rfl⟩ | ⟨len, rfl, rfl⟩
  · obtain ⟨found, finds, ready⟩ := prepare?_readies prepared
    have judge : p.conn.judgeDo.receiver.syn = found.receiver.syn := by
      rw [← ready.receiver]
      rcases (judged p.conn).receiver with same | error
      · rw [same]
      · rw [error]
        rfl
    refine judge.trans ?_
    cases finds with
    | same noSegment =>
      cases op with
      | segmentReceived seg => exact absurd rfl (noSegment seg)
      | connect | write | endInputStream | tick | read => exact (Bool.or_false _).symm
    | reset rst => simp [acceptsSyn, rst]
    | @received seg receiver noRst taken =>
      rw [(flagged.took taken).syn]
      -- before the SYN no SYN is ignored
      cases syn : e.conn.receiver.syn <;> cases isSyn : seg.header.syn <;>
        simp [acceptsSyn, TCPReceiver.ignores, noRst, syn, isSyn]
  · exact (Bool.or_false _).symm

/-- The invariant. -/
structure Summarised (w : Greeted) : Prop where
  sends : w.endpoint.Sends
  ends : Ends w.endpoint.conn
  closed : w.endpoint.conn.sender.Closed
  syn : w.endpoint.conn.receiver.syn = w.synAccepted

theorem Summarised.step {w w' : Greeted} (h : Summarised w) (inTime : WritesInTime w.endpoint op)
    (run : w.step op = some w') : Summarised w' := by
  obtain ⟨e, stepped, rfl⟩ := Option.map_eq_some_iff.1 run
  refine ⟨h.sends.step stepped, h.ends.step stepped, h.sends.step_closed h.closed inTime stepped, ?_⟩
  rw [step_syn h.ends.flagged stepped, h.syn]

end Steps

theorem Summarised.of_reaches {cfg : TCPConfig} {w : Greeted}
    (run : Reaches Greeted.step (fun w op => WritesInTime w.endpoint op) { endpoint := .new cfg } w) : Summarised w := by
  refine run.invariant ⟨.new cfg, .new cfg, ?_, rfl⟩ fun _ _ _ summarised inTime step => summarised.step inTime step
  intro fined
  cases fined

theorem Summarised.agrees {w : Greeted} (h : Summarised w) (short : w.endpoint.written.length + 2 < 2 ^ 64)
    (fine : w.endpoint.conn.inboundStream.error = false) : w.endpoint.conn.SummaryAgrees w.synAccepted := by
  have flagged := h.ends.flagged
  obtain ⟨closed, finAcked, finSent⟩ := h.sends.tiled.summary_iff short h.closed (h.ends.errors.trans fine)
  have receiver := flagged.stateSummary fine
  have waiting : w.endpoint.conn.receiver.syn = false → w.endpoint.conn.receiver.fullFined = false := by
    intro unsynced
    rw [TCPReceiver.fullFined, flagged.waiting unsynced]
    rfl
  rw [h.syn] at receiver waiting
  refine ⟨closed, finAcked, finSent, ?_, ?_⟩
  · rw [receiver]
    cases accepted : w.synAccepted with
    | false => simp [waiting accepted]
    | true => cases w.endpoint.conn.receiver.fullFined <;> simp
  · rw [receiver]
    cases w.synAccepted <;> cases w.endpoint.conn.receiver.fullFined <;> simp

/-- **The summaries agree with the flags**, in every state without a stream error of a run in which nothing is written
after `end_input_stream`, as long as `bytes_written() + 2` is a word. -/
theorem summary_agrees (cfg : TCPConfig) (w : Greeted)
    (run : Reaches Greeted.step (fun w op => WritesInTime w.endpoint op) { endpoint := .new cfg } w)
    (fine : w.endpoint.conn.inboundStream.error = false) (short : w.endpoint.written.length + 2 < 2 ^ 64) :
    w.endpoint.conn.SummaryAgrees w.synAccepted := by
  exact (Summarised.of_reaches run).agrees short fine

/-- The own FIN is sent and not acknowledged, and the peer's has arrived ahead of a byte that is missing. -/
theorem summary_agrees_early_fin :
    ∃ w, follow Greeted.step (fun w op => WritesInTime w.endpoint op) { endpoint := .new { isn := .ofNat 0 } }
        [.connect, .segmentReceived { header := { syn := true, ack := true, ackno := .ofNat 1, win := 10 } },
          .write [1], .endInputStream, .segmentReceived { header := { seqno := .ofNat 2, fin := true } }] = some w ∧
      w.endpoint.conn.sender.stateSummary = .finSent ∧ w.endpoint.conn.receiver.stateSummary = .synRecv ∧
      w.endpoint.conn.SummaryAgrees w.synAccepted := by
  obtain ⟨w, run, seen⟩ := Option.map_eq_some_iff.1 (show (follow Greeted.step (fun w op => WritesInTime w.endpoint op)
    { endpoint := .new { isn := .ofNat 0 } }
    [.connect, .segmentReceived { header := { syn := true, ack := true, ackno := .ofNat 1, win := 10 } },
      .write [1], .endInputStream, .segmentReceived { header := { seqno := .ofNat 2, fin := true } }]).map
      (fun w => (w.endpoint.conn.inboundStream.error, w.endpoint.written, w.endpoint.conn.sender.stateSummary,
        w.endpoint.conn.receiver.stateSummary)) = some (false, [1], .finSent, .synRecv) by decide +kernel)
  simp only [Prod.mk.injEq] at seen
  obtain ⟨fine, written, sender, receiver⟩ := seen
  exact ⟨w, run, sender, receiver, summary_agrees _ w (Reaches.start.follow run) fine (by rw [written]; decide)⟩

/-! ### A stream of `2 ^ 64` numbers -/

/-- A bare acknowledgment of `n` numbers, with a window of one. -/
def bareAck (n : Nat) (isn : WrappingInt32) : TCPSegment where
  header := { seqno := .ofNat 1, ack := true, ackno := wrap n isn, win := 1 }

/-- The receiver that has taken a SYN numbered 0. -/
def opened : TCPReceiver := { TCPReceiver.new 1 with syn := true, lastAckno := some (.ofNat 1) }

/-- An open connection that has put out all that its sender made. -/
structure Steady (state : TCPSender → Prop) (c : TCPConnection) : Prop where
  sender : state c.sender
  queue : c.sender.segmentsOut = []
  tries : c.sender.resendTryTimes = 0
  active : c.active = true
  noRst : c.rst = false
  receiver : c.receiver = opened

/-- It does not look at the acknowledgment number. -/
theorem opened_takes (n : Nat) (isn : WrappingInt32) : opened.segmentReceived? (bareAck n isn) = some opened := by
  have taken : opened.segmentReceived? (bareAck 0 (.ofNat 0)) = some opened := by decide +kernel
  exact taken

section Rounds

variable {e : Endpoint} {n : Nat}

/-- The byte of a round is written. -/
theorem Steady.write (h : Steady (·.Level n) e.conn) (below : n < word64) :
    ∃ e', e.step (.write [0]) = some e' ∧ Steady (·.Pushed n) e'.conn := by
  have pushed := h.sender.pushed below
  have sender : (e.accept [0]).fillIfSyned = (e.accept [0]).fill :=
    if_pos (show (e.accept [0]).conn.sender.syned = true from h.sender.syned)
  have tries : e.conn.sender.pushByte.resendTryTimes = 0 := by
    rw [h.sender.pushByte below]
    exact h.tries
  have unfinished : e.conn.sender.pushByte.fullFined = false := by
    rw [TCPSender.fullFined, pushed.unfinished]
    rfl
  refine ⟨_, step_write e [0], ?_⟩
  rw [on, sender, TCPConnection.judgeDo_pull (c := (e.accept [0]).fill.conn) h.active h.noRst tries unfinished]
  obtain ⟨syned, unfinished, next, acked, sent, drained, unended, room⟩ := pushed
  exact ⟨⟨syned, unfinished, next, acked, sent, drained, unended, room⟩, rfl, tries, h.active, h.noRst, h.receiver⟩

/-- The byte is acknowledged. -/
theorem Steady.acknowledged (h : Steady (·.Pushed n) e.conn) (below : n + 1 < word64) :
    ∃ e', e.step (.segmentReceived (bareAck (n + 1) e.conn.sender.isn)) = some e' ∧ Steady (·.Level (n + 1)) e'.conn := by
  have level := h.sender.acknowledged below
  have queue : (e.conn.sender.ackReceived (wrap (n + 1) e.conn.sender.isn) 1).segmentsOut = [] :=
    (e.conn.sender.ackReceived_spec _ _).segmentsOut.trans h.queue
  have tries : (e.conn.sender.ackReceived (wrap (n + 1) e.conn.sender.isn) 1).resendTryTimes = 0 := by
    have fewer := (TCPSender.calm_ackReceived e.conn.sender (wrap (n + 1) e.conn.sender.isn) 1).tries
    have none := h.tries
    omega
  have unfinished : (e.conn.sender.ackReceived (wrap (n + 1) e.conn.sender.isn) 1).fullFined = false := by
    rw [TCPSender.fullFined, level.unfinished]
    rfl
  have received : e.conn.receiver.segmentReceived? (bareAck (n + 1) e.conn.sender.isn) = some opened := by
    rw [h.receiver]
    exact opened_takes _ _
  have fills := level.fillWindow
  generalize acked : e.conn.sender.ackReceived (wrap (n + 1) e.conn.sender.isn) 1 = s at *
  have reacts : ((e.receive opened).react (bareAck (n + 1) e.conn.sender.isn)).conn =
      { (e.receive opened).conn with sender := s } := by
    have going : opened.fullFined = false := rfl
    have number : opened.ackno = some (.ofNat 1) := rfl
    have noProbe : (WrappingInt32.ofNat 1 == (WrappingInt32.ofNat 1).sub 1) = false := by decide
    simp [react, receive, on, TCPConnection.ackSender, bareAck, fillIfSyned, fill, TCPConnection.noteLinger,
      TCPConnection.replyEmpty, TCPConnection.repliesEmpty, TCPSegment.lengthInSequenceSpace, acked, level.syned, fills,
      going, number, noProbe]
  refine ⟨_, by rw [step_segment e rfl, received, Option.map_some], ?_⟩
  rw [on, reacts, TCPConnection.judgeDo_pull (c := { (e.receive opened).conn with sender := s }) h.active h.noRst tries
    unfinished]
  obtain ⟨syned, unfinished, next, acked, sent, window, drained, unended, room⟩ := level
  exact ⟨⟨syned, unfinished, next, acked, sent, window, drained, unended, room⟩, rfl, tries, h.active, h.noRst, rfl⟩

/-- **Any number of numbers** that is a word can be sent and acknowledged. -/
theorem steady_reached (n : Nat) (below : n + 1 < word64) :
    ∃ w, Reaches Greeted.step (fun w op => WritesInTime w.endpoint op)
      { endpoint := .new { isn := .ofNat 0, recvCapacity := 1, recvFits := by decide } } w ∧
        Steady (·.Level (n + 1)) w.endpoint.conn := by
  induction n with
  | zero =>
    obtain ⟨w, run, seen⟩ := Option.map_eq_some_iff.1 (show (follow Greeted.step (fun w op => WritesInTime w.endpoint op)
      { endpoint := .new { isn := .ofNat 0, recvCapacity := 1, recvFits := by decide } }
      [.connect, .segmentReceived { header := { syn := true, ack := true, ackno := .ofNat 1, win := 1 } }]).map
        (fun w => decide (w.endpoint.conn.sender.Level 1 ∧ w.endpoint.conn.sender.segmentsOut = [] ∧
          w.endpoint.conn.sender.resendTryTimes = 0 ∧ w.endpoint.conn.active = true ∧ w.endpoint.conn.rst = false ∧
          w.endpoint.conn.receiver = opened)) = some true by decide +kernel)
    obtain ⟨level, queue, tries, active, noRst, receiver⟩ := of_decide_eq_true seen
    exact ⟨w, Reaches.start.follow run, level, queue, tries, active, noRst, receiver⟩
  | succ n ih =>
    obtain ⟨w, reached, steady⟩ := ih (by omega)
    obtain ⟨e, wrote, sending⟩ := steady.write (by omega)
    obtain ⟨e', acked, level⟩ := sending.acknowledged below
    have inTime : WritesInTime w.endpoint (.write [0]) := steady.sender.unended
    have first := reached.step inTime (by rw [Greeted.step, wrote, Option.map_some])
    have free : WritesInTime e (.segmentReceived (bareAck (n + 1 + 1) e.conn.sender.isn)) := trivial
    exact ⟨_, first.step free (by rw [Greeted.step, acked, Option.map_some]), level⟩

end Rounds

/-- The byte after `2 ^ 64 - 1` numbers that were sent and acknowledged takes the sender's summary back to `CLOSED`. -/
theorem summary_closed_again :
    ¬ ∀ (cfg : TCPConfig) (w : Greeted),
      Reaches Greeted.step (fun w op => WritesInTime w.endpoint op) { endpoint := .new cfg } w →
      w.endpoint.conn.inboundStream.error = false → w.endpoint.conn.SummaryAgrees w.synAccepted := by
  intro claim
  obtain ⟨w, reached, steady⟩ := steady_reached (2 ^ 64 - 2) (by decide)
  obtain ⟨e, wrote, sending⟩ := steady.write (by decide)
  have inTime : WritesInTime w.endpoint (.write [0]) := steady.sender.unended
  have run := reached.step inTime (by rw [Greeted.step, wrote, Option.map_some])
  have fine : e.conn.inboundStream.error = false := by
    rw [TCPConnection.inboundStream, sending.receiver]
    rfl
  have agrees := claim _ _ run fine
  have noError : e.conn.sender.stream.error = false := (Summarised.of_reaches run).ends.errors.trans fine
  have closed : e.conn.sender.stateSummary = .closed := by
    rw [TCPSender.stateSummary, noError, if_neg (by decide), if_pos (sending.sender.next.trans (by decide))]
  have unsyned := agrees.closed.1 closed
  rw [show e.conn.sender.syned = true from sending.sender.syned] at unsyned
  cases unsyned

end Endpoint

end Sponge
