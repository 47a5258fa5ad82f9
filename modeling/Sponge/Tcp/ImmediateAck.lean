import Sponge.Tcp.OfficialStates
import Sponge.Tcp.RetransmissionTimer
import Sponge.Tcp.RightEdge

/-!
# A segment that occupies sequence numbers is acknowledged at once

The reply is a SYN/ACK from `connect`, what `fill_window` put out, or an empty
segment: in each case the sender's queue is not empty when `judge_do` is called.
An open connection has not been reset and has not run out of attempts, so
`judge_do` pulls that queue with the receiver's number and window, whether it
leaves the connection open or closes it.
-/

namespace Sponge

namespace TCPConnection

/-- The segment carries the number and the window of the connection's receiver. -/
structure Acknowledges (c : TCPConnection) (seg : TCPSegment) : Prop where
  ack : seg.header.ack = true
  ackno : c.receiver.ackno = some seg.header.ackno
  win : seg.header.win.toNat = min c.receiver.windowSize 65535

/-- A connection that was neither reset nor has run out of attempts. -/
structure Healthy (c : TCPConnection) : Prop where
  active : c.active = true
  rst : c.rst = false
  attempts : c.sender.resendTryTimes ≤ TCPConfig.maxRetxAttempts

section Judge

variable {c : TCPConnection}

/-- What `judge_do` leaves open is healthy. -/
theorem judgeDo_healthy (alive : c.judgeDo.active = true) : c.judgeDo.Healthy := by
  have pulled := (judgeDo_alive alive).1
  have active := ((Endpoint.judged c).alive alive).1
  rw [judgeDo, if_neg (by simp [active])] at alive
  by_cases rst : c.rst = true
  · rw [if_pos rst] at alive
    cases alive
  · rw [if_neg rst] at alive
    by_cases many : TCPConfig.maxRetxAttempts < c.sender.resendTryTimes
    · rw [if_pos many] at alive
      cases alive
    · rw [pulled]
      exact ⟨active, Bool.eq_false_iff.2 rst, Nat.le_of_not_lt many⟩

/-- `judge_do` of a healthy connection pulls what the sender has put out, also when it closes the connection. -/
theorem Healthy.pulls (h : c.Healthy) :
    c.judgeDo.segmentsOut = c.segmentsOut ++ c.sender.segmentsOut.map c.outgoing ∧
      c.judgeDo.receiver = c.receiver := by
  have closes : c.sender.fullFined = true → ∀ linger : Bool,
      { c with lingerAfterStreamsFinish := linger }.closeCleanly.segmentsOut =
        c.segmentsOut ++ c.sender.segmentsOut.map c.outgoing := by
    intro finished linger
    -- the FIN is out, so the last `fill_window` adds nothing
    have idle := TCPSender.fillWindow_fined (Bool.and_eq_true_iff.1 finished).1
    simp only [closeCleanly, idle]
    rfl
  rw [judgeDo, if_neg (by simp [h.active]), if_neg (by simp [h.rst]), if_neg (Nat.not_lt.2 h.attempts)]
  by_cases lingered : c.lingered = true
  · rw [if_pos lingered]
    simp only [TCPConnection.lingered, Bool.and_eq_true] at lingered
    exact ⟨closes lingered.1.1.2 false, rfl⟩
  · rw [if_neg lingered]
    by_cases passive : (!c.lingerAfterStreamsFinish && c.sender.fullFined) = true
    · rw [if_pos passive]
      exact ⟨closes (Bool.and_eq_true_iff.1 passive).2 c.lingerAfterStreamsFinish, rfl⟩
    · rw [if_neg passive]
      exact ⟨rfl, rfl⟩

/-- A segment of a connection that was not reset acknowledges, once the receiver has a number. -/
theorem acknowledges_outgoing (noRst : c.rst = false) {ackno : WrappingInt32} (number : c.receiver.ackno = some ackno)
    (seg : TCPSegment) : c.Acknowledges (c.outgoing seg) := by
  have out : c.outgoing seg = { seg with header := { seg.header with ack := true, ackno, win := c.advertised } } := by
    simp [outgoing, noRst, number]
  rw [out]
  exact ⟨rfl, number, c.toNat_advertised⟩

theorem Healthy.acknowledges (h : c.Healthy) (queue : c.sender.segmentsOut ≠ [])
    (number : c.judgeDo.receiver.ackno ≠ none) :
    ∃ new, c.judgeDo.segmentsOut = c.segmentsOut ++ new ∧ ∃ reply ∈ new, c.judgeDo.Acknowledges reply := by
  obtain ⟨out, receiver⟩ := h.pulls
  obtain ⟨first, rest, queued⟩ := List.exists_cons_of_ne_nil queue
  rw [receiver] at number
  obtain ⟨ackno, some⟩ := Option.ne_none_iff_exists'.1 number
  refine ⟨_, out, c.outgoing first, by simp [queued], ?_⟩
  obtain ⟨ack, number, win⟩ := acknowledges_outgoing h.rst some first
  exact ⟨ack, by rw [receiver]; exact number, by rw [receiver]; exact win⟩

end Judge

/-- An empty segment is sent when nothing else answers a segment that occupies sequence numbers. -/
theorem replyEmpty_queue (c : TCPConnection) {seg : TCPSegment} (occupies : 0 < seg.lengthInSequenceSpace) :
    (c.replyEmpty seg).sender.segmentsOut ≠ [] := by
  unfold replyEmpty
  split
  · simp [TCPSender.sendEmptySegment]
  · rename_i other
    intro empty
    refine other ?_
    simp [repliesEmpty, empty, Nat.ne_of_gt occupies]

end TCPConnection

namespace Endpoint

open TCPConnection (Op Healthy Acknowledges)
open TCPSender (Calm)

section React

variable {e e' : Endpoint} {seg : TCPSegment}

theorem fillIfSyned_calm (e : Endpoint) : Calm e.conn.sender e.fillIfSyned.conn.sender := by
  unfold fillIfSyned
  split
  · exact e.conn.sender.fillWindow_fills.calm
  · exact .refl _

theorem react_calm (e : Endpoint) (seg : TCPSegment) : Calm e.conn.sender (e.react seg).conn.sender := by
  unfold react
  split
  · exact e.conn.sender.fillWindow_fills.calm
  · have acked : Calm e.conn.sender (e.conn.ackSender seg).sender := by
      unfold TCPConnection.ackSender
      split
      · exact TCPSender.calm_ackReceived _ _ _
      · exact .refl _
    have replied : ∀ c : TCPConnection, Calm c.sender (c.replyEmpty seg).sender := by
      intro c
      unfold TCPConnection.replyEmpty
      split <;> exact .of_same rfl rfl rfl
    have filled := fillIfSyned_calm (e.on (·.ackSender seg))
    refine (acked.trans filled).trans (.trans ?_ (replied _))
    simp only [on, noteLinger_sender]
    exact .refl _

/-- **Something is queued** in reply to a segment that occupies sequence numbers. -/
theorem Sends.react_queue (h : e.Sends) (occupies : 0 < seg.lengthInSequenceSpace) :
    (e.react seg).conn.sender.segmentsOut ≠ [] := by
  rw [Endpoint.react]
  split
  · rename_i opens
    have unsyned : e.conn.sender.syned = false := by simpa using (Bool.and_eq_true_iff.1 opens).2
    obtain ⟨-, -, unfinished, next, acked⟩ := h.before unsyned
    have idle : e.conn.sender.bytesInFlight = 0 := by
      rw [TCPSender.bytesInFlight, next, acked]
      rfl
    obtain ⟨ex, fills⟩ := TCPSender.fillWindow_first unsyned unfinished idle
    obtain ⟨new, out⟩ := fills.out
    rw [Endpoint.fill, out, TCPSender.create_segmentsOut]
    simp
  · exact TCPConnection.replyEmpty_queue _ occupies

/-- An open endpoint acknowledges the segment in the same call. -/
theorem Sends.acknowledges (h : e.Sends) (healthy : e.conn.Healthy) (noRst : seg.header.rst = false)
    (occupies : 0 < seg.lengthInSequenceSpace) (run : e.step (.segmentReceived seg) = some e')
    (number : e'.conn.receiver.ackno ≠ none) :
    ∃ new, e'.conn.segmentsOut = e.conn.segmentsOut ++ new ∧ ∃ reply ∈ new, e'.conn.Acknowledges reply := by
  rw [step_segment e noRst] at run
  obtain ⟨r, -, rfl⟩ := Option.map_eq_some_iff.1 run
  have ready := readies_react (e.receive r) seg
  have reacted : ((e.receive r).react seg).conn.Healthy :=
    ⟨ready.active.trans healthy.active, ready.rst.trans healthy.rst,
      Nat.le_trans (react_calm (e.receive r) seg).tries healthy.attempts⟩
  obtain ⟨new, out, replies⟩ := reacted.acknowledges ((h.receive r).react_queue occupies) number
  refine ⟨new, ?_, replies⟩
  rw [show e.conn.segmentsOut = (e.receive r).conn.segmentsOut from rfl, ← ready.out]
  exact out

/-- An open endpoint is healthy. -/
theorem healthy_of_reaches {cfg : TCPConfig} {ok : Endpoint → Op → Prop} (run : Reaches Endpoint.step ok (.new cfg) e)
    (active : e.conn.active = true) : e.conn.Healthy := by
  induction run with
  | start => exact ⟨rfl, rfl, Nat.zero_le _⟩
  | step _ _ run ih =>
    rcases step_cases run with ⟨p, -, rfl⟩ | ⟨len, -, rfl⟩
    · exact TCPConnection.judgeDo_healthy active
    · have before := ih active
      exact ⟨before.active, before.rst, before.attempts⟩

end React

end Endpoint

end Sponge
