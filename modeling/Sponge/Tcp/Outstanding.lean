import Sponge.Tcp.SenderSpec

/-!
# The outstanding segments

`_sent` holds what is not fully acknowledged. Whatever numbers and windows
`ack_received` is given, its segments follow one another in the sequence space:
the first holds the first unacknowledged number and the last ends at the next
number to be sent. A timeout thus resends the segment that the peer waits for.
This is so until `2 ^ 64` numbers have been sent, and then no longer: the next
number is 0 again, below the last one acknowledged.

An acknowledgment of a number that was not sent moves nothing in the queue, but
the window that came with it is taken over before the number is looked at.
-/

namespace Sponge

namespace TCPSender

/-- The segments follow one another from `start` to `stop`. Each is numbered by its start and acknowledged by its end. -/
inductive Contiguous (isn : WrappingInt32) : Nat → List SentSegment → Nat → Prop where
  | nil (stop : Nat) : Contiguous isn stop [] stop
  | cons {start stop : Nat} {e : SentSegment} {rest : List SentSegment}
      (number : e.seg.header.seqno = wrap start isn) (ends : e.expectedAck = start + e.seg.lengthInSequenceSpace)
      (follows : Contiguous isn e.expectedAck rest stop) : Contiguous isn start (e :: rest) stop

section Contiguous

variable {isn : WrappingInt32} {start stop acked : Nat} {sent : List SentSegment}

theorem Contiguous.le (h : Contiguous isn start sent stop) : start ≤ stop := by
  induction h with
  | nil => exact Nat.le_refl _
  | cons _ ends _ ih => omega

theorem Contiguous.last (h : Contiguous isn start sent stop) {e : SentSegment} (last : sent.getLast? = some e) :
    e.expectedAck = stop := by
  induction h with
  | nil => cases last
  | @cons _ _ _ rest _ _ follows ih =>
    cases rest with
    | nil =>
      cases last
      cases follows
      rfl
    | cons next rest => exact ih (by simpa using last)

/-- What is left when the acknowledged segments are popped: nothing if all are, and otherwise a queue that begins at or
before the first unacknowledged number and whose front ends after it. -/
theorem Contiguous.dropWhile (h : Contiguous isn start sent stop) (begins : start ≤ acked) :
    (sent.dropWhile (fun e => decide (e.expectedAck ≤ acked)) = [] ∧ stop ≤ acked) ∨
      ∃ start' e rest, sent.dropWhile (fun e => decide (e.expectedAck ≤ acked)) = e :: rest ∧
        Contiguous isn start' (e :: rest) stop ∧ start' ≤ acked ∧ acked < e.expectedAck := by
  induction h with
  | nil => exact Or.inl ⟨rfl, begins⟩
  | @cons start stop e rest number ends follows ih =>
    by_cases covered : e.expectedAck ≤ acked
    · rw [List.dropWhile_cons_of_pos (by simpa using covered)]
      exact ih covered
    · rw [List.dropWhile_cons_of_neg (by simpa using covered)]
      exact Or.inr ⟨start, e, rest, rfl, .cons number ends follows, begins, by omega⟩

/-- Numbered segments, stamped, are contiguous. -/
theorem stamp_contiguous {segs : List TCPSegment}
    (numbered : ∀ k seg, segs[k]? = some seg → seg.header.seqno = wrap (start + seqLength (segs.take k)) isn) :
    Contiguous isn start (stamp start segs) (start + seqLength segs) := by
  induction segs generalizing start with
  | nil => exact .nil start
  | cons seg segs ih =>
    have length : seqLength (seg :: segs) = seg.lengthInSequenceSpace + seqLength segs := by simp [seqLength]
    rw [length, ← Nat.add_assoc]
    refine .cons (numbered 0 seg rfl) rfl (ih fun k next found => ?_)
    rw [numbered (k + 1) next found, List.take_succ_cons]
    simp [seqLength, Nat.add_assoc]

end Contiguous

/-- The queue is not empty: it runs from `start` to the next number to be sent, and its front holds the first
unacknowledged number. -/
structure Front (s : TCPSender) (start : Nat) (front : SentSegment) (rest : List SentSegment) : Prop where
  sent : s.sent = front :: rest
  contiguous : Contiguous s.isn start s.sent s.nextAbsSeqno
  begins : start ≤ s.lastAckedAbsSeqno
  unacked : s.lastAckedAbsSeqno < front.expectedAck
  last : ∀ e, s.sent.getLast? = some e → e.expectedAck = s.nextAbsSeqno

/-- The queue of outstanding segments is what the numbers sent and acknowledged say it is. -/
structure Outstanding (s : TCPSender) : Prop where
  acked : s.lastAckedAbsSeqno ≤ s.nextAbsSeqno
  flight : s.bytesInFlight = s.nextAbsSeqno - s.lastAckedAbsSeqno
  empty : s.sent = [] ↔ s.bytesInFlight = 0
  queue : s.sent ≠ [] → ∃ start front rest, s.Front start front rest
  resent : ∀ ms, ∀ seg ∈ appended s (s.tick ms), ∃ start front rest, s.Front start front rest ∧ seg = front.seg

section Queue

variable {created : List TCPSegment} {written : List UInt8} {s : TCPSender}

/-- The queue is empty and everything sent is acknowledged, or it has a front. -/
theorem Tiled.queue (h : Tiled created written s) (few : seqLength created < word64) :
    (s.sent = [] ∧ s.lastAckedAbsSeqno = s.nextAbsSeqno) ∨ ∃ start front rest, s.Front start front rest := by
  have stamped : Contiguous s.isn 0 (stamp 0 created) s.nextAbsSeqno := by
    rw [h.flight.next_eq few, ← Nat.zero_add (seqLength created)]
    refine stamp_contiguous fun k seg found => ?_
    rw [Nat.zero_add]
    exact h.numbered k seg found
  rcases stamped.dropWhile (Nat.zero_le s.lastAckedAbsSeqno) with ⟨none, all⟩ | ⟨start, e, rest, left, queue, begins, unacked⟩
  · have acked := h.flight.acked_le_iff.2 few
    exact Or.inl ⟨(h.sent_eq few).trans none, by omega⟩
  · have sent : s.sent = e :: rest := (h.sent_eq few).trans left
    rw [← sent] at queue
    exact Or.inr ⟨start, e, rest, sent, queue, begins, unacked, fun _ last => queue.last last⟩

/-- The front ends at or before the next number. -/
theorem Front.le {start : Nat} {front : SentSegment} {rest : List SentSegment} (h : s.Front start front rest) :
    front.expectedAck ≤ s.nextAbsSeqno := by
  have queue := h.contiguous
  rw [h.sent] at queue
  cases queue with
  | cons _ _ follows => exact follows.le

/-- Nothing is outstanding exactly when everything sent is acknowledged. -/
theorem Tiled.sent_nil (h : Tiled created written s) (few : seqLength created < word64) :
    s.sent = [] ↔ s.lastAckedAbsSeqno = s.nextAbsSeqno := by
  rcases h.queue few with ⟨none, all⟩ | ⟨start, front, rest, queue⟩
  · simp [none, all]
  · have some : s.sent ≠ [] := by simp [queue.sent]
    have unacked := queue.unacked
    have le := queue.le
    exact ⟨fun none => absurd none some, fun all => absurd all (by omega)⟩

theorem Tiled.outstanding (h : Tiled created written s) (few : seqLength created < word64) : s.Outstanding where
  acked := h.flight.acked_le_iff.2 few
  flight := by rw [h.flight.bytesInFlight, h.flight.next_eq few]
  empty := by
    have acked := h.flight.acked
    rw [h.sent_nil few, h.flight.bytesInFlight, h.flight.next_eq few]
    omega
  queue := by
    intro some
    rcases h.queue few with ⟨none, -⟩ | queue
    · exact absurd none some
    · exact queue
  resent := by
    intro ms seg member
    rcases (s.tick_spec ms).2.2 with out | ⟨oldest, rest, sent, out⟩
    · rw [appended_nil out] at member
      cases member
    · rw [appended_eq out, List.mem_singleton] at member
      rcases h.queue few with ⟨none, -⟩ | ⟨start, front, rest', queue⟩
      · rw [sent] at none
        cases none
      · have same := queue.sent
        rw [sent] at same
        cases same
        exact ⟨start, oldest, rest, queue, member⟩

end Queue

/-- **The queue of outstanding segments** in every state, whatever is acknowledged, until `2 ^ 64` numbers have been
sent. -/
theorem outstanding_queue_iff (capacity : Nat) (retxTimeout : UInt16) (isn : WrappingInt32) (w : Watched)
    (run : Reaches Watched.step (fun _ _ => True) { sender := .new capacity retxTimeout isn } w) :
    w.sender.Outstanding ↔ seqLength w.created < 2 ^ 64 := by
  have tiled := Tiled.of_reaches run
  exact ⟨fun outstanding => tiled.flight.acked_le_iff.1 outstanding.acked, tiled.outstanding⟩

/-- Six bytes in two segments, the second of them acknowledged in part, after an acknowledgment of what was not sent. -/
theorem outstanding_queue_iff_partial :
    ∃ w, follow Watched.step (fun _ _ => True) { sender := .new 8 1000 (.ofNat (2 ^ 32 - 3)) }
        [.fillWindow, .ackReceived (.ofNat (2 ^ 32 - 2)) 3, .write [1, 2, 3, 4, 5, 6], .fillWindow,
          .ackReceived (.ofNat 100) 6, .fillWindow, .ackReceived (.ofNat 3) 9] = some w ∧
      w.sender.Outstanding ∧ w.sender.sent.length = 1 ∧ w.sender.lastAckedAbsSeqno = 6 ∧ w.sender.nextAbsSeqno = 7 := by
  obtain ⟨w, run, seen⟩ := Option.map_eq_some_iff.1 (show (follow Watched.step (fun _ _ => True)
    { sender := .new 8 1000 (.ofNat (2 ^ 32 - 3)) }
    [.fillWindow, .ackReceived (.ofNat (2 ^ 32 - 2)) 3, .write [1, 2, 3, 4, 5, 6], .fillWindow,
      .ackReceived (.ofNat 100) 6, .fillWindow, .ackReceived (.ofNat 3) 9]).map
      (fun w => (seqLength w.created, w.sender.sent.length, w.sender.lastAckedAbsSeqno, w.sender.nextAbsSeqno)) =
        some (7, 1, 6, 7) by decide +kernel)
  simp only [Prod.mk.injEq] at seen
  obtain ⟨numbers, seen⟩ := seen
  exact ⟨w, run, (outstanding_queue_iff _ _ _ w (Reaches.start.follow run)).2 (by rw [numbers]; decide), seen⟩

/-- The number 0 is next, and `2 ^ 64 - 1` numbers are acknowledged. -/
theorem acked_above_next :
    ¬ ∀ (capacity : Nat) (retxTimeout : UInt16) (isn : WrappingInt32) (w : Watched),
      Reaches Watched.step (fun _ _ => True) { sender := .new capacity retxTimeout isn } w → w.sender.Outstanding := by
  intro claim
  obtain ⟨w, reached, next, acked⟩ := wrapped_reached
  have outstanding := claim 1 1000 (.ofNat 0) w (reached.mono fun _ _ _ => trivial)
  have order := outstanding.acked
  rw [next, acked] at order
  omega

/-! ### Acknowledgments of what was not sent -/

/-- An acknowledgment is ignored: the sender stays as it is, and does afterwards what it would have done without it. -/
def Ignores (s : TCPSender) (ackno : WrappingInt32) (windowSize : UInt16) : Prop :=
  s.ackReceived ackno windowSize = s ∧
    ∀ later : List Op, later.foldl Op.apply (s.ackReceived ackno windowSize) = later.foldl Op.apply s

/-- Of an acknowledgment of what was not sent, the window is kept. -/
theorem ackReceived_unsent {s : TCPSender} {ackno : WrappingInt32} (windowSize : UInt16)
    (unsent : s.nextAbsSeqno < unwrap ackno s.isn s.lastAckedAbsSeqno) :
    s.ackReceived ackno windowSize = { s with windowSize := windowSize } := by
  rw [ackReceived, if_pos (Or.inr unsent)]

/-- **An acknowledgment of what was not sent** is ignored exactly if its window is the one in force. -/
theorem unsent_ack_ignored_iff (s : TCPSender) (ackno : WrappingInt32) (windowSize : UInt16)
    (unsent : s.nextAbsSeqno < unwrap ackno s.isn s.lastAckedAbsSeqno) :
    s.Ignores ackno windowSize ↔ windowSize = s.windowSize := by
  constructor
  · rintro ⟨same, -⟩
    rw [ackReceived_unsent windowSize unsent] at same
    rw [← same]
  · rintro rfl
    have same : s.ackReceived ackno s.windowSize = s := ackReceived_unsent s.windowSize unsent
    refine ⟨same, fun later => ?_⟩
    rw [same]

/-- A new sender, acknowledged number 5 before anything was sent. -/
theorem unsent_ack_ignored_iff_new :
    (TCPSender.new 8 1000 (.ofNat 0)).Ignores (.ofNat 5) 1 ∧ ¬ (TCPSender.new 8 1000 (.ofNat 0)).Ignores (.ofNat 5) 2 :=
  ⟨(unsent_ack_ignored_iff _ _ _ (by decide)).2 rfl,
    fun ignored => absurd ((unsent_ack_ignored_iff _ _ _ (by decide)).1 ignored) (by decide)⟩

/-- With a window of one, one of ten bytes is in flight. An acknowledgment of number 1000, which was not sent, opens the
window to 100, and the other nine bytes go out. -/
theorem unsent_ack_opens_window :
    ¬ ∀ s : TCPSender, s.Reachable → ∀ (ackno : WrappingInt32) (windowSize : UInt16),
      s.nextAbsSeqno < unwrap ackno s.isn s.lastAckedAbsSeqno → s.Ignores ackno windowSize := by
  intro claim
  obtain ⟨s, run, seen⟩ := Option.map_eq_some_iff.1 (show (follow (fun s op => some (Op.apply s op)) (fun _ _ => True)
    (.new 20 1000 (.ofNat 0))
    [.fillWindow, .ackReceived (.ofNat 1) 1, .write [1, 2, 3, 4, 5, 6, 7, 8, 9, 10], .fillWindow]).map
      (fun s => (decide (s.nextAbsSeqno < unwrap (.ofNat 1000) s.isn s.lastAckedAbsSeqno),
        s.fillWindow.nextAbsSeqno, (s.ackReceived (.ofNat 1000) 100).fillWindow.nextAbsSeqno)) = some (true, 2, 11) by
    decide +kernel)
  simp only [Prod.mk.injEq, decide_eq_true_eq] at seen
  obtain ⟨unsent, without, after⟩ := seen
  have ignored := claim s ⟨20, 1000, .ofNat 0, Reaches.start.follow run⟩ (.ofNat 1000) 100 unsent
  have same := congrArg TCPSender.nextAbsSeqno (ignored.2 [.fillWindow])
  simp only [List.foldl_cons, List.foldl_nil, Op.apply] at same
  omega

end TCPSender

end Sponge
