import Sponge.Tcp.Outstanding

/-!
# The retransmission timer

`RetransmissionTimer` is the timer as it is specified: it runs or it does not,
and its fields are numbers without a width. `Reference` is what it is specified
over: the segments sent, the largest number acknowledged and the last window.

The sender has no flag for a running timer. It relies on `_last_time` being zero
whenever `_sent` is empty, and its counters are words. `Timed` runs the sender
beside the reference, which is told the operations and what `fill_window` put
out. The two agree as long as the time since the timer was restarted fits 64
bits and, for an initial timeout of zero, the retransmissions fit 32. They also
part once `2 ^ 64` numbers have been sent, since the sender then accepts no
acknowledgment.
-/

namespace Sponge

/-- The specified timer. -/
structure RetransmissionTimer where
  initial : Nat
  running : Bool := false
  elapsed : Nat := 0
  rto : Nat
  retries : Nat := 0
  deriving DecidableEq

namespace RetransmissionTimer

/-- A segment that occupies sequence numbers is sent. -/
def start (t : RetransmissionTimer) : RetransmissionTimer :=
  if t.running then t else { t with running := true, elapsed := 0 }

@[simp] theorem start_running (t : RetransmissionTimer) : t.start.running = true := by
  unfold start
  split
  · assumption
  · rfl

@[simp] theorem start_initial (t : RetransmissionTimer) : t.start.initial = t.initial := by
  unfold start
  split <;> rfl

@[simp] theorem start_rto (t : RetransmissionTimer) : t.start.rto = t.rto := by
  unfold start
  split <;> rfl

@[simp] theorem start_retries (t : RetransmissionTimer) : t.start.retries = t.retries := by
  unfold start
  split <;> rfl

/-- A timer that was not running starts from zero. -/
theorem start_elapsed (t : RetransmissionTimer) : t.start.elapsed = if t.running then t.elapsed else 0 := by
  unfold start
  split <;> rfl

/-- The acknowledged number advances. -/
def restart (t : RetransmissionTimer) (outstanding : Bool) : RetransmissionTimer :=
  { t with running := outstanding, elapsed := 0, rto := t.initial, retries := 0 }

/-- Whether the timer runs out within `ms`. -/
def expires (t : RetransmissionTimer) (ms : Nat) : Bool := t.running && decide (t.rto ≤ t.elapsed + ms)

def tick (t : RetransmissionTimer) (ms : Nat) (windowOpen : Bool) : RetransmissionTimer :=
  if t.expires ms then
    if windowOpen then { t with elapsed := 0, rto := 2 * t.rto, retries := t.retries + 1 }
    else { t with elapsed := 0 }
  else if t.running then { t with elapsed := t.elapsed + ms }
  else t

end RetransmissionTimer

namespace TCPSender

/-- The timer with what it is specified over. -/
structure Reference where
  isn : WrappingInt32
  timer : RetransmissionTimer
  sent : List TCPSegment := []
  acked : Nat := 0
  windowSize : UInt16 := 1
  deriving DecidableEq

namespace Reference

def new (retxTimeout : UInt16) (isn : WrappingInt32) : Reference where
  isn := isn
  timer := { initial := retxTimeout.toNat, rto := retxTimeout.toNat }

def send (r : Reference) (seg : TCPSegment) : Reference :=
  if seg.lengthInSequenceSpace = 0 then r else { r with timer := r.timer.start, sent := r.sent ++ [seg] }

/-- An operation that put the segments `new` out: the reference after it, and what it retransmits. -/
def apply (r : Reference) (new : List TCPSegment) : Op → Reference × List TCPSegment
  | .write _ | .endInput => (r, [])
  | .fillWindow | .sendEmptySegment => (new.foldl send r, [])
  | .ackReceived ackno windowSize =>
    let number := unwrap ackno r.isn r.acked
    if r.acked < number ∧ number ≤ seqLength r.sent then
      ({ r with
        windowSize := windowSize
        acked := number
        timer := r.timer.restart (decide (number < seqLength r.sent)) }, [])
    else ({ r with windowSize := windowSize }, [])
  | .tick ms =>
    ({ r with timer := r.timer.tick ms (decide (r.windowSize ≠ 0)) },
      if r.timer.expires ms then (oldestUnacked r.sent r.acked).toList else [])

end Reference

/-- What the sender retransmits with an operation that put the segments `new` out: new segments come from
`fill_window` and `send_empty_segment`. -/
def retransmitted (new : List TCPSegment) : Op → List TCPSegment
  | .fillWindow | .sendEmptySegment => []
  | .write _ | .endInput | .ackReceived _ _ | .tick _ => new

/-- The sender beside the reference, with what either retransmitted in each operation. -/
structure Timed where
  sender : TCPSender
  reference : Reference
  emitted : List (List TCPSegment) := []
  specified : List (List TCPSegment) := []
  deriving DecidableEq

namespace Timed

def new (capacity : Nat) (retxTimeout : UInt16) (isn : WrappingInt32) : Timed where
  sender := .new capacity retxTimeout isn
  reference := .new retxTimeout isn

def step (w : Timed) (op : Op) : Option Timed :=
  let out := appended w.sender (op.apply w.sender)
  some {
    sender := op.apply w.sender
    reference := (w.reference.apply out op).1
    emitted := w.emitted ++ [retransmitted out op]
    specified := w.specified ++ [(w.reference.apply out op).2] }

/-- The sender retransmitted what the reference did, with the same operations, and reports the same count. -/
def Agrees (w : Timed) : Prop :=
  w.emitted = w.specified ∧ w.sender.resendTryTimes = w.reference.timer.retries

/-- The reference's timeout stays a 32-bit number. -/
def RtoFits (w : Timed) (op : Op) : Prop := ∀ w', w.step op = some w' → w'.reference.timer.rto < 2 ^ 32

/-- A tick of a running timer keeps its clock a 64-bit number, and its count a 32-bit one where the timeout, being
zero, does not bound it. -/
def ClockFits (w : Timed) (op : Op) : Prop :=
  ∀ ms, op = .tick ms → w.reference.timer.running = true →
    w.reference.timer.elapsed + ms < 2 ^ 64 ∧
      (w.reference.timer.initial = 0 → w.reference.timer.retries + 1 < 2 ^ 32)

/-- An acknowledgment arrives before `2 ^ 64` numbers have been sent. -/
def NumbersFit (w : Timed) (op : Op) : Prop :=
  ∀ ackno windowSize, op = .ackReceived ackno windowSize → seqLength w.reference.sent < 2 ^ 64

/-- The counters keep within their words. -/
def CountersFit (w : Timed) (op : Op) : Prop := w.ClockFits op ∧ w.NumbersFit op

end Timed

/-! ### The operations on the timer's fields -/

section Fields

variable {s : TCPSender} {ackno : WrappingInt32} {windowSize : UInt16} {ms : Nat}

theorem ackReceived_advances (new : s.lastAckedAbsSeqno < unwrap ackno s.isn s.lastAckedAbsSeqno)
    (sent : unwrap ackno s.isn s.lastAckedAbsSeqno ≤ s.nextAbsSeqno) (outstanding : s.sent ≠ []) :
    s.ackReceived ackno windowSize = { s with
      windowSize := windowSize
      lastAckedAbsSeqno := unwrap ackno s.isn s.lastAckedAbsSeqno
      timeout := s.initialRetransmissionTimeout
      lastTime := 0
      resendTryTimes := 0
      sent := s.sent.dropWhile fun e => decide (e.expectedAck ≤ unwrap ackno s.isn s.lastAckedAbsSeqno) } := by
  rw [ackReceived, if_neg (by dsimp only; omega), if_pos outstanding]

theorem ackReceived_ignored (old : ¬ (s.lastAckedAbsSeqno < unwrap ackno s.isn s.lastAckedAbsSeqno ∧
      unwrap ackno s.isn s.lastAckedAbsSeqno ≤ s.nextAbsSeqno)) :
    s.ackReceived ackno windowSize = { s with windowSize := windowSize } := by
  rw [ackReceived, if_pos (by dsimp only; omega)]

theorem tick_early (outstanding : s.sent ≠ []) (early : add64 s.lastTime ms < s.timeout) :
    s.tick ms = { s with lastTime := add64 s.lastTime ms } := by
  obtain ⟨oldest, rest, sent⟩ := List.exists_cons_of_ne_nil outstanding
  simp only [tick, sent, Nat.not_le.2 early, if_false]

theorem tick_late {oldest : SentSegment} {rest : List SentSegment} (sent : s.sent = oldest :: rest)
    (late : s.timeout ≤ add64 s.lastTime ms) :
    s.tick ms = { s with
      segmentsOut := s.segmentsOut ++ [oldest.seg]
      lastTime := 0
      timeout := if s.windowSize = 0 then s.timeout else 2 * s.timeout % word32
      resendTryTimes := if s.windowSize = 0 then s.resendTryTimes else (s.resendTryTimes + 1) % word32 } := by
  by_cases closed : s.windowSize = 0
  · simp only [tick, sent, late, closed, ne_eq, not_true_eq_false, if_true, if_false]
  · simp only [tick, sent, late, closed, ne_eq, not_false_eq_true, if_true, if_false]

end Fields

/-- What everything but a tick does to the timeout and the count: nothing, or both are set back. -/
structure Calm (s t : TCPSender) : Prop where
  initial : t.initialRetransmissionTimeout = s.initialRetransmissionTimeout
  schedule : (t.timeout = s.timeout ∧ t.resendTryTimes = s.resendTryTimes) ∨
    (t.timeout = s.initialRetransmissionTimeout ∧ t.resendTryTimes = 0)

section Calm

variable {s t u : TCPSender}

theorem Calm.of_same (initial : t.initialRetransmissionTimeout = s.initialRetransmissionTimeout)
    (timeout : t.timeout = s.timeout) (tries : t.resendTryTimes = s.resendTryTimes) : Calm s t :=
  ⟨initial, Or.inl ⟨timeout, tries⟩⟩

theorem Calm.refl (s : TCPSender) : Calm s s := .of_same rfl rfl rfl

theorem Calm.trans (h : Calm s t) (h' : Calm t u) : Calm s u := by
  refine ⟨h'.initial.trans h.initial, ?_⟩
  rcases h'.schedule with ⟨timeout, tries⟩ | ⟨timeout, tries⟩
  · rw [timeout, tries]
    exact h.schedule
  · rw [timeout, h.initial]
    exact Or.inr ⟨rfl, tries⟩

theorem Calm.tries (h : Calm s t) : t.resendTryTimes ≤ s.resendTryTimes := by
  rcases h.schedule with ⟨-, tries⟩ | ⟨-, tries⟩ <;> omega

theorem Fills.calm (fills : Fills s t) : Calm s t := by
  induction fills with
  | stop => exact .refl _
  | more _ _ _ ih => exact ⟨ih.initial, ih.schedule⟩

theorem calm_ackReceived (s : TCPSender) (ackno : WrappingInt32) (windowSize : UInt16) :
    Calm s (s.ackReceived ackno windowSize) := by
  unfold ackReceived
  dsimp only
  split
  · exact .of_same rfl rfl rfl
  · split
    · exact ⟨rfl, Or.inr ⟨rfl, rfl⟩⟩
    · exact .of_same rfl rfl rfl

end Calm

/-! ### The refinement -/

/-- The sender's fields are those of the timer. Its clock is zero while the timer does not run. -/
structure Clocks (s : TCPSender) (timer : RetransmissionTimer) : Prop where
  running : timer.running = true ↔ s.sent ≠ []
  clock : s.lastTime = if timer.running then timer.elapsed else 0
  timeout : s.timeout = timer.rto
  retries : s.resendTryTimes = timer.retries
  initial : s.initialRetransmissionTimeout = timer.initial
  scaled : timer.rto = timer.initial * 2 ^ timer.retries

/-- An operation that touches neither the queue nor the timer's fields. -/
theorem Clocks.of_same {s t : TCPSender} {timer : RetransmissionTimer} (h : s.Clocks timer) (sent : t.sent = s.sent)
    (fields : (t.lastTime, t.timeout, t.resendTryTimes, t.initialRetransmissionTimeout) =
      (s.lastTime, s.timeout, s.resendTryTimes, s.initialRetransmissionTimeout)) : t.Clocks timer := by
  simp only [Prod.mk.injEq] at fields
  obtain ⟨time, timeout, tries, initial⟩ := fields
  refine ⟨?_, time.trans h.clock, timeout.trans h.timeout, tries.trans h.retries, initial.trans h.initial, h.scaled⟩
  rw [sent]
  exact h.running

/-- The sender implements the reference. -/
structure Implements (s : TCPSender) (r : Reference) : Prop where
  tiled : ∃ written, Tiled r.sent written s
  isn : s.isn = r.isn
  acked : s.lastAckedAbsSeqno = r.acked
  window : s.windowSize = r.windowSize
  clocks : s.Clocks r.timer

section Refinement

variable {s t : TCPSender} {timer : RetransmissionTimer} {r : Reference} {ex ms : Nat}

theorem Implements.new (capacity : Nat) (retxTimeout : UInt16) (isn : WrappingInt32) :
    Implements (.new capacity retxTimeout isn) (.new retxTimeout isn) where
  tiled := ⟨[], .new capacity retxTimeout isn⟩
  isn := rfl
  acked := rfl
  window := rfl
  clocks := ⟨by simp [Reference.new, TCPSender.new], rfl, rfl, rfl, rfl, by simp [Reference.new]⟩

theorem Clocks.create (h : s.Clocks timer) : (s.create ex).Clocks timer.start where
  running := by simp
  clock := by
    rw [timer.start_running, if_pos rfl, timer.start_elapsed]
    exact h.clock
  timeout := by
    rw [timer.start_rto]
    exact h.timeout
  retries := by
    rw [timer.start_retries]
    exact h.retries
  initial := by
    rw [timer.start_initial]
    exact h.initial
  scaled := by
    rw [timer.start_rto, timer.start_initial, timer.start_retries]
    exact h.scaled

/-- A segment created by `fill_window` starts the timer if it is not running. -/
theorem Implements.create (h : Implements s r) (can : s.CanCreate ex) :
    Implements (s.create ex) (r.send (s.nextSegment ex)) := by
  obtain ⟨written, tiled⟩ := h.tiled
  have nonempty := can.nonempty
  rw [Reference.send, if_neg (by omega)]
  exact ⟨⟨written, tiled.create can⟩, h.isn, h.acked, h.window, h.clocks.create⟩

theorem Implements.fills (h : Implements s r) (fills : Fills s t) :
    ∃ new, t.segmentsOut = s.segmentsOut ++ new ∧ Implements t (new.foldl Reference.send r) := by
  induction fills generalizing r with
  | stop s => exact ⟨[], by simp, h⟩
  | @more s t ex can rest ih =>
    obtain ⟨new, out, implements⟩ := ih (h.create can)
    refine ⟨s.nextSegment ex :: new, ?_, implements⟩
    rw [out, create_segmentsOut, List.append_assoc, List.singleton_append]

/-- An acknowledgment restarts the timer exactly if it is new and for something sent. -/
theorem Implements.ackReceived (h : Implements s r) (few : seqLength r.sent < 2 ^ 64) (new : List TCPSegment)
    (ackno : WrappingInt32) (windowSize : UInt16) :
    Implements (s.ackReceived ackno windowSize) (r.apply new (.ackReceived ackno windowSize)).1 := by
  obtain ⟨written, tiled⟩ := h.tiled
  have after := tiled.acked (s.ackReceived_spec ackno windowSize)
  have clocks := h.clocks
  simp only [Reference.apply, ← h.isn, ← h.acked, ← tiled.flight.next_eq few]
  by_cases advances : s.lastAckedAbsSeqno < unwrap ackno s.isn s.lastAckedAbsSeqno ∧
      unwrap ackno s.isn s.lastAckedAbsSeqno ≤ s.nextAbsSeqno
  · have outstanding : s.sent ≠ [] := by
      rw [ne_eq, tiled.sent_nil few]
      omega
    have queue := after.sent_nil few
    rw [ackReceived_advances advances.1 advances.2 outstanding] at after queue ⊢
    rw [if_pos advances]
    refine ⟨⟨written, after⟩, rfl, rfl, rfl, ?_, ?_, clocks.initial, rfl, clocks.initial, ?_⟩
    · simp only [RetransmissionTimer.restart, decide_eq_true_eq, ne_eq]
      rw [queue]
      dsimp only
      omega
    · simp [RetransmissionTimer.restart]
    · simp [RetransmissionTimer.restart]
  · rw [ackReceived_ignored advances] at after ⊢
    rw [if_neg advances]
    exact ⟨⟨written, after⟩, rfl, rfl, rfl, clocks.of_same rfl rfl⟩

/-- The count is bounded by the timeout, unless that is zero. -/
theorem Clocks.retries_lt (h : s.Clocks timer) (fits : timer.rto < 2 ^ 32)
    (zero : timer.initial = 0 → timer.retries + 1 < 2 ^ 32) : timer.retries + 1 < 2 ^ 32 := by
  rcases Nat.eq_zero_or_pos timer.initial with none | positive
  · exact zero none
  · have power : 2 ^ timer.retries ≤ timer.rto := by
      rw [h.scaled]
      exact Nat.le_mul_of_pos_left _ positive
    have small : timer.retries < 32 := (Nat.pow_lt_pow_iff_right (by decide)).1 (Nat.lt_of_le_of_lt power fits)
    omega

/-- The tick that runs the timer out. -/
theorem Clocks.late (h : s.Clocks timer) {oldest : SentSegment} {rest : List SentSegment}
    (sent : s.sent = oldest :: rest) (running : timer.running = true) (time : add64 s.lastTime ms = timer.elapsed + ms)
    (late : timer.rto ≤ timer.elapsed + ms) (count : timer.retries + 1 < 2 ^ 32)
    (fits : (timer.tick ms (decide (s.windowSize ≠ 0))).rto < 2 ^ 32) :
    (s.tick ms).Clocks (timer.tick ms (decide (s.windowSize ≠ 0))) := by
  have expires : timer.expires ms = true := by simp [RetransmissionTimer.expires, running, late]
  have timeout := h.timeout
  have retries := h.retries
  rw [tick_late sent (by omega)]
  simp only [RetransmissionTimer.tick, expires, if_true] at fits ⊢
  by_cases closed : s.windowSize = 0
  · simp only [closed, ne_eq, not_true_eq_false, decide_false, Bool.false_eq_true, if_false, if_true]
    exact ⟨h.running, by simp, timeout, retries, h.initial, h.scaled⟩
  · simp only [closed, ne_eq, not_false_eq_true, decide_true, if_true, if_false] at fits ⊢
    refine ⟨h.running, by simp, ?_, ?_, h.initial, ?_⟩
    · simp only [timeout, word32]
      omega
    · simp only [retries, word32]
      omega
    · have doubled : timer.initial * 2 ^ (timer.retries + 1) = 2 * (timer.initial * 2 ^ timer.retries) := by
        rw [Nat.pow_succ, ← Nat.mul_assoc, Nat.mul_comm]
      rw [doubled, ← h.scaled]

/-- A tick of the sender is a tick of the reference. -/
theorem Implements.tick (h : Implements s r) (new : List TCPSegment)
    (fits : r.timer.running = true → r.timer.elapsed + ms < 2 ^ 64 ∧
      (r.timer.initial = 0 → r.timer.retries + 1 < 2 ^ 32))
    (before : r.timer.rto < 2 ^ 32) (after : (r.apply new (.tick ms)).1.timer.rto < 2 ^ 32) :
    Implements (s.tick ms) (r.apply new (.tick ms)).1 ∧ appended s (s.tick ms) = (r.apply new (.tick ms)).2 := by
  obtain ⟨written, tiled⟩ := h.tiled
  obtain ⟨same, window, -⟩ := s.tick_spec ms
  have clocks := h.clocks
  have implements : ∀ {timer}, (s.tick ms).Clocks timer →
      Implements (s.tick ms) { r with timer := timer, windowSize := s.windowSize } :=
    fun clocks => ⟨⟨written, tiled.of_same same⟩, same.isn.trans h.isn, same.acked.trans h.acked, window, clocks⟩
  simp only [Reference.apply, ← h.window] at after ⊢
  cases running : r.timer.running with
  | false =>
    have idle : s.sent = [] := by
      have iff := clocks.running
      rw [running] at iff
      simpa using iff
    have expires : r.timer.expires ms = false := by simp [RetransmissionTimer.expires, running]
    rw [if_neg (by simp [expires])]
    refine ⟨implements ?_, appended_nil (by rw [tick_idle idle ms])⟩
    rw [tick_idle idle ms]
    simp only [RetransmissionTimer.tick, expires, running, Bool.false_eq_true, if_false]
    exact ⟨clocks.running, by simp [running], clocks.timeout, clocks.retries, clocks.initial, clocks.scaled⟩
  | true =>
    have outstanding := clocks.running.1 running
    obtain ⟨bound, zero⟩ := fits running
    have time : add64 s.lastTime ms = r.timer.elapsed + ms := by
      rw [clocks.clock, running, if_pos rfl]
      exact add64_eq bound
    by_cases late : r.timer.rto ≤ r.timer.elapsed + ms
    · have expires : r.timer.expires ms = true := by simp [RetransmissionTimer.expires, running, late]
      obtain ⟨oldest, rest, sent⟩ := List.exists_cons_of_ne_nil outstanding
      have count := clocks.retries_lt before zero
      refine ⟨implements (clocks.late sent running time late count after), ?_⟩
      rw [if_pos expires, ← h.acked, tiled.oldest, tick_late sent (by rw [clocks.timeout, time]; exact late), sent]
      exact appended_eq rfl
    · have expires : r.timer.expires ms = false := by simp [RetransmissionTimer.expires, late]
      have early : add64 s.lastTime ms < s.timeout := by
        rw [clocks.timeout, time]
        omega
      rw [if_neg (by simp [expires])]
      refine ⟨implements ?_, appended_nil (by rw [tick_early outstanding early])⟩
      rw [tick_early outstanding early]
      simp only [RetransmissionTimer.tick, expires, running, Bool.false_eq_true, if_false, if_true]
      exact ⟨by simpa using outstanding, by simp [time], clocks.timeout, clocks.retries, clocks.initial, clocks.scaled⟩

end Refinement

section Runs

variable {w w' : Timed}

/-- The invariant of the runs. -/
structure Timed.Refines (w : Timed) : Prop where
  implements : w.sender.Implements w.reference
  rto : w.reference.timer.rto < 2 ^ 32
  trace : w.emitted = w.specified

theorem Timed.Refines.step (h : w.Refines) {op : Op} (rto : w.RtoFits op) (counters : w.CountersFit op)
    (run : w.step op = some w') : w'.Refines := by
  have fits := rto w' run
  have implements := h.implements
  obtain ⟨written, tiled⟩ := implements.tiled
  have clocks := implements.clocks
  suffices both : (op.apply w.sender).Implements (w.reference.apply (appended w.sender (op.apply w.sender)) op).1 ∧
      retransmitted (appended w.sender (op.apply w.sender)) op =
        (w.reference.apply (appended w.sender (op.apply w.sender)) op).2 by
    obtain rfl := Option.some.inj run
    exact ⟨both.1, fits, by rw [h.trace, both.2]⟩
  cases op with
  | write data =>
    exact ⟨⟨⟨_, tiled.write data⟩, implements.isn, implements.acked, implements.window, clocks.of_same rfl rfl⟩,
      appended_nil rfl⟩
  | endInput =>
    exact ⟨⟨⟨_, tiled.endInput⟩, implements.isn, implements.acked, implements.window, clocks.of_same rfl rfl⟩,
      appended_nil rfl⟩
  | fillWindow =>
    obtain ⟨new, out, after⟩ := implements.fills w.sender.fillWindow_fills
    rw [Op.apply, appended_eq out]
    exact ⟨after, rfl⟩
  | ackReceived ackno windowSize =>
    refine ⟨implements.ackReceived (counters.2 ackno windowSize rfl) _ ackno windowSize, ?_⟩
    simp only [Op.apply, retransmitted, appended_nil (w.sender.ackReceived_spec ackno windowSize).segmentsOut, Reference.apply]
    split <;> rfl
  | tick ms =>
    obtain rfl := Option.some.inj run
    exact implements.tick _ (counters.1 ms rfl) h.rto fits
  | sendEmptySegment =>
    have out : (w.sender.sendEmptySegment).segmentsOut = w.sender.segmentsOut ++ [w.sender.emptySegment] := rfl
    rw [Op.apply, appended_eq out]
    refine ⟨⟨⟨written, ?_⟩, implements.isn, implements.acked, implements.window, clocks.of_same rfl rfl⟩, rfl⟩
    exact tiled.of_same ⟨rfl, rfl, rfl, rfl, rfl, rfl, rfl, rfl, rfl⟩

end Runs

/-- **The timer refines its specification** in every run that keeps its counters within their words. -/
theorem timer_refines (capacity : Nat) (retxTimeout : UInt16) (isn : WrappingInt32) (w : Timed)
    (run : Reaches Timed.step (fun w op => w.RtoFits op ∧ w.CountersFit op) (.new capacity retxTimeout isn) w) :
    w.Agrees := by
  have refines : w.Refines := by
    refine run.invariant ⟨.new capacity retxTimeout isn, ?_, rfl⟩ fun _ _ _ refines ok step => refines.step ok.1 ok.2 step
    have word : retxTimeout.toNat < 2 ^ 16 := retxTimeout.toNat_lt
    have start : (Timed.new capacity retxTimeout isn).reference.timer.rto = retxTimeout.toNat := rfl
    omega
  exact ⟨refines.trace, refines.implements.clocks.retries⟩

instance (w : Timed) : DecidablePred w.RtoFits := fun op =>
  decidable_of_iff ((w.step op).all fun w' => decide (w'.reference.timer.rto < 2 ^ 32)) (by
    simp [Timed.RtoFits, Timed.step])

instance (w : Timed) : DecidablePred w.ClockFits
  | .tick ms => decidable_of_iff (w.reference.timer.running = true → w.reference.timer.elapsed + ms < 2 ^ 64 ∧
      (w.reference.timer.initial = 0 → w.reference.timer.retries + 1 < 2 ^ 32)) (by simp [Timed.ClockFits])
  | .write _ | .endInput | .fillWindow | .ackReceived _ _ | .sendEmptySegment => isTrue (by simp [Timed.ClockFits])

instance (w : Timed) : DecidablePred w.NumbersFit
  | .ackReceived _ _ => decidable_of_iff (seqLength w.reference.sent < 2 ^ 64) (by simp [Timed.NumbersFit])
  | .write _ | .endInput | .fillWindow | .tick _ | .sendEmptySegment => isTrue (by simp [Timed.NumbersFit])

instance (w : Timed) : DecidablePred w.CountersFit := fun _ => inferInstanceAs (Decidable (_ ∧ _))

/-- The SYN times out twice, is acknowledged, and a byte sent into the window of one times out once. -/
theorem timer_refines_backoff :
    ∃ w, follow Timed.step (fun w op => w.RtoFits op ∧ w.CountersFit op) (.new 8 1000 (.ofNat 5))
        [.fillWindow, .tick 999, .tick 1, .tick 1999, .tick 1, .ackReceived (.ofNat 6) 1, .tick 5000, .write [9],
          .fillWindow, .tick 999, .ackReceived (.ofNat 6) 0, .tick 1] = some w ∧
      w.emitted.map List.length = [0, 0, 1, 0, 1, 0, 0, 0, 0, 0, 0, 1] ∧ w.Agrees := by
  obtain ⟨w, run, seen⟩ := Option.map_eq_some_iff.1 (show (follow Timed.step
    (fun w op => w.RtoFits op ∧ w.CountersFit op) (.new 8 1000 (.ofNat 5))
    [.fillWindow, .tick 999, .tick 1, .tick 1999, .tick 1, .ackReceived (.ofNat 6) 1, .tick 5000, .write [9],
      .fillWindow, .tick 999, .ackReceived (.ofNat 6) 0, .tick 1]).map (fun w => w.emitted.map List.length) =
      some [0, 0, 1, 0, 1, 0, 0, 0, 0, 0, 0, 1] by decide +kernel)
  exact ⟨w, run, seen, timer_refines 8 1000 (.ofNat 5) w (Reaches.start.follow run)⟩

/-- The argument of `tick` is a `size_t`. -/
def Op.InRange : Op → Prop
  | .tick ms => ms < 2 ^ 64
  | .write _ | .endInput | .fillWindow | .ackReceived _ _ | .sendEmptySegment => True

instance : DecidablePred Op.InRange
  | .tick _ => inferInstanceAs (Decidable (_ < _))
  | .write _ | .endInput | .fillWindow | .ackReceived _ _ | .sendEmptySegment => inferInstanceAs (Decidable True)

/-- Half a second after the SYN was sent, a tick of `2 ^ 64 - 1` milliseconds takes the 64-bit clock back to 499, and the
SYN is not sent again. -/
theorem timer_clock_wraps :
    ¬ ∀ (capacity : Nat) (retxTimeout : UInt16) (isn : WrappingInt32) (w : Timed),
      Reaches Timed.step (fun w op => w.RtoFits op ∧ op.InRange) (.new capacity retxTimeout isn) w → w.Agrees := by
  intro claim
  obtain ⟨w, run, seen⟩ := Option.map_eq_some_iff.1 (show (follow Timed.step (fun w op => w.RtoFits op ∧ op.InRange)
    (.new 8 1000 (.ofNat 5)) [.fillWindow, .tick 500, .tick (2 ^ 64 - 1)]).map
      (fun w => (w.emitted.map List.length, w.specified.map List.length)) = some ([0, 0, 0], [0, 0, 1]) by
    decide +kernel)
  simp only [Prod.mk.injEq] at seen
  have agrees := claim 8 1000 (.ofNat 5) w (Reaches.start.follow run)
  rw [agrees.1] at seen
  exact absurd (seen.1.symm.trans seen.2) (by decide)

end TCPSender

end Sponge
