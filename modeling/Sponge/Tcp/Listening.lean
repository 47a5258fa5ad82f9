import Sponge.Tcp.Ending

/-!
# What a listening connection sends

Until its SYN is out, a connection should be silent: it waits for `connect` or
for the peer's SYN. Two paths of the source break the silence. `end_input_stream`
calls `fill_window` without asking whether the SYN is out, and sends it; and a
segment that occupies sequence numbers is answered with an empty segment whether
or not the receiver took it. `Waits` is the state of such a connection, and
`step_waits` says what each operation makes of it. A history of three flags then
separates the runs that keep the silence from those that do not.
-/

namespace Sponge

open TCPConnection (Op)

namespace TCPSender

variable {s t : TCPSender}

theorem Fills.out (fills : Fills s t) : ∃ new, t.segmentsOut = s.segmentsOut ++ new := by
  induction fills with
  | stop => exact ⟨[], (List.append_nil _).symm⟩
  | more ex _ _ ih =>
    obtain ⟨new, out⟩ := ih
    rw [create_segmentsOut, List.append_assoc] at out
    exact ⟨_, out⟩

theorem Fills.syned (fills : Fills s t) (syned : s.syned = true) : t.syned = true := by
  induction fills with
  | stop => exact syned
  | more _ _ _ ih => exact ih rfl

theorem Fills.resend (fills : Fills s t) : t.resendTryTimes = s.resendTryTimes := by
  induction fills with
  | stop => rfl
  | more _ _ _ ih => exact ih

/-- With nothing in flight there is room for the SYN, by the window or by the probe of a closed one. -/
theorem fillWindow_first (unsyned : s.syned = false) (unfinished : s.fined = false) (idle : s.bytesInFlight = 0) :
    ∃ ex, Fills (s.create ex) s.fillWindow := by
  have nonempty : ∀ ex, 0 < (s.nextSegment ex).lengthInSequenceSpace := by
    intro ex
    rw [length_nextSegment, unsyned]
    simp
  have room : s.bytesInFlight < s.windowSize.toNat + if s.windowSize = 0 then 1 else 0 := by
    rw [idle]
    split
    · exact Nat.lt_add_left _ Nat.one_pos
    · rename_i opened
      have : s.windowSize.toNat ≠ 0 := fun zero => opened (UInt16.toNat_inj.1 zero)
      omega
  refine ⟨if s.windowSize = 0 then 1 else 0, ?_⟩
  rw [fillWindow, fillLoop, if_pos room, fillBody_create unfinished (nonempty _)]
  exact fillLoop_fills _ _ (Or.inl rfl)

/-- Before the SYN there is nothing to acknowledge, and only the window is noted. -/
theorem ackReceived_unsyned (next : s.nextAbsSeqno = 0) (acked : s.lastAckedAbsSeqno = 0) (ackno : WrappingInt32)
    (window : UInt16) : s.ackReceived ackno window = { s with windowSize := window } := by
  rw [ackReceived]
  dsimp only
  rw [if_pos]
  omega

end TCPSender

namespace TCPConnection

/-- The operations that make a waiting connection send its SYN. -/
def Op.starts : Op → Bool
  | .connect | .endInputStream => true
  | .segmentReceived seg => !seg.header.rst && seg.header.syn
  | _ => false

/-- A reset arrives. -/
def Op.resets : Op → Bool
  | .segmentReceived seg => seg.header.rst
  | _ => false

/-- A segment without SYN and RST arrives that occupies sequence numbers. -/
def Op.answered : Op → Bool
  | .segmentReceived seg => !seg.header.rst && !seg.header.syn && seg.lengthInSequenceSpace != 0
  | _ => false

/-- `connect` is called, or a SYN or a reset arrives. -/
def Op.opens : Op → Bool
  | .connect => true
  | .segmentReceived seg => seg.header.syn || seg.header.rst
  | _ => false

/-- `end_input_stream` is called. -/
def Op.ends : Op → Bool
  | .endInputStream => true
  | _ => false

/-- A connection whose SYN is not out. -/
structure Unsent (c : TCPConnection) : Prop where
  active : c.active = true
  rst : c.rst = false
  unsyned : c.sender.syned = false
  resend : c.sender.resendTryTimes = 0

/-- A connection that waits for `connect` or a SYN, between operations. -/
structure Waits (c : TCPConnection) : Prop extends Unsent c where
  queue : c.sender.segmentsOut = []
  listens : c.receiver.syn = false

variable {c : TCPConnection}

/-- Without a reset, too many retransmissions or a finished sender, `judge_do` only pulls. -/
theorem judgeDo_pull (active : c.active = true) (noRst : c.rst = false) (few : c.sender.resendTryTimes = 0)
    (unfinished : c.sender.fullFined = false) : c.judgeDo = c.pullPushSegments := by
  simp [judgeDo, active, noRst, few, lingered, unfinished]

theorem outgoing_flags (noRst : c.rst = false) (seg : TCPSegment) :
    (c.outgoing seg).header.syn = seg.header.syn ∧ (c.outgoing seg).header.rst = seg.header.rst := by
  rw [outgoing, if_neg (by rw [noRst]; decide)]
  split <;> exact ⟨rfl, rfl⟩

end TCPConnection

namespace Endpoint

open TCPConnection (Unsent Waits)

section Waits

variable {e e' p : Endpoint}

/-- Before the SYN nothing is created, outstanding or acknowledged. -/
theorem Sends.before (h : e.Sends) (unsyned : e.conn.sender.syned = false) :
    e.created = [] ∧ e.conn.sender.sent = [] ∧ e.conn.sender.fined = false ∧ e.conn.sender.nextAbsSeqno = 0 ∧
      e.conn.sender.lastAckedAbsSeqno = 0 := by
  have none : e.created = [] := by
    by_contra some
    rw [h.tiled.syned.2 some] at unsyned
    cases unsyned
  have flight := h.tiled.flight
  rw [none, TCPSender.seqLength_nil] at flight
  refine ⟨none, ?_, ?_, flight.next, Nat.eq_zero_of_le_zero flight.acked⟩
  · rw [h.tiled.sent, none]
    rfl
  · by_contra fined
    obtain ⟨-, seg, created, -⟩ := h.tiled.fined (Bool.eq_true_of_not_eq_false fined)
    rw [none] at created
    cases created

/-- `fill_window` and `judge_do` put out the SYN first. -/
theorem fill_unsent (h : e.Sends) (waits : Unsent e.conn) (queue : e.conn.sender.segmentsOut = []) :
    let e' := e.fill.on (·.judgeDo)
    e'.conn.active = true ∧ e'.conn.sender.syned = true ∧
      ∃ first rest, e'.conn.segmentsOut = e.conn.segmentsOut ++ first :: rest ∧ first.header.syn = true ∧
        first.header.rst = false := by
  obtain ⟨-, -, unfinished, next, acked⟩ := h.before waits.unsyned
  have idle : e.conn.sender.bytesInFlight = 0 := by rw [TCPSender.bytesInFlight, next, acked]; rfl
  obtain ⟨ex, fills⟩ := TCPSender.fillWindow_first waits.unsyned unfinished idle
  obtain ⟨new, out⟩ := fills.out
  have syned : e.fill.conn.sender.syned = true := fills.syned rfl
  have open_ : e.fill.conn.sender.fullFined = false := by
    have total := h.fill.tiled.total
    have flight := h.fill.tiled.flight
    have window : e.fill.conn.sender.lastAckedAbsSeqno = 0 := e.conn.sender.fillWindow_fills.window.1.trans acked
    rw [syned, if_pos rfl] at total
    have few := flight.bounded
    rw [window] at few
    rw [Bool.eq_false_iff]
    intro full
    have level := ((TCPSender.fullFined_iff _).1 full).2
    rw [flight.next_eq (Nat.lt_of_le_of_lt few (by decide)), window] at level
    omega
  have resend : e.fill.conn.sender.resendTryTimes = 0 := e.conn.sender.fillWindow_fills.resend.trans waits.resend
  have pulled : e.fill.conn.judgeDo = e.fill.conn.pullPushSegments :=
    TCPConnection.judgeDo_pull waits.active waits.rst resend open_
  have queued : e.fill.conn.sender.segmentsOut = e.conn.sender.nextSegment ex :: new := by
    show e.conn.sender.fillWindow.segmentsOut = _
    rw [out, TCPSender.create_segmentsOut, queue]
    rfl
  obtain ⟨syn, rst⟩ := TCPConnection.outgoing_flags (c := e.fill.conn) waits.rst (e.conn.sender.nextSegment ex)
  refine ⟨?_, ?_, e.fill.conn.outgoing (e.conn.sender.nextSegment ex), new.map e.fill.conn.outgoing, ?_, ?_, rst⟩
  · rw [on, pulled]
    exact waits.active
  · rw [on, pulled]
    exact syned
  · rw [on, pulled, TCPConnection.pullPushSegments, queued]
    rfl
  · rw [syn, TCPSender.nextSegment, waits.unsyned]
    rfl

/-- `judge_do` on a connection whose SYN is not out. -/
theorem judge_unsent (h : p.Sends) (waits : Unsent p.conn) (listens : p.conn.receiver.syn = false) :
    Waits (p.on (·.judgeDo)).conn ∧ (p.on (·.judgeDo)).conn.segmentsOut =
      p.conn.segmentsOut ++ p.conn.sender.segmentsOut.map p.conn.outgoing := by
  have open_ : p.conn.sender.fullFined = false := by
    rw [TCPSender.fullFined, (h.before waits.unsyned).2.2.1]
    rfl
  rw [on, TCPConnection.judgeDo_pull waits.active waits.rst waits.resend open_]
  exact ⟨⟨⟨waits.active, waits.rst, waits.unsyned, waits.resend⟩, rfl, listens⟩, rfl⟩

theorem step_starts (h : e.Sends) (waits : Waits e.conn) {op : Op} (starts : op.starts = true)
    (run : e.step op = some e') : e'.conn.active = true ∧ e'.conn.sender.syned = true ∧
      ∃ first rest, e'.conn.segmentsOut = e.conn.segmentsOut ++ first :: rest ∧ first.header.syn = true ∧
        first.header.rst = false := by
  have same : Unsent e.conn := waits.toUnsent
  cases op with
  | connect =>
    rw [step_connect] at run
    obtain rfl := Option.some.inj run
    exact fill_unsent h same waits.queue
  | endInputStream =>
    rw [step_endInputStream] at run
    obtain rfl := Option.some.inj run
    exact fill_unsent h.endInput ⟨same.active, same.rst, same.unsyned, same.resend⟩ waits.queue
  | segmentReceived seg =>
    rw [Op.starts, Bool.and_eq_true, Bool.not_eq_true'] at starts
    obtain ⟨noRst, syn⟩ := starts
    rw [step_segment e noRst] at run
    obtain ⟨r, -, rfl⟩ := Option.map_eq_some_iff.1 run
    have reacts : (e.receive r).react seg = (e.receive r).fill := by
      rw [react, if_pos]
      rw [syn, show (e.receive r).conn.sender.syned = false from same.unsyned]
      rfl
    rw [reacts]
    exact fill_unsent (h.receive r) ⟨same.active, same.rst, same.unsyned, same.resend⟩ waits.queue
  | write | tick | read => cases starts

theorem step_resets (waits : Waits e.conn) {op : Op} (resets : op.resets = true) (run : e.step op = some e') :
    e'.conn.active = false ∧ e'.conn.segmentsOut = e.conn.segmentsOut := by
  cases op with
  | segmentReceived seg =>
    rw [step_rst e resets] at run
    obtain rfl := Option.some.inj run
    have closed : e.reset.conn.judgeDo = e.reset.conn.closeWithError false := by
      rw [TCPConnection.judgeDo, if_neg (by rw [show e.reset.conn.active = true from waits.active]; decide),
        if_pos (show e.reset.conn.rst = true from rfl)]
    have queue : e.reset.conn.sender.segmentsOut = [] := waits.queue
    rw [on, closed]
    refine ⟨rfl, ?_⟩
    simp only [TCPConnection.closeWithError, TCPConnection.pullPushSegments, TCPSender.setError, Bool.false_and,
      Bool.false_eq_true, if_false, queue, List.map_nil, List.append_nil]
    rfl
  | connect | write | endInputStream | tick | read => cases resets

/-- A segment that is not the SYN leaves a waiting connection as it is, but for the window and, if the segment occupies
sequence numbers, an empty segment. -/
theorem react_waits (h : e.Sends) (waits : Waits e.conn) (flagged : e.conn.receiver.Flagged) {seg : TCPSegment}
    (noSyn : seg.header.syn = false) : ∃ window, (e.react seg).conn = { e.conn with
      sender := { e.conn.sender with
        windowSize := window
        segmentsOut := if seg.lengthInSequenceSpace ≠ 0 then [e.conn.sender.emptySegment] else [] } } := by
  obtain ⟨-, -, -, next, acked⟩ := h.before waits.unsyned
  have unfinished : e.conn.receiver.fullFined = false := by
    rw [TCPReceiver.fullFined, flagged.waiting waits.listens]
    rfl
  have noAckno : e.conn.receiver.ackno = none := by
    rw [← Option.not_isSome_iff_eq_none, flagged.ackno_isSome, waits.listens]
    decide
  have ackSender : ∃ window,
      e.conn.ackSender seg = { e.conn with sender := { e.conn.sender with windowSize := window } } := by
    unfold TCPConnection.ackSender
    split
    · exact ⟨_, by rw [TCPSender.ackReceived_unsyned next acked]⟩
    · exact ⟨_, rfl⟩
  obtain ⟨window, acks⟩ := ackSender
  refine ⟨window, ?_⟩
  rw [react, if_neg (by simp [noSyn])]
  simp only [on, acks, fillIfSyned, waits.unsyned, Bool.false_eq_true, if_false, TCPConnection.noteLinger, unfinished,
    Bool.false_and, TCPConnection.replyEmpty, TCPConnection.repliesEmpty, waits.queue, noAckno]
  by_cases empty : seg.lengthInSequenceSpace = 0
  · simp [empty]
  · simp [empty, TCPSender.sendEmptySegment]
    rfl

/-- A segment that is neither a SYN nor a reset. -/
theorem segment_waits (h : e.Sends) (waits : Waits e.conn) (flagged : e.conn.receiver.Flagged) {seg : TCPSegment}
    (noRst : seg.header.rst = false) (noSyn : seg.header.syn = false) (run : e.step (.segmentReceived seg) = some e') :
    Waits e'.conn ∧ if seg.lengthInSequenceSpace ≠ 0 then ∃ reply, e'.conn.segmentsOut = e.conn.segmentsOut ++ [reply] ∧
        reply.header.syn = false ∧ reply.header.rst = false
      else e'.conn.segmentsOut = e.conn.segmentsOut := by
  have same : Unsent e.conn := waits.toUnsent
  have ignored : e.conn.receiver.segmentReceived? seg = some e.conn.receiver := by
    rw [TCPReceiver.segmentReceived?, if_pos]
    rw [TCPReceiver.ignores, noSyn, waits.listens]
    rfl
  rw [step_segment e noRst, ignored] at run
  obtain rfl := Option.some.inj run
  have received : Waits (e.receive e.conn.receiver).conn :=
    ⟨⟨same.active, same.rst, same.unsyned, same.resend⟩, waits.queue, waits.listens⟩
  obtain ⟨window, reacts⟩ := react_waits (h.receive _) received flagged noSyn
  have unsent : Unsent ((e.receive e.conn.receiver).react seg).conn := by
    rw [reacts]
    exact ⟨same.active, same.rst, same.unsyned, same.resend⟩
  obtain ⟨waits', out⟩ := judge_unsent ((h.receive _).react seg) unsent (by rw [reacts]; exact waits.listens)
  have before : ((e.receive e.conn.receiver).react seg).conn.segmentsOut = e.conn.segmentsOut := by
    rw [reacts]
    rfl
  refine ⟨waits', ?_⟩
  rw [out, before]
  by_cases empty : seg.lengthInSequenceSpace = 0
  · rw [if_neg (by simpa using empty), reacts]
    simp [empty]
  · rw [if_pos empty]
    obtain ⟨syn, rst⟩ := TCPConnection.outgoing_flags unsent.rst (e.receive e.conn.receiver).conn.sender.emptySegment
    refine ⟨_, ?_, syn, rst⟩
    rw [show ((e.receive e.conn.receiver).react seg).conn.sender.segmentsOut =
      [(e.receive e.conn.receiver).conn.sender.emptySegment] by rw [reacts]; simp [empty]]
    rfl

/-- An operation that puts nothing in the sender's queue. -/
theorem fillIfSyned_waits (h : p.Sends) (unsent : Unsent p.conn) (queue : p.conn.sender.segmentsOut = [])
    (listens : p.conn.receiver.syn = false) :
    Waits (p.fillIfSyned.on (·.judgeDo)).conn ∧ (p.fillIfSyned.on (·.judgeDo)).conn.segmentsOut = p.conn.segmentsOut := by
  have skips : p.fillIfSyned = p := by
    rw [fillIfSyned, if_neg]
    rw [unsent.unsyned]
    decide
  obtain ⟨waits, out⟩ := judge_unsent h unsent listens
  rw [skips]
  refine ⟨waits, ?_⟩
  rw [out, queue, List.map_nil, List.append_nil]

/-- Any operation that neither sends the SYN nor is a reset leaves a waiting connection waiting. The one thing it may put
out is the answer to a segment that occupies sequence numbers. -/
theorem step_waits (h : e.Sends) (waits : Waits e.conn) (flagged : e.conn.receiver.Flagged) {op : Op}
    (noStart : op.starts = false) (noReset : op.resets = false) (run : e.step op = some e') :
    Waits e'.conn ∧ if op.answered then ∃ reply, e'.conn.segmentsOut = e.conn.segmentsOut ++ [reply] ∧
        reply.header.syn = false ∧ reply.header.rst = false
      else e'.conn.segmentsOut = e.conn.segmentsOut := by
  have same : Unsent e.conn := waits.toUnsent
  cases op with
  | connect => cases noStart
  | endInputStream => cases noStart
  | read len =>
    rw [step_read] at run
    obtain rfl := Option.some.inj run
    exact ⟨⟨⟨same.active, same.rst, same.unsyned, same.resend⟩, waits.queue, waits.listens⟩, rfl⟩
  | write data =>
    rw [step_write] at run
    obtain rfl := Option.some.inj run
    have unsent : Unsent (e.accept data).conn := ⟨same.active, same.rst, same.unsyned, same.resend⟩
    exact fillIfSyned_waits (h.accept data) unsent waits.queue waits.listens
  | tick ms =>
    rw [step_tick] at run
    obtain rfl := Option.some.inj run
    have idle := TCPSender.tick_idle (h.before same.unsyned).2.1 ms
    have queue : (e.passTime ms).conn.sender.segmentsOut = [] := by simp only [passTime, on, idle, waits.queue]
    have unsent : Unsent (e.passTime ms).conn := by
      refine ⟨same.active, same.rst, ?_, ?_⟩
      · simp only [passTime, on, idle, same.unsyned]
      · simp only [passTime, on, idle, same.resend]
    exact fillIfSyned_waits (h.passTime ms) unsent queue waits.listens
  | segmentReceived seg =>
    have noRst : seg.header.rst = false := noReset
    have noSyn : seg.header.syn = false := by simpa [Op.starts, noRst] using noStart
    obtain ⟨waits', out⟩ := segment_waits h waits flagged noRst noSyn run
    refine ⟨waits', ?_⟩
    simpa [Op.answered, noRst, noSyn] using out

end Waits

theorem Sends.step_syned {e e' : Endpoint} (h : e.Sends) {op : Op} (run : e.step op = some e')
    (syned : e.conn.sender.syned = true) : e'.conn.sender.syned = true := by
  have created := h.tiled.syned.1 syned
  refine (h.step run).tiled.syned.2 ?_
  obtain ⟨conn, -, rfl⟩ := Option.map_eq_some_iff.1 run
  dsimp only
  split
  · exact List.append_ne_nil_of_left_ne_nil created _
  · exact created

end Endpoint

/-! ### The runs that keep the silence -/

/-- An endpoint, and what has happened to it: whether it was opened by `connect`, a SYN or a reset, whether
`end_input_stream` was called, and whether a segment that occupies sequence numbers arrived while it was active and its
SYN not out. -/
structure Listener where
  endpoint : Endpoint
  opened : Bool := false
  ended : Bool := false
  answered : Bool := false
  deriving DecidableEq

namespace Listener

open TCPConnection (Waits)

def step (w : Listener) (op : Op) : Option Listener :=
  (w.endpoint.step op).map fun endpoint => {
    endpoint
    opened := w.opened || op.opens
    ended := w.ended || op.ends
    answered := w.answered || (w.endpoint.conn.active && !w.endpoint.conn.sender.syned && op.answered) }

/-- What was put out so far. -/
def out (w : Listener) : List TCPSegment := w.endpoint.conn.segmentsOut

/-- Nothing is put out before the connection is opened, and the first segment put out that is not a reset carries the
SYN. -/
def KeepsSilence (w : Listener) : Prop :=
  (w.opened = false → w.out = []) ∧
    ∀ seg, w.out.find? (fun seg => !seg.header.rst) = some seg → seg.header.syn = true

/-- The invariant: the first segment put out is the SYN, or else the answer to a segment. -/
structure Listens (w : Listener) : Prop where
  sends : w.endpoint.Sends
  ends : Ends w.endpoint.conn
  waiting : w.endpoint.conn.active = true → w.endpoint.conn.sender.syned = false →
    Waits w.endpoint.conn ∧ (w.answered = false → w.out = [])
  spoken : w.endpoint.conn.active = true → w.endpoint.conn.sender.syned = true → w.out ≠ []
  head : ∀ first, w.out.head? = some first → first.header.rst = false ∧ first.header.syn = !w.answered
  answers : w.answered = true → w.out ≠ []
  unopened : w.opened = false → w.ended = false → w.answered = false →
    w.endpoint.conn.active = true ∧ w.endpoint.conn.sender.syned = false
  ended : w.opened = false → w.ended = true → w.out ≠ []

theorem Listens.new (cfg : TCPConfig) : Listens { endpoint := .new cfg } where
  sends := .new cfg
  ends := .new cfg
  waiting := fun _ _ => ⟨⟨⟨rfl, rfl, rfl, rfl⟩, rfl, rfl⟩, fun _ => rfl⟩
  spoken := by
    intro _ syned
    cases syned
  head := by
    intro first found
    cases found
  answers := by
    intro answered
    cases answered
  unopened := fun _ _ _ => ⟨rfl, rfl⟩
  ended := by
    intro _ ended
    cases ended

section Step

variable {w w' : Listener} {op : Op}

/-- The first segment of a history is that of what is appended only if there was none. -/
theorem head_append {P : TCPSegment → Prop} {old new : List TCPSegment} (first : ∀ seg, old.head? = some seg → P seg)
    (fresh : old = [] → ∀ seg, new.head? = some seg → P seg) : ∀ seg, (old ++ new).head? = some seg → P seg := by
  cases old with
  | nil => exact fresh rfl
  | cons seg rest => exact first

/-- An inactive connection stays silent. -/
theorem Listens.step_inactive (h : Listens w) (inactive : w.endpoint.conn.active = false) (run : w.step op = some w') :
    Listens w' := by
  obtain ⟨e, stepped, rfl⟩ := Option.map_eq_some_iff.1 run
  have silent := Endpoint.silent_of_inactive h.ends inactive stepped
  have dead : e.conn.active ≠ true := by simp [silent.inactive]
  have answered : (w.answered || (w.endpoint.conn.active && !w.endpoint.conn.sender.syned && op.answered)) = w.answered := by
    simp [inactive]
  -- before it was opened, it can only have died of what it had put out
  have spoke : w.opened = false → w.ended = false → w.answered = true := by
    intro unopened noEnd
    by_contra silent
    have alive := (h.unopened unopened noEnd (Bool.eq_false_iff.2 silent)).1
    rw [inactive] at alive
    cases alive
  refine ⟨h.sends.step stepped, h.ends.step stepped, fun alive => absurd alive dead, fun alive => absurd alive dead, ?_, ?_,
    fun unopened noEnd unanswered => ?_, fun unopened ended => ?_⟩
  · simp only [answered, out, silent.out]
    exact h.head
  · simp only [answered, out, silent.out]
    exact h.answers
  · rw [answered] at unanswered
    rw [spoke (Bool.or_eq_false_iff.1 unopened).1 (Bool.or_eq_false_iff.1 noEnd).1] at unanswered
    cases unanswered
  · simp only [out, silent.out]
    cases before : w.ended with
    | true => exact h.ended (Bool.or_eq_false_iff.1 unopened).1 before
    | false => exact h.answers (spoke (Bool.or_eq_false_iff.1 unopened).1 before)

/-- Once the SYN is out the first segment is fixed. -/
theorem Listens.step_syned (h : Listens w) (active : w.endpoint.conn.active = true)
    (syned : w.endpoint.conn.sender.syned = true) (run : w.step op = some w') : Listens w' := by
  obtain ⟨e, stepped, rfl⟩ := Option.map_eq_some_iff.1 run
  have syned' := h.sends.step_syned stepped syned
  obtain ⟨new, appended⟩ := Endpoint.step_out stepped
  have some := h.spoken active syned
  have still : e.conn.segmentsOut ≠ [] := by
    rw [appended]
    exact List.append_ne_nil_of_left_ne_nil some _
  have answered : (w.answered || (w.endpoint.conn.active && !w.endpoint.conn.sender.syned && op.answered)) = w.answered := by
    simp [syned]
  refine ⟨h.sends.step stepped, h.ends.step stepped, fun _ unsyned => ?_, fun _ _ => still, ?_, fun _ => still,
    fun unopened noEnd unanswered => ?_, fun _ _ => still⟩
  · rw [syned'] at unsyned
    cases unsyned
  · simp only [answered, out, appended]
    exact head_append h.head fun none => absurd none some
  · rw [answered] at unanswered
    have unsyned := (h.unopened (Bool.or_eq_false_iff.1 unopened).1 (Bool.or_eq_false_iff.1 noEnd).1 unanswered).2
    rw [syned] at unsyned
    cases unsyned

/-- The step that puts out the SYN. -/
theorem Listens.step_starts (h : Listens w) (waits : Waits w.endpoint.conn) (starts : op.starts = true)
    (run : w.step op = some w') : Listens w' := by
  obtain ⟨e, stepped, rfl⟩ := Option.map_eq_some_iff.1 run
  obtain ⟨active, syned, first, rest, appended, syn, rst⟩ := Endpoint.step_starts h.sends waits starts stepped
  have some : e.conn.segmentsOut ≠ [] := by rw [appended]; simp
  have unanswered : op.answered = false := by
    cases op <;> simp_all [Op.starts, Op.answered]
  have opens : (op.opens || op.ends) = true := by
    cases op <;> simp_all [Op.starts, Op.opens, Op.ends]
  refine ⟨h.sends.step stepped, h.ends.step stepped, fun _ unsyned => ?_, fun _ _ => some, ?_, fun _ => some,
    fun unopened noEnd _ => ?_, fun _ _ => some⟩
  · rw [syned] at unsyned
    cases unsyned
  · simp only [unanswered, Bool.and_false, Bool.or_false, out, appended]
    refine head_append h.head fun none seg found => ?_
    obtain rfl := Option.some.inj found
    refine ⟨rst, ?_⟩
    cases answered : w.answered with
    | false => exact syn
    | true => exact absurd none (h.answers answered)
  · rw [Bool.or_eq_false_iff] at unopened noEnd
    rw [unopened.2, noEnd.2] at opens
    cases opens

/-- A step that leaves the connection waiting. -/
theorem Listens.step_waits (h : Listens w) (active : w.endpoint.conn.active = true)
    (unsyned : w.endpoint.conn.sender.syned = false) (noStart : op.starts = false) (noReset : op.resets = false)
    (run : w.step op = some w') : Listens w' := by
  obtain ⟨e, stepped, rfl⟩ := Option.map_eq_some_iff.1 run
  obtain ⟨waits, before⟩ := h.waiting active unsyned
  obtain ⟨waits', put⟩ := Endpoint.step_waits h.sends waits h.ends.flagged noStart noReset stepped
  have ends : op.ends = false := by
    cases op <;> simp_all [Op.starts, Op.ends]
  have answered : (w.answered || (w.endpoint.conn.active && !w.endpoint.conn.sender.syned && op.answered)) =
      (w.answered || op.answered) := by
    simp [active, unsyned]
  have older : e.conn.segmentsOut = [] → w.out = [] := by
    obtain ⟨new, appended⟩ := Endpoint.step_out stepped
    rw [appended]
    exact fun none => (List.append_eq_nil_iff.1 none).1
  refine ⟨h.sends.step stepped, h.ends.step stepped, fun _ _ => ⟨waits', fun unanswered => ?_⟩, fun _ syned => ?_, ?_, ?_,
    fun _ _ _ => ⟨waits'.active, waits'.unsyned⟩, fun unopened ended none => ?_⟩
  · rw [answered, Bool.or_eq_false_iff] at unanswered
    rw [unanswered.2, if_neg (by decide)] at put
    exact put.trans (before unanswered.1)
  · rw [waits'.unsyned] at syned
    cases syned
  · simp only [answered, out]
    by_cases isAnswered : op.answered = true
    · rw [if_pos isAnswered] at put
      obtain ⟨reply, appended, syn, rst⟩ := put
      rw [appended, isAnswered, Bool.or_true]
      refine head_append (fun seg found => ?_) fun _ seg found => ?_
      · -- the history is nonempty, so a segment was answered before
        have old : w.answered = true := by
          by_contra unanswered
          rw [show w.endpoint.conn.segmentsOut = [] from before (Bool.eq_false_iff.2 unanswered)] at found
          cases found
        obtain ⟨rst, syn⟩ := h.head seg found
        exact ⟨rst, by rw [syn, old]⟩
      · obtain rfl := Option.some.inj found
        exact ⟨rst, syn⟩
    · rw [if_neg isAnswered] at put
      rw [put, Bool.eq_false_iff.2 isAnswered, Bool.or_false]
      exact h.head
  · simp only [answered, Bool.or_eq_true]
    rintro (old | new) none
    · exact h.answers old (older none)
    · rw [if_pos new] at put
      obtain ⟨reply, appended, -⟩ := put
      rw [show e.conn.segmentsOut = [] from none] at appended
      simp at appended
  · rw [ends, Bool.or_false] at ended
    exact h.ended (Bool.or_eq_false_iff.1 unopened).1 ended (older none)

theorem Listens.step_resets (h : Listens w) (waits : Waits w.endpoint.conn) (resets : op.resets = true)
    (run : w.step op = some w') : Listens w' := by
  obtain ⟨e, stepped, rfl⟩ := Option.map_eq_some_iff.1 run
  obtain ⟨inactive, same⟩ := Endpoint.step_resets waits resets stepped
  have dead : e.conn.active ≠ true := by simp [inactive]
  have unanswered : op.answered = false := by
    cases op <;> simp_all [Op.resets, Op.answered]
  have opens : op.opens = true := by
    cases op <;> simp_all [Op.resets, Op.opens]
  have contra : ∀ {P : Prop}, (w.opened || op.opens) = false → P := by
    intro P unopened
    rw [opens, Bool.or_true] at unopened
    cases unopened
  refine ⟨h.sends.step stepped, h.ends.step stepped, fun alive => absurd alive dead, fun alive => absurd alive dead, ?_, ?_,
    fun unopened => contra unopened, fun unopened => contra unopened⟩
  · simp only [unanswered, Bool.and_false, Bool.or_false, out, same]
    exact h.head
  · simp only [unanswered, Bool.and_false, Bool.or_false, out, same]
    exact h.answers

/-- **Every operation** keeps the invariant, whatever segments arrive. -/
theorem Listens.step (h : Listens w) (run : w.step op = some w') : Listens w' := by
  cases active : w.endpoint.conn.active with
  | false => exact h.step_inactive active run
  | true =>
    cases syned : w.endpoint.conn.sender.syned with
    | true => exact h.step_syned active syned run
    | false =>
      have waits := (h.waiting active syned).1
      cases starts : op.starts with
      | true => exact h.step_starts waits starts run
      | false =>
        cases resets : op.resets with
        | true => exact h.step_resets waits resets run
        | false => exact h.step_waits active syned starts resets run

end Step

/-- **A listening connection stays silent until a SYN exactly when** no segment that occupies sequence numbers arrives
before its SYN is out and `end_input_stream` is not called before it is opened, in every run and whatever segments
arrive. -/
theorem keeps_silence_iff (cfg : TCPConfig) (w : Listener)
    (run : Reaches Listener.step (fun _ _ => True) { endpoint := .new cfg } w) :
    w.KeepsSilence ↔ w.answered = false ∧ (w.opened = false → w.ended = false) := by
  have listens : Listens w := run.invariant (.new cfg) fun _ _ _ listens _ step => listens.step step
  constructor
  · rintro ⟨silent, firstSyn⟩
    refine ⟨?_, fun unopened => ?_⟩
    · by_contra answered
      rw [Bool.not_eq_false] at answered
      obtain ⟨first, rest, found⟩ := List.exists_cons_of_ne_nil (listens.answers answered)
      obtain ⟨rst, syn⟩ := listens.head first (by rw [found]; rfl)
      rw [firstSyn first (by rw [found, List.find?_cons_of_pos (by rw [rst]; rfl)]), answered] at syn
      cases syn
    · by_contra ended
      rw [Bool.not_eq_false] at ended
      exact listens.ended unopened ended (silent unopened)
  · rintro ⟨unanswered, noEnd⟩
    refine ⟨fun unopened => ?_, fun seg found => ?_⟩
    · obtain ⟨active, unsyned⟩ := listens.unopened unopened (noEnd unopened) unanswered
      exact (listens.waiting active unsyned).2 unanswered
    · -- the first segment is no reset, so it is the one found
      cases history : w.out with
      | nil =>
        rw [history] at found
        cases found
      | cons first rest =>
        obtain ⟨rst, syn⟩ := listens.head first (by rw [history]; rfl)
        rw [history, List.find?_cons_of_pos (by rw [rst]; rfl)] at found
        obtain rfl := Option.some.inj found
        rw [syn, unanswered]
        rfl

/-- A write, time and an acknowledgment of nothing, then the peer's SYN. -/
theorem keeps_silence_iff_accepted :
    ∃ w, follow Listener.step (fun _ _ => True) { endpoint := .new { isn := .ofNat 0 } }
        [.write [1], .tick 1000, .segmentReceived { header := { ack := true, ackno := .ofNat 1, win := 10 } },
          .segmentReceived { header := { syn := true, win := 10 } }] = some w ∧
      w.out.length = 1 ∧ (w.KeepsSilence ↔ w.answered = false ∧ (w.opened = false → w.ended = false)) := by
  obtain ⟨w, run, put⟩ := Option.map_eq_some_iff.1 (show (follow Listener.step (fun _ _ => True)
    { endpoint := .new { isn := .ofNat 0 } } [.write [1], .tick 1000,
      .segmentReceived { header := { ack := true, ackno := .ofNat 1, win := 10 } },
      .segmentReceived { header := { syn := true, win := 10 } }]).map (fun w => w.out.length) = some 1 by decide +kernel)
  exact ⟨w, run, put, keeps_silence_iff _ w (Reaches.start.follow run)⟩

/-- One byte of data reaches a listening connection: an empty segment without SYN goes out. -/
theorem data_answered :
    ¬ ∀ (cfg : TCPConfig) (w : Listener), Reaches Listener.step (fun _ _ => True) { endpoint := .new cfg } w →
      w.KeepsSilence := by
  intro claim
  have facts : (follow Listener.step (fun _ _ => True) { endpoint := .new { isn := .ofNat 0 } }
      [.segmentReceived { payload := [1] }]).map (fun w => (w.opened, w.out.length)) = some (false, 1) := by
    decide +kernel
  obtain ⟨w, run, seen⟩ := Option.map_eq_some_iff.1 facts
  obtain ⟨unopened, put⟩ : w.opened = false ∧ w.out.length = 1 := by simpa using seen
  have silent := (claim { isn := .ofNat 0 } w (Reaches.start.follow run)).1 unopened
  rw [silent] at put
  cases put

end Listener

end Sponge
