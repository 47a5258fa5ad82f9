import Sponge.Tcp.LateWrites
import Sponge.Tcp.Listening
import Sponge.Tcp.TCPState

/-!
# The official states of a connection

Most combinations of the two summaries and the two flags have no official name.
`Stands` excludes them, for any segments, up to two orders of arrival that the
source does not look at: an acknowledgment of the own SYN that comes before the
peer's SYN, and a FIN that comes before the own SYN is acknowledged. `Orderly` is
their absence, a condition on a segment and the connection it arrives at. The
summary of the sender is computed from 64-bit counters, and fails when the bytes
written, the SYN and the FIN are `2 ^ 64` numbers or more.
-/

namespace Sponge

open TCPConnection (Op)

namespace TCPSender

/-- What the sender does besides taking an acknowledgment. -/
structure Onward (s t : TCPSender) : Prop where
  acked : t.lastAckedAbsSeqno = s.lastAckedAbsSeqno
  syned : s.syned = true → t.syned = true
  fined : s.fined = true → t.fined = true

variable {s t u : TCPSender}

theorem Onward.refl (s : TCPSender) : Onward s s := ⟨rfl, fun syned => syned, fun fined => fined⟩

theorem Onward.trans (h : Onward s t) (h' : Onward t u) : Onward s u :=
  ⟨h'.acked.trans h.acked, fun syned => h'.syned (h.syned syned), fun fined => h'.fined (h.fined fined)⟩

theorem Onward.of_same (same : SameData s t) : Onward s t :=
  ⟨same.acked, same.syned.trans, same.fined.trans⟩

theorem Onward.fill (s : TCPSender) : Onward s s.fillWindow :=
  ⟨s.fillWindow_fills.window.1, s.fillWindow_fills.syned, fun fined => ((keeps_fillWindow s).fined fined).1⟩

/-- The segment acknowledges something that was sent and not acknowledged. -/
def acceptsAck (s : TCPSender) (hder : TCPHeader) : Bool :=
  hder.ack && decide (s.lastAckedAbsSeqno < unwrap hder.ackno s.isn s.lastAckedAbsSeqno) &&
    decide (unwrap hder.ackno s.isn s.lastAckedAbsSeqno ≤ s.nextAbsSeqno)

end TCPSender

namespace TCPConnection

open TCPSender (Onward)

variable {c : TCPConnection} {seg : TCPSegment}

/-- A connection that `judge_do` leaves active has only been pulled from. -/
theorem judgeDo_alive (alive : c.judgeDo.active = true) : c.judgeDo = c.pullPushSegments ∧
    (c.lingerAfterStreamsFinish = false → c.sender.fullFined = false) := by
  revert alive
  unfold judgeDo
  split
  · rename_i inactive
    intro alive
    rw [alive] at inactive
    cases inactive
  split
  · exact nofun
  split
  · exact nofun
  split
  · exact nofun
  split
  · exact nofun
  · rename_i open_
    refine fun _ => ⟨rfl, fun off => ?_⟩
    rw [off] at open_
    simpa using open_

/-- The number acknowledged after `ack_received`: it only grows, and becomes positive with an acknowledgment that is
accepted. -/
theorem ackSender_acked (c : TCPConnection) (seg : TCPSegment) :
    0 < (c.ackSender seg).sender.lastAckedAbsSeqno ↔
      0 < c.sender.lastAckedAbsSeqno ∨ c.sender.acceptsAck seg.header = true := by
  unfold ackSender TCPSender.acceptsAck
  split
  · rename_i isAck
    rw [(c.sender.ackReceived_spec seg.header.ackno seg.header.win).acked]
    simp only [isAck, Bool.true_and, Bool.and_eq_true, decide_eq_true_eq]
    split <;> omega
  · rename_i noAck
    simp [noAck]

/-- The flag stays only if the own FIN is out. -/
theorem noteLinger_lingers (lingers : c.noteLinger.lingerAfterStreamsFinish = true)
    (ended : c.receiver.fullFined = true) : c.sender.fined = true := by
  by_contra unfinished
  rw [noteLinger, if_pos (by simp [ended, unfinished])] at lingers
  cases lingers

end TCPConnection

namespace Endpoint

open TCPSender (Onward)

variable {e p : Endpoint}

theorem onward_fillIfSyned (e : Endpoint) : Onward e.conn.sender e.fillIfSyned.conn.sender := by
  unfold fillIfSyned
  split
  · exact .fill _
  · exact .refl _

/-- Every operation but the arrival of a segment leaves the receiver, the linger flag and the number acknowledged. -/
theorem prepare?_onward {op : Op} (run : e.prepare? op = some p)
    (noSegment : ∀ seg, op = .segmentReceived seg → seg.header.rst = true) :
    Onward e.conn.sender p.conn.sender ∧ p.conn.receiver = e.conn.receiver ∧
      p.conn.lingerAfterStreamsFinish = e.conn.lingerAfterStreamsFinish := by
  have fillIfSyned : ∀ q : Endpoint, q.fillIfSyned.conn.receiver = q.conn.receiver ∧
      q.fillIfSyned.conn.lingerAfterStreamsFinish = q.conn.lingerAfterStreamsFinish := by
    intro q
    unfold Endpoint.fillIfSyned
    split <;> exact ⟨rfl, rfl⟩
  rcases prepare?_cases run with ⟨-, rfl⟩ | ⟨data, -, rfl⟩ | ⟨-, rfl⟩ | ⟨ms, -, rfl⟩ | ⟨seg, -, -, rfl⟩ |
    ⟨seg, r, is, noRst, -, rfl⟩
  · exact ⟨.fill _, rfl, rfl⟩
  · have accepted : Onward e.conn.sender (e.accept data).conn.sender := ⟨rfl, fun syned => syned, fun fined => fined⟩
    exact ⟨accepted.trans (onward_fillIfSyned _), fillIfSyned (e.accept data)⟩
  · have ended : Onward e.conn.sender e.endInput.conn.sender := ⟨rfl, fun syned => syned, fun fined => fined⟩
    exact ⟨ended.trans (.fill _), rfl, rfl⟩
  · have ticked : Onward e.conn.sender (e.passTime ms).conn.sender := .of_same (e.conn.sender.tick_spec ms).1
    exact ⟨ticked.trans (onward_fillIfSyned _), fillIfSyned (e.passTime ms)⟩
  · exact ⟨.refl _, rfl, rfl⟩
  · rw [noSegment seg is] at noRst
    cases noRst

/-- A segment after the receiver has taken it, unless it is the SYN that opens the connection: the sender takes the
acknowledgment, and the linger flag is cleared if the inbound stream has ended before the own FIN is out. -/
theorem react_onward (e : Endpoint) {seg : TCPSegment} (noOpen : (seg.header.syn && !e.conn.sender.syned) = false) :
    Onward (e.conn.ackSender seg).sender (e.react seg).conn.sender ∧
      (e.react seg).conn.receiver = e.conn.receiver ∧
      ((e.react seg).conn.lingerAfterStreamsFinish = true → e.conn.receiver.fullFined = true →
        (e.react seg).conn.sender.fined = true) := by
  have receiver := (readies_react e seg).receiver
  rw [react, if_neg (by rw [noOpen]; decide)] at receiver ⊢
  have filled := onward_fillIfSyned (e.on (·.ackSender seg))
  have filledReceiver : (e.on (·.ackSender seg)).fillIfSyned.conn.receiver = e.conn.receiver :=
    ((TCPConnection.Readies.ackSender e.conn seg).trans (readies_fillIfSyned (e.on (·.ackSender seg)))).receiver
  generalize (e.on (·.ackSender seg)).fillIfSyned = q at *
  have reply := replyEmpty_same q.conn.noteLinger seg
  have linger : q.conn.noteLinger.sender = q.conn.sender := by rw [noteLinger_eq]
  rw [linger] at reply
  refine ⟨filled.trans (.of_same reply), receiver, fun lingers ended => ?_⟩
  have kept : (q.conn.noteLinger.replyEmpty seg).lingerAfterStreamsFinish = q.conn.noteLinger.lingerAfterStreamsFinish := by
    rw [replyEmpty_eq]
  rw [← filledReceiver] at ended
  exact reply.fined.trans (TCPConnection.noteLinger_lingers (kept.symm.trans lingers) ended)

/-- Once `fill_window` has run, the SYN is out. -/
theorem Sends.fill_syned (h : e.Sends) : e.fill.conn.sender.syned = true := by
  cases syned : e.conn.sender.syned with
  | true => exact (Onward.fill _).syned syned
  | false =>
    obtain ⟨-, -, unfinished, next, acked⟩ := h.before syned
    have idle : e.conn.sender.bytesInFlight = 0 := by rw [TCPSender.bytesInFlight, next, acked]; rfl
    obtain ⟨ex, fills⟩ := TCPSender.fillWindow_first syned unfinished idle
    exact fills.syned rfl

/-- What the flags of an active connection say of each other. -/
structure Regular (c : TCPConnection) : Prop where
  synced : c.receiver.syn = true → c.sender.syned = true
  heard : 0 < c.sender.lastAckedAbsSeqno → c.receiver.syn = true
  acked : c.receiver.fin ≠ .notReceived → 0 < c.sender.lastAckedAbsSeqno
  linger : c.lingerAfterStreamsFinish = true → c.receiver.fullFined = true → c.sender.fined = true

/-- The owner writes before it ends its stream. -/
def WritesInTime (e : Endpoint) : Op → Prop
  | .write _ => e.conn.sender.stream.inputEnded = false
  | _ => True

/-- A segment arrives in order at an active connection: it acknowledges nothing before the peer's SYN is received, and a
FIN is not taken before the own SYN is acknowledged. -/
def Orderly (e : Endpoint) : Op → Prop
  | .segmentReceived seg => e.conn.active = true → seg.header.rst = false →
      (e.conn.receiver.ackno = none → seg.header.syn = false → e.conn.sender.acceptsAck seg.header = false) ∧
      (seg.header.fin = true → e.conn.receiver.ignores seg = false →
        0 < e.conn.sender.lastAckedAbsSeqno ∨ e.conn.sender.acceptsAck seg.header = true)
  | _ => True

/-- The fields of the invariant that an operation other than a segment leaves. -/
theorem Regular.onward {c c' : TCPConnection} (h : Regular c) (onward : Onward c.sender c'.sender)
    (receiver : c'.receiver = c.receiver) (linger : c'.lingerAfterStreamsFinish = c.lingerAfterStreamsFinish) :
    Regular c' := by
  refine ⟨?_, ?_, ?_, ?_⟩
  · rw [receiver]
    exact fun syn => onward.syned (h.synced syn)
  · rw [receiver, onward.acked]
    exact h.heard
  · rw [receiver, onward.acked]
    exact h.acked
  · rw [receiver, linger]
    exact fun lingers ended => onward.fined (h.linger lingers ended)

/-- The FIN was taken with this segment or before it. -/
theorem Regular.fin_acked {c : TCPConnection} (h : Regular c) {seg : TCPSegment} {r : TCPReceiver}
    (took : TCPReceiver.Took seg c.receiver r) (fin : r.fin ≠ .notReceived)
    (order : seg.header.fin = true → c.receiver.ignores seg = false →
      0 < c.sender.lastAckedAbsSeqno ∨ c.sender.acceptsAck seg.header = true) :
    0 < c.sender.lastAckedAbsSeqno ∨ c.sender.acceptsAck seg.header = true := by
  by_cases before : c.receiver.fin = .notReceived
  · have taken : ¬ (seg.header.fin = false ∨ c.receiver.ignores seg = true) := fun none => fin (took.fin before none)
    simp only [not_or, Bool.not_eq_false, Bool.not_eq_true] at taken
    exact order taken.1 taken.2
  · exact Or.inl (h.acked before)

/-- The SYN that opens the connection. -/
theorem Regular.opens (h : Regular e.conn) (sends : e.Sends) {seg : TCPSegment} {r : TCPReceiver}
    (took : TCPReceiver.Took seg e.conn.receiver r) (unsyned : e.conn.sender.syned = false)
    (order : seg.header.fin = true → e.conn.receiver.ignores seg = false →
      0 < e.conn.sender.lastAckedAbsSeqno ∨ e.conn.sender.acceptsAck seg.header = true) :
    Regular (e.receive r).fill.conn := by
  obtain ⟨-, -, -, next, acked⟩ := sends.before unsyned
  have none : (e.receive r).fill.conn.sender.lastAckedAbsSeqno = 0 := (Onward.fill _).acked.trans acked
  have noFin : r.fin = .notReceived := by
    by_contra fin
    rcases h.fin_acked took fin order with before | accepted
    · omega
    · simp only [TCPSender.acceptsAck, next, Bool.and_eq_true, decide_eq_true_eq] at accepted
      omega
  refine ⟨fun _ => (sends.receive r).fill_syned, fun heard => ?_, fun fin => absurd noFin fin, fun _ ended => ?_⟩
  · omega
  · rw [TCPReceiver.fullFined, show (e.receive r).fill.conn.receiver.fin = .notReceived from noFin] at ended
    cases ended

/-- Any other segment: the acknowledgment is taken after the receiver has seen the segment. -/
theorem Regular.reacts (h : Regular e.conn) (flagged : e.conn.receiver.Flagged) {seg : TCPSegment} {r : TCPReceiver}
    (took : TCPReceiver.Took seg e.conn.receiver r) (noOpen : (seg.header.syn && !e.conn.sender.syned) = false)
    (early : e.conn.receiver.ackno = none → seg.header.syn = false → e.conn.sender.acceptsAck seg.header = false)
    (order : seg.header.fin = true → e.conn.receiver.ignores seg = false →
      0 < e.conn.sender.lastAckedAbsSeqno ∨ e.conn.sender.acceptsAck seg.header = true) :
    Regular ((e.receive r).react seg).conn := by
  obtain ⟨onward, receiver, linger⟩ := react_onward (e.receive r) noOpen
  have acked : 0 < ((e.receive r).react seg).conn.sender.lastAckedAbsSeqno ↔
      0 < e.conn.sender.lastAckedAbsSeqno ∨ e.conn.sender.acceptsAck seg.header = true := by
    rw [onward.acked]
    exact TCPConnection.ackSender_acked (e.receive r).conn seg
  have syned : e.conn.sender.syned = true → ((e.receive r).react seg).conn.sender.syned = true := by
    intro syned
    apply onward.syned
    rw [ackSender_syned]
    exact syned
  have syn : ((e.receive r).react seg).conn.receiver.syn = true ↔
      e.conn.receiver.syn = true ∨ seg.header.syn = true := by
    rw [receiver, show (e.receive r).conn.receiver.syn = r.syn from rfl, took.syn, Bool.or_eq_true]
  refine ⟨fun received => ?_, fun heard => ?_, fun fin => ?_, fun lingers ended => ?_⟩
  · rcases syn.1 received with before | isSyn
    · exact syned (h.synced before)
    · rw [isSyn, Bool.true_and, Bool.not_eq_false'] at noOpen
      exact syned noOpen
  · rw [syn]
    rcases acked.1 heard with before | accepted
    · exact Or.inl (h.heard before)
    · -- the acknowledgment comes after the SYN or with it
      by_contra neither
      rw [not_or, Bool.not_eq_true, Bool.not_eq_true] at neither
      have noAckno : e.conn.receiver.ackno = none := by
        rw [← Option.not_isSome_iff_eq_none, flagged.ackno_isSome, neither.1]
        decide
      rw [early noAckno neither.2] at accepted
      cases accepted
  · rw [receiver] at fin
    exact acked.2 (h.fin_acked took fin order)
  · rw [receiver] at ended
    exact linger lingers ended

/-- **Any operation** on an active connection, up to `judge_do`. -/
theorem Regular.prepare (h : Regular e.conn) (sends : e.Sends) (flagged : e.conn.receiver.Flagged)
    (active : e.conn.active = true) {op : Op} (orderly : Orderly e op) (run : e.prepare? op = some p) : Regular p.conn := by
  by_cases segment : ∃ seg, op = .segmentReceived seg ∧ seg.header.rst = false
  · obtain ⟨seg, rfl, noRst⟩ := segment
    rw [prepare?, if_neg (by rw [noRst]; decide)] at run
    obtain ⟨r, received, rfl⟩ := Option.map_eq_some_iff.1 run
    have took := flagged.took received
    obtain ⟨early, order⟩ := orderly active noRst
    cases opens : (seg.header.syn && !e.conn.sender.syned) with
    | true =>
      have reacts : (e.receive r).react seg = (e.receive r).fill := if_pos opens
      rw [Bool.and_eq_true, Bool.not_eq_true'] at opens
      rw [reacts]
      exact h.opens sends took opens.2 order
    | false => exact h.reacts flagged took opens early order
  · obtain ⟨onward, receiver, linger⟩ := prepare?_onward run fun seg is => by
      by_contra noRst
      exact segment ⟨seg, is, Bool.eq_false_iff.2 noRst⟩
    exact h.onward onward receiver linger

/-- The invariant between operations. -/
structure Stands (e : Endpoint) : Prop where
  sends : e.Sends
  ends : Ends e.conn
  closed : e.conn.sender.Closed
  regular : e.conn.active = true → Regular e.conn
  passive : e.conn.active = true → e.conn.lingerAfterStreamsFinish = false → e.conn.sender.fullFined = false

theorem Stands.new (cfg : TCPConfig) : Stands (.new cfg) where
  sends := .new cfg
  ends := .new cfg
  closed := by
    intro fined
    cases fined
  regular := by
    intro _
    refine ⟨?_, ?_, ?_, ?_⟩
    · intro syn
      cases syn
    · intro acked
      cases acked
    · intro fin
      exact absurd rfl fin
    · intro _ ended
      cases ended
  passive := by
    intro _ off
    cases off

/-- Behind the FIN nothing is written. -/
theorem Sends.step_closed (h : e.Sends) (closed : e.conn.sender.Closed) {e' : Endpoint} {op : Op}
    (inTime : WritesInTime e op) (run : e.step op = some e') : e'.conn.sender.Closed := by
  by_cases isWrite : ∃ data, op = .write data
  · obtain ⟨data, rfl⟩ := isWrite
    refine (write_step run).2 (Bool.eq_false_iff.2 fun fined => ?_)
    have ended := (h.tiled.fined fined).1
    rw [show e.conn.sender.stream.inputEnded = false from inTime] at ended
    cases ended
  · exact (keeps_step (fun data is => isWrite ⟨data, is⟩) run).closed closed

/-- `judge_do` closes a connection that need not linger as soon as its own stream is finished. -/
theorem Regular.judge (h : Regular p.conn) (alive : p.conn.judgeDo.active = true) :
    Regular p.conn.judgeDo ∧
      (p.conn.judgeDo.lingerAfterStreamsFinish = false → p.conn.judgeDo.sender.fullFined = false) := by
  obtain ⟨pulled, open_⟩ := TCPConnection.judgeDo_alive alive
  rw [pulled]
  exact ⟨⟨h.synced, h.heard, h.acked, h.linger⟩, open_⟩

/-- **Every operation** that is in time and in order keeps the invariant. -/
theorem Stands.step (h : Stands e) {e' : Endpoint} {op : Op} (inTime : WritesInTime e op) (orderly : Orderly e op)
    (run : e.step op = some e') : Stands e' := by
  have flags : e'.conn.active = true → Regular e'.conn ∧
      (e'.conn.lingerAfterStreamsFinish = false → e'.conn.sender.fullFined = false) := by
    intro alive
    rcases step_cases run with ⟨p, prepared, rfl⟩ | ⟨len, -, rfl⟩
    · have active := ((judged p.conn).alive alive).1
      rw [prepare?_active prepared] at active
      exact ((h.regular active).prepare h.sends h.ends.flagged active orderly prepared).judge alive
    · have regular := h.regular alive
      exact ⟨⟨regular.synced, regular.heard, regular.acked, regular.linger⟩, h.passive alive⟩
  exact ⟨h.sends.step run, h.ends.step run, h.sends.step_closed h.closed inTime run, fun alive => (flags alive).1,
    fun alive => (flags alive).2⟩

/-- The state has an official name. -/
def InOfficialState (e : Endpoint) : Prop := ∃ s : TCPState.State, e.conn.state = .ofState s

instance (e : Endpoint) : Decidable (InOfficialState e) :=
  decidable_of_iff (∃ s ∈ TCPState.State.all, e.conn.state = .ofState s)
    ⟨fun ⟨s, _, is⟩ => ⟨s, is⟩, fun ⟨s, is⟩ => ⟨s, TCPState.State.mem_all s, is⟩⟩

/-- The numbers sent are words if the bytes written, the SYN and the FIN are. -/
theorem Sends.few (h : e.Sends) (short : e.written.length + 2 < word64) : TCPSender.seqLength e.created < word64 :=
  Nat.lt_of_le_of_lt h.tiled.seqLength_le short

/-- An inactive connection was reset or is closed. -/
theorem Stands.official_inactive (h : Stands e) (short : e.written.length + 2 < word64)
    (inactive : e.conn.active = false) : InOfficialState e := by
  cases error : e.conn.inboundStream.error with
  | true =>
    refine ⟨.reset, ?_⟩
    have outbound := h.ends.errors.trans error
    have inbound : e.conn.receiver.streamOut.error = true := error
    simp [TCPConnection.state, TCPState.ofState, TCPReceiver.stateSummary, TCPSender.stateSummary, inactive, outbound,
      inbound]
  | false =>
    refine ⟨.closed, ?_⟩
    obtain ⟨sent, received⟩ := h.ends.clean inactive error
    have syn : e.conn.receiver.syn = true := by
      by_contra none
      rw [TCPReceiver.fullFined, h.ends.flagged.waiting (Bool.eq_false_iff.2 none)] at received
      cases received
    obtain ⟨fined, level⟩ := (TCPSender.fullFined_iff _).1 sent
    have next := h.sends.tiled.fined_next (h.sends.few short) fined
    simp only [TCPConnection.state, TCPState.ofState, h.ends.flagged.stateSummary error,
      h.sends.tiled.stateSummary short h.closed (h.ends.errors.trans error), inactive, syn, received, fined, if_true]
    rw [if_neg next, if_neg (by omega), if_pos level]
    rfl

/-- Without an error the state is the flags and the numbers of the two parties. -/
theorem Stands.state_active (h : Stands e) (short : e.written.length + 2 < word64) (active : e.conn.active = true) :
    e.conn.state = {
      sender :=
        if e.conn.sender.nextAbsSeqno = 0 then .closed
        else if e.conn.sender.lastAckedAbsSeqno = 0 then .synSent
        else if e.conn.sender.fined then
          (if e.conn.sender.nextAbsSeqno = e.conn.sender.lastAckedAbsSeqno then .finAcked else .finSent)
        else .synAcked
      receiver := if e.conn.receiver.syn then (if e.conn.receiver.fullFined then .finRecv else .synRecv) else .listen
      lingerAfterStreamsFinish := e.conn.lingerAfterStreamsFinish } := by
  have fine : e.conn.inboundStream.error = false := by
    by_contra error
    rw [h.ends.failed (Bool.eq_true_of_not_eq_false error)] at active
    cases active
  rw [TCPConnection.state, h.ends.flagged.stateSummary fine,
    h.sends.tiled.stateSummary short h.closed (h.ends.errors.trans fine), active, if_pos rfl]

/-- The connection lingers at least until the inbound stream has ended. -/
theorem Stands.lingers (h : Stands e) (more : e.conn.receiver.fullFined = false) :
    e.conn.lingerAfterStreamsFinish = true := by
  by_contra off
  rw [h.ends.linger (Bool.eq_false_iff.2 off)] at more
  cases more

/-- The own SYN goes out at the latest with the peer's. -/
theorem Stands.started (h : Stands e) (short : e.written.length + 2 < word64) (active : e.conn.active = true)
    (syn : e.conn.receiver.syn = true) : e.conn.sender.nextAbsSeqno ≠ 0 := by
  rw [ne_eq, h.sends.tiled.next_eq_zero (h.sends.few short), (h.regular active).synced syn]
  decide

/-- Before the SYN: nothing is acknowledged. -/
theorem Stands.official_unsynced (h : Stands e) (short : e.written.length + 2 < word64) (active : e.conn.active = true)
    (unsynced : e.conn.receiver.syn = false) : InOfficialState e := by
  have none : e.conn.sender.lastAckedAbsSeqno = 0 := by
    by_contra some
    rw [(h.regular active).heard (Nat.pos_of_ne_zero some)] at unsynced
    cases unsynced
  have more : e.conn.receiver.fullFined = false := by
    rw [TCPReceiver.fullFined, h.ends.flagged.waiting unsynced]
    rfl
  rw [InOfficialState, h.state_active short active, h.lingers more, none, unsynced]
  by_cases started : e.conn.sender.nextAbsSeqno = 0
  · exact ⟨.listen, by simp [started, TCPState.ofState]⟩
  · exact ⟨.synSent, by simp [started, TCPState.ofState]⟩

/-- While the inbound stream is open. -/
theorem Stands.official_open (h : Stands e) (short : e.written.length + 2 < word64) (active : e.conn.active = true)
    (syn : e.conn.receiver.syn = true) (more : e.conn.receiver.fullFined = false) : InOfficialState e := by
  rw [InOfficialState, h.state_active short active, if_neg (h.started short active syn), h.lingers more, syn, more]
  by_cases none : e.conn.sender.lastAckedAbsSeqno = 0
  · exact ⟨.synRcvd, by simp [none, TCPState.ofState]⟩
  · rw [if_neg none]
    cases e.conn.sender.fined with
    | false => exact ⟨.established, by simp [TCPState.ofState]⟩
    | true =>
      by_cases level : e.conn.sender.nextAbsSeqno = e.conn.sender.lastAckedAbsSeqno
      · exact ⟨.finWait2, by simp [level, TCPState.ofState]⟩
      · exact ⟨.finWait1, by simp [level, TCPState.ofState]⟩

/-- After the end of the inbound stream: the FIN came after the acknowledgment of the own SYN. -/
theorem Stands.official_ended (h : Stands e) (short : e.written.length + 2 < word64) (active : e.conn.active = true)
    (syn : e.conn.receiver.syn = true) (ended : e.conn.receiver.fullFined = true) : InOfficialState e := by
  have regular := h.regular active
  have acked : e.conn.sender.lastAckedAbsSeqno ≠ 0 := by
    have := regular.acked (by rw [beq_iff_eq.1 ended]; decide)
    omega
  rw [InOfficialState, h.state_active short active, if_neg (h.started short active syn), if_neg acked, syn, ended]
  cases linger : e.conn.lingerAfterStreamsFinish with
  | true =>
    rw [regular.linger linger ended]
    by_cases level : e.conn.sender.nextAbsSeqno = e.conn.sender.lastAckedAbsSeqno
    · exact ⟨.timeWait, by simp [level, TCPState.ofState]⟩
    · exact ⟨.closing, by simp [level, TCPState.ofState]⟩
  | false =>
    have unfinished := h.passive active linger
    cases fined : e.conn.sender.fined with
    | false => exact ⟨.closeWait, by simp [TCPState.ofState]⟩
    | true =>
      have level : e.conn.sender.nextAbsSeqno ≠ e.conn.sender.lastAckedAbsSeqno := by
        intro level
        rw [(TCPSender.fullFined_iff _).2 ⟨fined, level⟩] at unfinished
        cases unfinished
      exact ⟨.lastAck, by simp [level, TCPState.ofState]⟩

/-- An active connection, by the SYN and the end of the inbound stream. -/
theorem Stands.official_active (h : Stands e) (short : e.written.length + 2 < word64) (active : e.conn.active = true) :
    InOfficialState e := by
  cases syn : e.conn.receiver.syn with
  | false => exact h.official_unsynced short active syn
  | true =>
    cases ended : e.conn.receiver.fullFined with
    | false => exact h.official_open short active syn ended
    | true => exact h.official_ended short active syn ended

/-- **The connection is always in an official state**, in every run whose writes come before `end_input_stream` and whose
segments arrive in order, as long as the numbers of its stream are words. -/
theorem state_official (cfg : TCPConfig) (e : Endpoint)
    (run : Reaches Endpoint.step (fun e op => WritesInTime e op ∧ Orderly e op) (.new cfg) e)
    (short : e.written.length + 2 < 2 ^ 64) : InOfficialState e := by
  have stands : Stands e := run.invariant (.new cfg) fun _ _ _ stands ok step => stands.step ok.1 ok.2 step
  cases active : e.conn.active with
  | true => exact stands.official_active short active
  | false => exact stands.official_inactive short active

instance (e : Endpoint) : DecidablePred (WritesInTime e)
  | .write _ => inferInstanceAs (Decidable (_ = _))
  | .connect | .endInputStream | .tick _ | .segmentReceived _ | .read _ => .isTrue trivial

instance (e : Endpoint) : DecidablePred (Orderly e)
  | .segmentReceived _ => inferInstanceAs (Decidable (_ → _))
  | .connect | .write _ | .endInputStream | .tick _ | .read _ => .isTrue trivial

/-- A connection that is opened by its owner and closed by its peer first. -/
theorem state_official_passive :
    ∃ e, follow Endpoint.step (fun e op => WritesInTime e op ∧ Orderly e op) (.new { isn := .ofNat 0 })
        [.connect, .segmentReceived { header := { syn := true, ack := true, ackno := .ofNat 1, win := 10 } },
          .segmentReceived { header := { seqno := .ofNat 1, fin := true, ack := true, ackno := .ofNat 1, win := 10 } },
          .endInputStream] = some e ∧ e.conn.state = .ofState .lastAck ∧ InOfficialState e := by
  obtain ⟨e, run, state⟩ := Option.map_eq_some_iff.1 (show (follow Endpoint.step
    (fun e op => WritesInTime e op ∧ Orderly e op) (.new { isn := .ofNat 0 }) [.connect,
      .segmentReceived { header := { syn := true, ack := true, ackno := .ofNat 1, win := 10 } },
      .segmentReceived { header := { seqno := .ofNat 1, fin := true, ack := true, ackno := .ofNat 1, win := 10 } },
      .endInputStream]).map (fun e => (e.conn.state, e.written)) = some (.ofState .lastAck, []) by decide +kernel)
  obtain ⟨state, written⟩ := Prod.mk.inj state
  exact ⟨e, run, state, state_official _ e (Reaches.start.follow run) (by rw [written]; decide)⟩

/-- The own SYN is acknowledged by a segment without SYN: the sender's stream is ongoing and the receiver still waits for
the SYN. -/
theorem ack_before_syn :
    ¬ ∀ (cfg : TCPConfig) (e : Endpoint), Reaches Endpoint.step WritesInTime (.new cfg) e → InOfficialState e := by
  intro claim
  have facts : (follow Endpoint.step WritesInTime (.new { isn := .ofNat 0 })
      [.connect, .segmentReceived { header := { ack := true, ackno := .ofNat 1, win := 10 } }]).map
        (fun e => decide (InOfficialState e)) = some false := by
    decide +kernel
  obtain ⟨e, run, seen⟩ := Option.map_eq_some_iff.1 facts
  exact of_decide_eq_false seen (claim { isn := .ofNat 0 } e (Reaches.start.follow run))

/-- The second order of arrival: a SYN with the FIN reaches a listening connection. -/
example : (follow Endpoint.step WritesInTime (.new { isn := .ofNat 0 })
    [.segmentReceived { header := { syn := true, fin := true, win := 10 } }]).map
      (fun e => (e.conn.state, decide (InOfficialState e))) =
    some ({ sender := .synSent, receiver := .finRecv }, false) := by
  decide +kernel

end Endpoint

end Sponge
