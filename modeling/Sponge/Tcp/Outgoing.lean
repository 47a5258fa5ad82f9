import Sponge.Tcp.OfficialStates

/-!
# What every outgoing segment has in common

A segment is created by `fill_window` or `send_empty_segment`, kept for
retransmission, and its header is completed when it is pulled. What holds of new
segments (`Fresh`) holds of everything a sender has; what the completion keeps as
well (`Inherited`) holds of everything a connection ever puts out, resets and
retransmissions included, whatever the peer sends. So every segment has the header
without options and at most `MAX_PAYLOAD_SIZE` bytes (`Fits`), and a connection
that is active has put out no reset.
-/

namespace Sponge

open TCPConnection (Op)

/-- New segments have the property. -/
structure Fresh (P : TCPSegment → Prop) : Prop where
  created : ∀ (s : TCPSender) (ex : Nat), P (s.nextSegment ex)
  empty : ∀ s : TCPSender, P s.emptySegment

/-- Completing a header keeps the property. -/
structure Inherited (P : TCPSegment → Prop) : Prop extends Fresh P where
  completed : ∀ (c : TCPConnection) (seg : TCPSegment), P seg → P (c.outgoing seg)

namespace TCPSender

/-- The segments that a sender holds: those to be pulled and those to be acknowledged. -/
structure Holds (P : TCPSegment → Prop) (s : TCPSender) : Prop where
  queue : ∀ seg ∈ s.segmentsOut, P seg
  sent : ∀ e ∈ s.sent, P e.seg

variable {P : TCPSegment → Prop} {s t : TCPSender}

theorem Holds.new (P : TCPSegment → Prop) (cfg : TCPConfig) : Holds P (TCPConnection.new cfg).sender := by
  constructor
  · simp [TCPConnection.new, TCPSender.new]
  · simp [TCPConnection.new, TCPSender.new]

theorem Holds.fills (fresh : Fresh P) (h : Holds P s) (fills : Fills s t) : Holds P t := by
  induction fills with
  | stop => exact h
  | @more s t ex _ _ ih =>
    refine ih ⟨?_, ?_⟩
    · rw [create_segmentsOut]
      exact List.forall_mem_append.2 ⟨h.queue, List.forall_mem_singleton.2 (fresh.created s ex)⟩
    · rw [create_sent]
      exact List.forall_mem_append.2 ⟨h.sent, List.forall_mem_singleton.2 (fresh.created s ex)⟩

theorem Holds.fillWindow (fresh : Fresh P) (h : Holds P s) : Holds P s.fillWindow := h.fills fresh s.fillWindow_fills

theorem Holds.sendEmptySegment (fresh : Fresh P) (h : Holds P s) : Holds P s.sendEmptySegment :=
  ⟨List.forall_mem_append.2 ⟨h.queue, List.forall_mem_singleton.2 (fresh.empty s)⟩, h.sent⟩

/-- An acknowledgment takes segments away. -/
theorem Holds.ackReceived (h : Holds P s) (ackno : WrappingInt32) (window : UInt16) :
    Holds P (s.ackReceived ackno window) := by
  have acked := s.ackReceived_spec ackno window
  refine ⟨by rw [acked.segmentsOut]; exact h.queue, fun e member => h.sent e ?_⟩
  rcases acked.sent with ⟨same, -⟩ | ⟨-, rest⟩
  · rwa [same] at member
  · rw [rest] at member
    exact (List.dropWhile_suffix _).subset member

/-- What is sent again is one of those to be acknowledged. -/
theorem Holds.tick (h : Holds P s) (ms : Nat) : Holds P (s.tick ms) := by
  obtain ⟨same, -, output⟩ := s.tick_spec ms
  refine ⟨?_, by rw [same.sent]; exact h.sent⟩
  rcases output with out | ⟨oldest, rest, front, out⟩
  · rw [out]
    exact h.queue
  · rw [out]
    refine List.forall_mem_append.2 ⟨h.queue, List.forall_mem_singleton.2 (h.sent oldest ?_)⟩
    rw [front]
    exact List.mem_cons_self

end TCPSender

namespace Endpoint

open TCPSender (Holds)

variable {P : TCPSegment → Prop} {e p : Endpoint}

theorem holds_fillIfSyned (fresh : Fresh P) (h : Holds P e.conn.sender) : Holds P e.fillIfSyned.conn.sender := by
  unfold fillIfSyned
  split
  · exact h.fillWindow fresh
  · exact h

theorem holds_react (fresh : Fresh P) (h : Holds P e.conn.sender) (seg : TCPSegment) :
    Holds P (e.react seg).conn.sender := by
  unfold react
  split
  · exact h.fillWindow fresh
  · have acked : Holds P (e.on (·.ackSender seg)).conn.sender := by
      show Holds P (e.conn.ackSender seg).sender
      unfold TCPConnection.ackSender
      split
      · exact h.ackReceived _ _
      · exact h
    have filled := holds_fillIfSyned fresh acked
    show Holds P (TCPConnection.replyEmpty _ seg).sender
    unfold TCPConnection.replyEmpty
    have noted : Holds P (e.on (·.ackSender seg)).fillIfSyned.conn.noteLinger.sender := by
      rw [noteLinger_eq]
      exact filled
    split
    · exact noted.sendEmptySegment fresh
    · exact noted

/-- **Every operation**, before it calls `judge_do`. -/
theorem holds_prepare (fresh : Fresh P) (h : Holds P e.conn.sender) {op : Op} (run : e.prepare? op = some p) :
    Holds P p.conn.sender := by
  rcases prepare?_cases run with ⟨-, rfl⟩ | ⟨data, -, rfl⟩ | ⟨-, rfl⟩ | ⟨ms, -, rfl⟩ | ⟨seg, -, -, rfl⟩ |
    ⟨seg, r, -, -, -, rfl⟩
  · exact h.fillWindow fresh
  · have accepted : Holds P (e.accept data).conn.sender := ⟨h.queue, h.sent⟩
    exact holds_fillIfSyned fresh accepted
  · have ended : Holds P e.endInput.conn.sender := ⟨h.queue, h.sent⟩
    exact ended.fillWindow fresh
  · have ticked : Holds P (e.passTime ms).conn.sender := h.tick ms
    exact holds_fillIfSyned fresh ticked
  · exact h
  · have received : Holds P (e.receive r).conn.sender := h
    exact holds_react fresh received seg

/-- Before `judge_do` nothing is pulled. -/
theorem prepare_out {op : Op} (run : e.prepare? op = some p) : p.conn.segmentsOut = e.conn.segmentsOut := by
  obtain ⟨found, finds, ready⟩ := prepare?_readies run
  rw [ready.out]
  cases finds <;> rfl

end Endpoint

namespace TCPConnection

/-- The segments that a connection holds and those it has put out. -/
structure Emits (P : TCPSegment → Prop) (c : TCPConnection) : Prop where
  sender : c.sender.Holds P
  out : ∀ seg ∈ c.segmentsOut, P seg

variable {P : TCPSegment → Prop} {c : TCPConnection}

theorem Emits.pullPushSegments (inherited : Inherited P) (h : Emits P c) : Emits P c.pullPushSegments := by
  refine ⟨⟨?_, h.sender.sent⟩, List.forall_mem_append.2 ⟨h.out, ?_⟩⟩
  · simp [TCPConnection.pullPushSegments]
  · intro seg member
    obtain ⟨base, queued, rfl⟩ := List.mem_map.1 member
    exact inherited.completed c base (h.sender.queue base queued)

theorem Emits.closeCleanly (inherited : Inherited P) (h : Emits P c) : Emits P c.closeCleanly := by
  have filled : Emits P { c with sender := c.sender.fillWindow } := ⟨h.sender.fillWindow inherited.toFresh, h.out⟩
  have pulled := filled.pullPushSegments inherited
  exact ⟨pulled.sender, pulled.out⟩

theorem Emits.closeWithError (inherited : Inherited P) (h : Emits P c) (ownError : Bool) :
    Emits P (c.closeWithError ownError) := by
  have told : TCPSender.Holds P
      (if ownError && c.sender.segmentsOut.isEmpty then c.sender.sendEmptySegment else c.sender) := by
    split
    · exact h.sender.sendEmptySegment inherited.toFresh
    · exact h.sender
  have marked : Emits P { c with
      rst := true
      receiver := c.receiver.setError
      sender := (if ownError && c.sender.segmentsOut.isEmpty then c.sender.sendEmptySegment else c.sender).setError } :=
    ⟨⟨told.queue, told.sent⟩, h.out⟩
  have pulled := marked.pullPushSegments inherited
  exact ⟨pulled.sender, pulled.out⟩

theorem Emits.judgeDo (inherited : Inherited P) (h : Emits P c) : Emits P c.judgeDo := by
  unfold TCPConnection.judgeDo
  split
  · exact h
  split
  · exact h.closeWithError inherited false
  split
  · exact h.closeWithError inherited true
  split
  · exact Emits.closeCleanly inherited ⟨h.sender, h.out⟩
  split
  · exact h.closeCleanly inherited
  · exact h.pullPushSegments inherited

/-- A reset closes the connection. -/
theorem rst_of_alive (alive : c.judgeDo.active = true) : c.rst = false := by
  have active : c.active = true := ((Endpoint.judged c).alive alive).1
  by_contra set
  rw [Bool.not_eq_false] at set
  unfold TCPConnection.judgeDo at alive
  rw [if_neg (by simp [active]), if_pos set] at alive
  cases alive

end TCPConnection

namespace Endpoint

open TCPConnection (Emits)
open TCPSender (Holds)

variable {P : TCPSegment → Prop} {e e' : Endpoint}

theorem emits_step (inherited : Inherited P) (h : Emits P e.conn) {op : Op} (run : e.step op = some e') :
    Emits P e'.conn := by
  rcases step_cases run with ⟨p, prepared, rfl⟩ | ⟨len, -, rfl⟩
  · have ready : Emits P p.conn :=
      ⟨holds_prepare inherited.toFresh h.sender prepared, by rw [prepare_out prepared]; exact h.out⟩
    exact ready.judgeDo inherited
  · exact ⟨h.sender, h.out⟩

/-- **Everything a connection puts out** has the property, whatever it receives. -/
theorem emits_of_reaches (inherited : Inherited P) {cfg : TCPConfig} {ok : Endpoint → Op → Prop}
    (reached : Reaches step ok (.new cfg) e) : Emits P e.conn := by
  refine reached.invariant ?_ fun e op e' (h : Emits P e.conn) _ run => emits_step inherited h run
  exact ⟨.new P cfg, by simp [Endpoint.new, TCPConnection.new]⟩

/-- The segment is no reset. -/
def NoReset (seg : TCPSegment) : Prop := seg.header.rst = false

theorem fresh_noReset : Fresh NoReset := ⟨fun _ _ => rfl, fun _ => rfl⟩

/-- An active connection has put out no reset. -/
structure Unreset (e : Endpoint) : Prop where
  sender : Holds NoReset e.conn.sender
  out : e.conn.active = true → ∀ seg ∈ e.conn.segmentsOut, NoReset seg

theorem Unreset.step (h : Unreset e) {op : Op} (run : e.step op = some e') : Unreset e' := by
  rcases step_cases run with ⟨p, prepared, rfl⟩ | ⟨len, -, rfl⟩
  · have holds := holds_prepare fresh_noReset h.sender prepared
    have judge := judged p.conn
    refine ⟨⟨fun seg member => holds.queue seg (judge.queue seg member), ?_⟩, fun alive => ?_⟩
    · show ∀ s ∈ p.conn.judgeDo.sender.sent, _
      rw [judge.sender.sent]
      exact holds.sent
    · have alive : p.conn.judgeDo.active = true := alive
      have noRst := TCPConnection.rst_of_alive alive
      have active : e.conn.active = true := (prepare?_active prepared).symm.trans (judge.alive alive).1
      show ∀ seg ∈ p.conn.judgeDo.segmentsOut, _
      rw [(TCPConnection.judgeDo_alive alive).1]
      refine List.forall_mem_append.2 ⟨by rw [prepare_out prepared]; exact h.out active, fun seg member => ?_⟩
      obtain ⟨base, queued, rfl⟩ := List.mem_map.1 member
      have plain := holds.queue base queued
      unfold TCPConnection.outgoing
      rw [noRst, if_neg (by decide)]
      split <;> exact plain
  · exact ⟨h.sender, h.out⟩

theorem unreset_of_reaches {cfg : TCPConfig} {ok : Endpoint → Op → Prop} (reached : Reaches Endpoint.step ok (.new cfg) e) :
    Unreset e := by
  refine reached.invariant ?_ fun e op e' (h : Unreset e) _ run => h.step run
  exact ⟨.new NoReset cfg, by simp [Endpoint.new, TCPConnection.new]⟩

end Endpoint

/-- A header without options, and a payload of the size the sender makes. -/
def TCPSegment.Fits (seg : TCPSegment) : Prop := seg.header.doff = 5 ∧ seg.payload.length ≤ TCPConfig.maxPayloadSize

theorem inherited_fits : Inherited TCPSegment.Fits where
  created s ex := ⟨rfl, Nat.le_trans (s.length_payload_le ex) (s.readSize_le ex).2⟩
  empty s := ⟨rfl, Nat.zero_le _⟩
  completed c seg fits := by
    have content := Endpoint.outgoing_content c seg
    refine ⟨?_, by rw [content.payload]; exact fits.2⟩
    rw [← fits.1]
    unfold TCPConnection.outgoing
    split
    · rfl
    · split <;> rfl

end Sponge
