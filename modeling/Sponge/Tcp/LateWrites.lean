import Sponge.Logic.Reach
import Sponge.Tcp.Endpoint

/-!
# Bytes written behind the FIN

`ByteStream::write` accepts bytes also after `end_input`. As long as the FIN is
not out they are still sent before it; once it is out `fill_window` sends
nothing more, and what `write` then accepts is lost. The runs in which no write
is accepted after the FIN are exactly those in which the created segments carry
everything that was reported as written.
-/

namespace Sponge

open TCPSender (Closed Fills SameData carried)
open TCPConnection (Op)

/-- What every step but a write does to the sender's stream: behind a FIN nothing changes, and a FIN is only put behind
the last byte. -/
structure TCPSender.Keeps (s t : TCPSender) : Prop where
  fined : s.fined = true → t.fined = true ∧ t.stream.pending = s.stream.pending
  closed : s.Closed → t.Closed

namespace TCPSender

variable {s t u : TCPSender}

theorem Keeps.refl (s : TCPSender) : Keeps s s := ⟨fun fined => ⟨fined, rfl⟩, fun h => h⟩

theorem Keeps.trans (first : Keeps s t) (second : Keeps t u) : Keeps s u := by
  refine ⟨fun fined => ?_, fun h => second.closed (first.closed h)⟩
  obtain ⟨fined', pending⟩ := first.fined fined
  obtain ⟨fined'', pending'⟩ := second.fined fined'
  exact ⟨fined'', pending'.trans pending⟩

theorem Keeps.of_same (same : SameData s t) : Keeps s t :=
  ⟨fun fined => ⟨same.fined.trans fined, same.pending⟩, fun h => h.of_same same⟩

theorem Keeps.of_acked {tmp : Nat} {window : UInt16} (a : Acked s tmp window t) : Keeps s t :=
  ⟨fun fined => ⟨a.fined.trans fined, by rw [a.stream]⟩, fun h => h.acked a⟩

theorem keeps_fillWindow (s : TCPSender) : Keeps s s.fillWindow := by
  refine ⟨fun fined => ?_, fun h => h.fills s.fillWindow_fills⟩
  rw [fillWindow_fined fined]
  exact ⟨fined, rfl⟩

theorem keeps_endInput (s : TCPSender) : Keeps s s.endInput :=
  ⟨fun fined => ⟨fined, rfl⟩, fun h fined => ⟨rfl, (h fined).2⟩⟩

end TCPSender

namespace Endpoint

open TCPSender (Keeps)

section Keeps

variable (e : Endpoint)

theorem keeps_fillIfSyned : Keeps e.conn.sender e.fillIfSyned.conn.sender := by
  unfold fillIfSyned
  split
  · exact TCPSender.keeps_fillWindow _
  · exact .refl _

theorem keeps_ackSender (seg : TCPSegment) : Keeps e.conn.sender (e.conn.ackSender seg).sender := by
  unfold TCPConnection.ackSender
  split
  · exact .of_acked (e.conn.sender.ackReceived_spec _ _)
  · exact .refl _

theorem keeps_reply (seg : TCPSegment) : Keeps e.conn.sender (e.conn.noteLinger.replyEmpty seg).sender := by
  have linger : e.conn.noteLinger.sender = e.conn.sender := by rw [noteLinger_eq]
  rw [← linger]
  exact .of_same (replyEmpty_same _ seg)

theorem keeps_react (seg : TCPSegment) : Keeps e.conn.sender (e.react seg).conn.sender := by
  unfold react
  split
  · exact TCPSender.keeps_fillWindow _
  · exact ((e.keeps_ackSender seg).trans (keeps_fillIfSyned (e.on (·.ackSender seg)))).trans
      (keeps_reply (e.on (·.ackSender seg)).fillIfSyned seg)

theorem keeps_judge : Keeps e.conn.sender e.conn.judgeDo.sender := .of_same (judged e.conn).sender

variable {e}

theorem keeps_prepare {p : Endpoint} {op : Op} (noWrite : ∀ data, op ≠ .write data) (run : e.prepare? op = some p) :
    Keeps e.conn.sender p.conn.sender := by
  rcases prepare?_cases run with ⟨-, rfl⟩ | ⟨data, is, rfl⟩ | ⟨-, rfl⟩ | ⟨ms, -, rfl⟩ | ⟨seg, -, -, rfl⟩ |
    ⟨seg, r, -, -, -, rfl⟩
  · exact TCPSender.keeps_fillWindow _
  · exact absurd is (noWrite data)
  · exact (TCPSender.keeps_endInput _).trans (TCPSender.keeps_fillWindow _)
  · have ticked : Keeps e.conn.sender (e.passTime ms).conn.sender := .of_same (e.conn.sender.tick_spec ms).1
    exact ticked.trans (keeps_fillIfSyned _)
  · exact .refl _
  · exact keeps_react (e.receive r) seg

theorem keeps_step {e' : Endpoint} {op : Op} (noWrite : ∀ data, op ≠ .write data) (run : e.step op = some e') :
    Keeps e.conn.sender e'.conn.sender := by
  rcases step_cases run with ⟨p, prepared, rfl⟩ | ⟨len, -, rfl⟩
  · exact (keeps_prepare noWrite prepared).trans (keeps_judge p)
  · exact .refl _

/-- What a write leaves in the sender's stream: behind a FIN, what it was given. -/
theorem write_step {e' : Endpoint} {data : List UInt8} (run : e.step (.write data) = some e') :
    (e.conn.sender.fined = true → e'.conn.sender.fined = true ∧
      e'.conn.sender.stream.pending = e.conn.sender.stream.pending ++ data.take (e.conn.written data)) ∧
    (e.conn.sender.fined = false → e'.conn.sender.Closed) := by
  rw [step_write] at run
  cases run
  have keeps := (keeps_fillIfSyned (e.accept data)).trans (keeps_judge (e.accept data).fillIfSyned)
  refine ⟨fun fined => ?_, fun unfinished => keeps.closed fun fined => ?_⟩
  · obtain ⟨fined', pending⟩ := keeps.fined fined
    refine ⟨fined', pending.trans ?_⟩
    exact ByteStream.pending_write _ _
  · rw [show (e.accept data).conn.sender.fined = e.conn.sender.fined from rfl, unfinished] at fined
    cases fined

end Keeps

/-- The operation is a write that is accepted when the FIN is out. -/
def writesLate (e : Endpoint) : Op → Bool
  | .write data => e.conn.sender.fined && decide (0 < e.conn.written data)
  | _ => false

/-- An endpoint, and whether a write was accepted when the FIN was out. -/
structure Noted where
  endpoint : Endpoint
  lateWrite : Bool := false
  deriving DecidableEq

def Noted.step (w : Noted) (op : Op) : Option Noted :=
  (w.endpoint.step op).map fun endpoint => { endpoint, lateWrite := w.lateWrite || w.endpoint.writesLate op }

/-- When the FIN is out, the created segments carry everything reported as written. -/
def CarriesAll (e : Endpoint) : Prop := e.conn.sender.fined = true → carried e.created = e.written

/-- The invariant: bytes are left behind the FIN exactly when there was a late write. -/
structure Behind (w : Noted) : Prop where
  sends : w.endpoint.Sends
  none : w.lateWrite = false → w.endpoint.conn.sender.Closed
  some : w.lateWrite = true → w.endpoint.conn.sender.fined = true ∧ w.endpoint.conn.sender.stream.pending ≠ []

theorem Behind.write {w w' : Noted} (h : Behind w) {data : List UInt8} (run : w.step (.write data) = Option.some w') :
    Behind w' := by
  obtain ⟨e, stepped, rfl⟩ := Option.map_eq_some_iff.1 run
  have sends := h.sends.step stepped
  obtain ⟨behind, ahead⟩ := write_step stepped
  have accepted : (data.take (w.endpoint.conn.written data)).length = w.endpoint.conn.written data := by
    rw [List.length_take]
    exact Nat.min_eq_left (ByteStream.writeLength_le _ _)
  refine ⟨sends, fun early => ?_, fun late => ?_⟩
  · simp only [writesLate, Bool.or_eq_false_iff, Bool.and_eq_false_iff, decide_eq_false_iff_not] at early
    cases fined : w.endpoint.conn.sender.fined with
    | false => exact ahead fined
    | true =>
      obtain ⟨fined', pending⟩ := behind fined
      have nothing : w.endpoint.conn.written data = 0 := by
        have := early.2.resolve_left (by rw [fined]; decide)
        omega
      rw [nothing, List.take_zero, List.append_nil, (h.none early.1 fined).2] at pending
      exact fun _ => ⟨(sends.tiled.fined fined').1, pending⟩
  · simp only [writesLate, Bool.or_eq_true, Bool.and_eq_true, decide_eq_true_eq] at late
    rcases late with before | ⟨fined, some⟩
    · obtain ⟨fined, left⟩ := h.some before
      obtain ⟨fined', pending⟩ := behind fined
      exact ⟨fined', by rw [pending]; exact List.append_ne_nil_of_left_ne_nil left _⟩
    · obtain ⟨fined', pending⟩ := behind fined
      refine ⟨fined', ?_⟩
      rw [pending]
      apply List.append_ne_nil_of_right_ne_nil
      apply List.ne_nil_of_length_pos
      rw [accepted]
      exact some

theorem Behind.step {w w' : Noted} (h : Behind w) {op : Op} (run : w.step op = Option.some w') : Behind w' := by
  by_cases isWrite : ∃ data, op = .write data
  · obtain ⟨data, rfl⟩ := isWrite
    exact h.write run
  · have noWrite : ∀ data, op ≠ .write data := fun data is => isWrite ⟨data, is⟩
    obtain ⟨e, stepped, rfl⟩ := Option.map_eq_some_iff.1 run
    have keeps := keeps_step noWrite stepped
    have same : (w.lateWrite || w.endpoint.writesLate op) = w.lateWrite := by
      cases op with
      | write data => exact absurd rfl (noWrite data)
      | connect | endInputStream | tick | segmentReceived | read => exact Bool.or_false _
    refine ⟨h.sends.step stepped, fun early => ?_, fun late => ?_⟩
    · simp only [same] at early
      exact keeps.closed (h.none early)
    · simp only [same] at late
      obtain ⟨fined, left⟩ := h.some late
      obtain ⟨fined', pending⟩ := keeps.fined fined
      exact ⟨fined', by rw [pending]; exact left⟩

/-- **Nothing is lost behind the FIN exactly when nothing is accepted behind it**, in every run of the connection and
whatever segments it receives. -/
theorem carries_all_iff (cfg : TCPConfig) (w : Noted)
    (run : Reaches Noted.step (fun _ _ => True) { endpoint := .new cfg } w) :
    CarriesAll w.endpoint ↔ w.lateWrite = false := by
  have behind : Behind w := by
    refine run.invariant ⟨.new cfg, fun _ fined => ?_, fun late => ?_⟩ fun _ _ _ behind _ step => behind.step step
    · cases fined
    · cases late
  have bytes := behind.sends.tiled.bytes
  constructor
  · intro all
    cases late : w.lateWrite with
    | false => rfl
    | true =>
      obtain ⟨fined, left⟩ := behind.some late
      rw [← all fined] at bytes
      exact absurd (List.append_cancel_left (bytes.trans (List.append_nil _).symm)) left
  · intro early fined
    rw [(behind.none early fined).2, List.append_nil] at bytes
    exact bytes

/-- A stream ended while the window is closed: a byte written before the FIN goes out is carried. -/
theorem carries_all_iff_early :
    ∃ w, follow Noted.step (fun _ _ => True) { endpoint := .new { isn := .ofNat 0 } }
        [.connect, .write [1], .endInputStream, .write [2],
          .segmentReceived { header := { syn := true, ack := true, ackno := .ofNat 1, win := 10 } }] = Option.some w ∧
      w.endpoint.conn.sender.fined = true ∧ (CarriesAll w.endpoint ↔ w.lateWrite = false) := by
  obtain ⟨w, run, fined⟩ := Option.map_eq_some_iff.1 (show (follow Noted.step (fun _ _ => True)
    { endpoint := .new { isn := .ofNat 0 } } [.connect, .write [1], .endInputStream, .write [2],
      .segmentReceived { header := { syn := true, ack := true, ackno := .ofNat 1, win := 10 } }]).map
      (fun w => w.endpoint.conn.sender.fined) = Option.some true by decide +kernel)
  exact ⟨w, run, fined, carries_all_iff _ w (Reaches.start.follow run)⟩

/-- The stream is ended and its FIN sent and a byte is written afterwards: `write` reports one byte, and no segment
carries it. -/
theorem write_behind_fin :
    ¬ ∀ (cfg : TCPConfig) (e : Endpoint), Reaches Endpoint.step (fun _ _ => True) (.new cfg) e → CarriesAll e := by
  intro claim
  have facts : (follow Endpoint.step (fun _ _ => True) (.new { isn := .ofNat 0 })
      [.connect, .segmentReceived { header := { syn := true, ack := true, ackno := .ofNat 1, win := 10 } },
        .endInputStream, .write [7]]).map
        (fun e => (e.conn.sender.fined, carried e.created, e.written)) = Option.some (true, [], [7]) := by
    decide +kernel
  obtain ⟨e, run, seen⟩ := Option.map_eq_some_iff.1 facts
  obtain ⟨fined, sent, written⟩ : e.conn.sender.fined = true ∧ carried e.created = [] ∧ e.written = [7] := by
    simpa using seen
  have all := claim { isn := .ofNat 0 } e (Reaches.start.follow run) fined
  rw [sent, written] at all
  cases all

end Endpoint

end Sponge
