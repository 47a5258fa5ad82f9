import Sponge.Logic.Reach
import Sponge.Tcp.Closing
import Sponge.Tcp.ReceiverFlags

/-!
# How a connection ends, for any segments

An operation hands a segment to the receiver or notes a reset (`Finds`), lets the
sender work (`Readies`), and calls `judge_do`. A connection becomes inactive in
`judge_do` only: with an error, which is then noted on both streams, or with both
streams finished. `Ends` is the invariant; it needs no assumption on what the
connection receives.
-/

namespace Sponge

open TCPConnection (Op)
open TCPSender (Acked Fills SameData)

namespace TCPSender

/-- `fill_window` reads the stream and has no part in its error flag. -/
theorem Fills.error {s t : TCPSender} (fills : Fills s t) : t.stream.error = s.stream.error := by
  induction fills with
  | stop => rfl
  | more _ _ _ ih => exact ih

theorem fillWindow_error (s : TCPSender) : s.fillWindow.stream.error = s.stream.error := s.fillWindow_fills.error

theorem tick_stream (s : TCPSender) (ms : Nat) : (s.tick ms).stream = s.stream := by
  unfold tick
  cases s.sent with
  | nil => rfl
  | cons oldest rest =>
    dsimp only
    split
    · split <;> rfl
    · rfl

end TCPSender

namespace TCPConnection

/-- The connection as the sender's part of an operation finds it. -/
inductive Finds (c : TCPConnection) : Op → TCPConnection → Prop where
  | same {op : Op} (noSegment : ∀ seg, op ≠ .segmentReceived seg) : Finds c op c
  | reset {seg : TCPSegment} (rst : seg.header.rst = true) :
      Finds c (.segmentReceived seg) { c with lastSegTimer := 0, rst := true }
  | received {seg : TCPSegment} {receiver : TCPReceiver} (noRst : seg.header.rst = false)
      (run : c.receiver.segmentReceived? seg = some receiver) :
      Finds c (.segmentReceived seg) { c with lastSegTimer := 0, receiver }

/-- What the sender's part of an operation leaves, whatever it sends. The linger flag is only cleared when the inbound
stream has ended. -/
structure Readies (c c' : TCPConnection) : Prop where
  receiver : c'.receiver = c.receiver
  out : c'.segmentsOut = c.segmentsOut
  active : c'.active = c.active
  rst : c'.rst = c.rst
  linger : c'.lingerAfterStreamsFinish = c.lingerAfterStreamsFinish ∨ c.receiver.fullFined = true
  error : c'.sender.stream.error = c.sender.stream.error
  full : c.sender.fullFined = true → c'.sender.fullFined = true

section Readies

variable {c c' c'' : TCPConnection}

theorem Readies.refl (c : TCPConnection) : Readies c c :=
  ⟨rfl, rfl, rfl, rfl, Or.inl rfl, rfl, fun full => full⟩

theorem Readies.trans (h : Readies c c') (h' : Readies c' c'') : Readies c c'' where
  receiver := h'.receiver.trans h.receiver
  out := h'.out.trans h.out
  active := h'.active.trans h.active
  rst := h'.rst.trans h.rst
  linger := by
    rcases h'.linger with kept | full
    · rw [kept]
      exact h.linger
    · rw [h.receiver] at full
      exact Or.inr full
  error := h'.error.trans h.error
  full := fun full => h'.full (h.full full)

/-- A phase that changes the sender only. -/
theorem Readies.of_sender {sender : TCPSender} (error : sender.stream.error = c.sender.stream.error)
    (full : c.sender.fullFined = true → sender.fullFined = true) : Readies c { c with sender } :=
  ⟨rfl, rfl, rfl, rfl, Or.inl rfl, error, full⟩

theorem Readies.fill (c : TCPConnection) : Readies c { c with sender := c.sender.fillWindow } :=
  .of_sender (TCPSender.fillWindow_error _) TCPSender.fullFined_fillWindow

theorem Readies.ackSender (c : TCPConnection) (seg : TCPSegment) : Readies c (c.ackSender seg) := by
  unfold TCPConnection.ackSender
  split
  · have acked := c.sender.ackReceived_spec seg.header.ackno seg.header.win
    exact .of_sender (by rw [acked.stream]) (TCPSender.fullFined_of_acked acked)
  · exact .refl c

theorem Readies.noteLinger (c : TCPConnection) : Readies c c.noteLinger := by
  unfold TCPConnection.noteLinger
  split
  · rename_i cleared
    rw [Bool.and_eq_true] at cleared
    exact ⟨rfl, rfl, rfl, rfl, Or.inr cleared.1, rfl, fun full => full⟩
  · exact .refl c

theorem Readies.replyEmpty (c : TCPConnection) (seg : TCPSegment) : Readies c (c.replyEmpty seg) := by
  unfold TCPConnection.replyEmpty
  split
  · exact .of_sender rfl fun full => full
  · exact .refl c

end Readies

end TCPConnection

namespace Endpoint

open TCPConnection (Finds Readies)

section Phases

variable {e p : Endpoint}

theorem readies_fillIfSyned (e : Endpoint) : Readies e.conn e.fillIfSyned.conn := by
  unfold fillIfSyned
  split
  · exact .fill e.conn
  · exact .refl e.conn

theorem readies_react (e : Endpoint) (seg : TCPSegment) : Readies e.conn (e.react seg).conn := by
  unfold react
  split
  · exact .fill e.conn
  · have acked := Readies.ackSender e.conn seg
    have filled := readies_fillIfSyned (e.on (·.ackSender seg))
    have noted := Readies.noteLinger (e.on (·.ackSender seg)).fillIfSyned.conn
    exact ((acked.trans filled).trans noted).trans (Readies.replyEmpty _ seg)

/-- **Every operation** before it calls `judge_do`. -/
theorem prepare?_readies {op : Op} (run : e.prepare? op = some p) :
    ∃ found, Finds e.conn op found ∧ Readies found p.conn := by
  rcases prepare?_cases run with ⟨rfl, rfl⟩ | ⟨data, rfl, rfl⟩ | ⟨rfl, rfl⟩ | ⟨ms, rfl, rfl⟩ | ⟨seg, rfl, rst, rfl⟩ |
    ⟨seg, r, rfl, noRst, received, rfl⟩
  · exact ⟨_, .same (by simp), .fill e.conn⟩
  · have accepted : Readies e.conn (e.accept data).conn := .of_sender rfl fun full => full
    exact ⟨_, .same (by simp), accepted.trans (readies_fillIfSyned _)⟩
  · have ended : Readies e.conn e.endInput.conn := .of_sender rfl fun full => full
    exact ⟨_, .same (by simp), ended.trans (.fill _)⟩
  · have same := (e.conn.sender.tick_spec ms).1
    have ticked : Readies e.conn (e.passTime ms).conn :=
      ⟨rfl, rfl, rfl, rfl, Or.inl rfl, by rw [passTime, on, TCPSender.tick_stream], TCPSender.fullFined_of_same same⟩
    exact ⟨_, .same (by simp), ticked.trans (readies_fillIfSyned _)⟩
  · exact ⟨_, .reset rst, .refl _⟩
  · exact ⟨_, .received noRst received, readies_react (e.receive r) seg⟩

/-- Before `judge_do` no operation closes the connection. -/
theorem prepare?_active {op : Op} (run : e.prepare? op = some p) : p.conn.active = e.conn.active := by
  obtain ⟨found, finds, ready⟩ := prepare?_readies run
  rw [ready.active]
  cases finds <;> rfl

end Phases

/-- `judge_do` and the error flags: it leaves both, or sets both and the connection is over. -/
theorem judgeDo_error (c : TCPConnection) :
    (c.judgeDo.receiver = c.receiver ∧ c.judgeDo.sender.stream.error = c.sender.stream.error) ∨
      (c.judgeDo.receiver = c.receiver.setError ∧ c.judgeDo.sender.stream.error = true ∧ c.judgeDo.active = false) := by
  unfold TCPConnection.judgeDo
  split
  · exact Or.inl ⟨rfl, rfl⟩
  split
  · exact Or.inr ⟨rfl, rfl, rfl⟩
  split
  · exact Or.inr ⟨rfl, rfl, rfl⟩
  split
  · exact Or.inl ⟨rfl, TCPSender.fillWindow_error _⟩
  split
  · exact Or.inl ⟨rfl, TCPSender.fillWindow_error _⟩
  · exact Or.inl ⟨rfl, rfl⟩

end Endpoint

/-! ### The invariant -/

/-- How a connection stands between operations. -/
structure Ends (c : TCPConnection) : Prop where
  flagged : c.receiver.Flagged
  linger : c.lingerAfterStreamsFinish = false → c.receiver.fullFined = true
  errors : c.sender.stream.error = c.inboundStream.error
  failed : c.inboundStream.error = true → c.active = false
  clean : c.active = false → c.inboundStream.error = false → c.sender.fullFined = true ∧ c.receiver.fullFined = true

section Ends

variable {c c' : TCPConnection}

theorem Ends.new (cfg : TCPConfig) : Ends (.new cfg) where
  flagged := TCPReceiver.flagged_new cfg.recvCapacity
  linger := by
    intro off
    cases off
  errors := rfl
  failed := by
    intro error
    cases error
  clean := by
    intro inactive
    cases inactive

/-- A change of the receiver that keeps its end. -/
theorem Ends.of_receiver (h : Ends c) (flagged : c'.receiver.Flagged)
    (full : c.receiver.fullFined = true → c'.receiver.fullFined = true)
    (error : c'.inboundStream.error = c.inboundStream.error) (sender : c'.sender = c.sender)
    (active : c'.active = c.active) (linger : c'.lingerAfterStreamsFinish = c.lingerAfterStreamsFinish) : Ends c' := by
  refine ⟨flagged, fun off => full (h.linger (linger.symm.trans off)), ?_, ?_, ?_⟩
  · rw [sender, error]
    exact h.errors
  · rw [error, active]
    exact h.failed
  · rw [active, error, sender]
    intro inactive noError
    obtain ⟨finished, received⟩ := h.clean inactive noError
    exact ⟨finished, full received⟩

theorem Ends.finds (h : Ends c) {op : Op} (found : c.Finds op c') : Ends c' := by
  cases found with
  | same => exact h
  | reset => exact ⟨h.flagged, h.linger, h.errors, h.failed, h.clean⟩
  | received _ run =>
    have took := h.flagged.took run
    exact h.of_receiver took.flagged took.full took.error rfl rfl rfl

theorem Ends.readies (h : Ends c) (ready : c.Readies c') : Ends c' := by
  have inbound : c'.inboundStream = c.inboundStream := by
    rw [TCPConnection.inboundStream, ready.receiver]
    rfl
  refine ⟨by rw [ready.receiver]; exact h.flagged, fun off => ?_, ?_, ?_, ?_⟩
  · rw [ready.receiver]
    rcases ready.linger with kept | full
    · exact h.linger (kept.symm.trans off)
    · exact full
  · rw [ready.error, inbound]
    exact h.errors
  · rw [inbound, ready.active]
    exact h.failed
  · rw [ready.active, inbound, ready.receiver]
    intro inactive noError
    obtain ⟨finished, received⟩ := h.clean inactive noError
    exact ⟨ready.full finished, received⟩

theorem Ends.judge (h : Ends c) : Ends c.judgeDo := by
  have j := Endpoint.judged c
  have full : c.judgeDo.receiver.fullFined = c.receiver.fullFined := by
    rcases j.receiver with same | error
    · rw [same]
    · rw [error]
      rfl
  have linger : c.judgeDo.lingerAfterStreamsFinish = false → c.judgeDo.receiver.fullFined = true := by
    intro off
    rw [full]
    exact j.linger.elim (fun kept => h.linger (kept.symm.trans off)) id
  rcases Endpoint.judgeDo_error c with ⟨receiver, error⟩ | ⟨receiver, error, inactive⟩
  · have inbound : c.judgeDo.inboundStream = c.inboundStream := by
      rw [TCPConnection.inboundStream, receiver]
      rfl
    refine ⟨by rw [receiver]; exact h.flagged, linger, by rw [error, inbound]; exact h.errors, fun failed => ?_,
      fun inactive noError => ?_⟩
    · rw [inbound] at failed
      have before := h.failed failed
      rw [j.dead before]
      exact before
    · cases active : c.active with
      | true =>
        obtain ⟨-, finished, ready, -⟩ := j.clean active inactive noError
        exact ⟨TCPSender.fullFined_of_same j.sender finished, full.trans (ready.elim h.linger id)⟩
      | false =>
        rw [inbound] at noError
        rw [j.dead active]
        exact h.clean active noError
  · have failed : c.judgeDo.inboundStream.error = true := by
      rw [TCPConnection.inboundStream, receiver]
      rfl
    refine ⟨by rw [receiver]; exact h.flagged.setError, linger, error.trans failed.symm, fun _ => inactive,
      fun _ noError => ?_⟩
    rw [failed] at noError
    cases noError

/-- **Every operation** keeps the invariant, whatever segments arrive. -/
theorem Ends.step {e e' : Endpoint} (h : Ends e.conn) {op : Op} (run : e.step op = some e') : Ends e'.conn := by
  rcases Endpoint.step_cases run with ⟨p, prepared, rfl⟩ | ⟨len, -, rfl⟩
  · obtain ⟨found, finds, ready⟩ := Endpoint.prepare?_readies prepared
    exact ((h.finds finds).readies ready).judge
  · have popped : (e.conn.popInbound len).receiver.Flagged := h.flagged.popOutput len
    exact h.of_receiver popped (fun full => full) rfl rfl rfl rfl

theorem Ends.of_reaches {cfg : TCPConfig} {ok : Endpoint → Op → Prop} {e : Endpoint}
    (run : Reaches Endpoint.step ok (.new cfg) e) : Ends e.conn := by
  induction run with
  | start => exact .new cfg
  | step _ _ run ih => exact ih.step run

end Ends

namespace Endpoint

/-- What was put out stays. -/
theorem step_out {e e' : Endpoint} {op : Op} (run : e.step op = some e') :
    ∃ new, e'.conn.segmentsOut = e.conn.segmentsOut ++ new := by
  rcases step_cases run with ⟨p, prepared, rfl⟩ | ⟨len, -, rfl⟩
  · obtain ⟨found, finds, ready⟩ := prepare?_readies prepared
    obtain ⟨new, out, -⟩ := (judged p.conn).out
    have before : found.segmentsOut = e.conn.segmentsOut := by cases finds <;> rfl
    rw [ready.out, before] at out
    exact ⟨new, out⟩
  · exact ⟨[], (List.append_nil _).symm⟩

/-- An operation that leaves an inactive connection silent: nothing is sent, no error flag changes, and it stays
inactive. -/
structure Silent (e e' : Endpoint) : Prop where
  out : e'.conn.segmentsOut = e.conn.segmentsOut
  inbound : e'.conn.inboundStream.error = e.conn.inboundStream.error
  outbound : e'.conn.sender.stream.error = e.conn.sender.stream.error
  inactive : e'.conn.active = false

theorem silent_of_inactive {e e' : Endpoint} (ends : Ends e.conn) (inactive : e.conn.active = false) {op : Op}
    (run : e.step op = some e') : Silent e e' := by
  rcases step_cases run with ⟨p, prepared, rfl⟩ | ⟨len, -, rfl⟩
  · obtain ⟨found, finds, ready⟩ := prepare?_readies prepared
    have kept : found.segmentsOut = e.conn.segmentsOut ∧ found.active = e.conn.active ∧
        found.inboundStream.error = e.conn.inboundStream.error ∧ found.sender = e.conn.sender := by
      cases finds with
      | same => exact ⟨rfl, rfl, rfl, rfl⟩
      | reset => exact ⟨rfl, rfl, rfl, rfl⟩
      | received _ taken => exact ⟨rfl, rfl, (ends.flagged.took taken).error, rfl⟩
    obtain ⟨out, active, inbound, sender⟩ := kept
    have dead : p.conn.active = false := ready.active.trans (active.trans inactive)
    -- `judge_do` returns at once
    have idle : (p.on (·.judgeDo)).conn = p.conn := (judged p.conn).dead dead
    refine ⟨?_, ?_, ?_, ?_⟩
    · rw [idle, ready.out, out]
    · rw [idle, TCPConnection.inboundStream, ready.receiver]
      exact inbound
    · rw [idle, ready.error, sender]
    · rw [idle, dead]
  · exact ⟨rfl, rfl, rfl, inactive⟩

/-- **How a connection may end.** In every state reached, with any segments: an inactive connection carries the error
flag on both streams, or on neither and has finished both; an error flag is on both streams of an inactive connection
or on none; and an inactive connection stays silent. -/
theorem connection_ends (cfg : TCPConfig) (e : Endpoint) (run : Reaches Endpoint.step (fun _ _ => True) (.new cfg) e) :
    (e.conn.active = false →
      (e.conn.inboundStream.error = true ∧ e.conn.sender.stream.error = true) ∨
        (e.conn.inboundStream.error = false ∧ e.conn.sender.stream.error = false ∧
          e.conn.sender.fullFined = true ∧ e.conn.receiver.fullFined = true)) ∧
    (e.conn.inboundStream.error = true ∨ e.conn.sender.stream.error = true →
      e.conn.inboundStream.error = true ∧ e.conn.sender.stream.error = true ∧ e.conn.active = false) ∧
    (e.conn.active = false → ∀ op e', e.step op = some e' → Silent e e') := by
  have ends := Ends.of_reaches run
  have errors := ends.errors
  refine ⟨fun inactive => ?_, fun error => ?_, fun inactive op e' step => silent_of_inactive ends inactive step⟩
  · cases error : e.conn.inboundStream.error with
    | true => exact Or.inl ⟨rfl, errors.trans error⟩
    | false => exact Or.inr ⟨rfl, errors.trans error, ends.clean inactive error⟩
  · have inbound : e.conn.inboundStream.error = true := error.elim id errors.symm.trans
    exact ⟨inbound, errors.trans inbound, ends.failed inbound⟩

/-- A passive close: the peer ends its stream, then we end ours and our FIN is acknowledged. -/
theorem connection_ends_passive :
    ∃ e, follow Endpoint.step (fun _ _ => True) (.new { isn := .ofNat 0 })
        [.connect, .segmentReceived { header := { syn := true, ack := true, ackno := .ofNat 1, win := 10 } },
          .segmentReceived { header := { seqno := .ofNat 1, fin := true, ack := true, ackno := .ofNat 1, win := 10 } },
          .endInputStream,
          .segmentReceived { header := { seqno := .ofNat 2, ack := true, ackno := .ofNat 2, win := 10 } }] = some e ∧
      e.conn.active = false ∧ e.conn.inboundStream.error = false ∧ e.conn.sender.fullFined = true ∧
      ∀ op e', e.step op = some e' → Silent e e' := by
  obtain ⟨e, run, seen⟩ := Option.map_eq_some_iff.1 (show (follow Endpoint.step (fun _ _ => True)
    (.new { isn := .ofNat 0 }) [.connect,
      .segmentReceived { header := { syn := true, ack := true, ackno := .ofNat 1, win := 10 } },
      .segmentReceived { header := { seqno := .ofNat 1, fin := true, ack := true, ackno := .ofNat 1, win := 10 } },
      .endInputStream,
      .segmentReceived { header := { seqno := .ofNat 2, ack := true, ackno := .ofNat 2, win := 10 } }]).map
      (fun e => (e.conn.active, e.conn.inboundStream.error)) = some (false, false) by decide +kernel)
  obtain ⟨inactive, noError⟩ : e.conn.active = false ∧ e.conn.inboundStream.error = false := by simpa using seen
  obtain ⟨ended, -, silent⟩ := connection_ends _ e (Reaches.start.follow run)
  refine ⟨e, run, inactive, noError, ?_, silent inactive⟩
  rcases ended inactive with ⟨error, -⟩ | ⟨-, -, finished, -⟩
  · rw [noError] at error
    cases error
  · exact finished

end Endpoint

end Sponge
