import Sponge.Stream.ReassemblerInvariant
import Sponge.Tcp.Ending

/-!
# The connection throws on no segment

The only call of a connection that can throw is the one of `push_substring`. It
does not, whatever arrives: forged numbers, a FIN at any place, overlapping and
repeated data. The index that `segment_received` computes is at most `2 ^ 32`
past what is assembled, so the 64-bit arithmetic of the reassembler is exact as
long as less than `2 ^ 62` bytes have arrived.
-/

namespace Sponge

open TCPConnection (Op Finds Readies)

namespace StreamReassembler

/-- What is assembled stays assembled. -/
theorem Accepted.grows {r r' : StreamReassembler} {data : List UInt8} {index : Nat} (h : Accepted r data index r') :
    r.firstIndex ≤ r'.firstIndex := by
  by_contra less
  rw [Nat.not_le] at less
  have there : r'.firstIndex ∈ r'.held := (h.held _).2 (Or.inl (Or.inl less))
  rcases there with below | ⟨run, member, lower, -⟩
  · exact Nat.lt_irrefl _ below
  · obtain ⟨e, he, rfl⟩ := List.mem_map.1 member
    have after := h.rep.after e he
    simp only [run_start] at lower
    omega

theorem Fed.Kept.grows {capacity : Nat} {w : Fed} (h : w.Kept capacity) (small : capacity < 2 ^ 62) {data : List UInt8}
    {index : Nat} {eof : Bool} (modest : w.Modest (.push data index eof)) {re : StreamReassembler}
    (run : w.reassembler.pushSubstring? data index eof = some re) : w.reassembler.firstIndex ≤ re.firstIndex := by
  have edge := h.edge small
  have length := modest.2
  rw [pushSubstring?] at run
  split at run
  · cases run
    exact Nat.le_refl _
  · have same : (w.reassembler.noteEof data index eof).edge = w.reassembler.edge := by
      simp only [StreamReassembler.edge, noteEof_output]
    obtain ⟨r, accepted, post⟩ := accept_spec (h.rep.noteEof data index eof) (by rw [same]; unfold word64; omega) data index
      (by rw [same]; simp only [word64]; omega)
    rw [accepted] at run
    cases run
    have grows := post.grows
    rwa [noteEof_firstIndex, ← endIfComplete_firstIndex (r := r)] at grows

end StreamReassembler

/-- Reading a number back goes at most one round past the checkpoint. -/
theorem unwrap_lt (n isn : WrappingInt32) {checkpoint : Nat} (fits : checkpoint < 2 ^ 63) :
    unwrap n isn checkpoint < word64 := by
  have bound := ahead_lt n isn checkpoint
  have read := unwrap_cases n isn (show checkpoint < word64 by unfold word64; omega)
  simp only [add64, word32, word64] at *
  omega

namespace TCPReceiver

open StreamReassembler (Fed)

variable {capacity arrived : Nat} {r : TCPReceiver}

/-- A receiver to which `arrived` bytes of payload have come. -/
structure Takes (capacity arrived : Nat) (r : TCPReceiver) : Prop where
  kept : Fed.Kept capacity ⟨r.reassembler, arrived⟩
  state : r.Unsynced ∨ ∃ x, r.Synced x

theorem Takes.new (capacity : Nat) : Takes capacity 0 (.new capacity) := by
  have rep := (StreamReassembler.Tracks.new [] capacity).rep
  refine ⟨⟨rep, rfl, ?_, (by decide : 0 < 2 ^ 62)⟩, Or.inl (unsynced_new capacity)⟩
  show (StreamReassembler.new capacity).held.ncard ≤ 0
  rw [rep.ncard_held]
  exact Nat.le_refl _

theorem Takes.flagged (h : Takes capacity arrived r) : r.Flagged := by
  rcases h.state with fresh | ⟨x, synced⟩
  · exact fresh.flagged
  · exact synced.flagged

/-- The index of a segment in the stream is a 64-bit number. -/
theorem Takes.streamIndex_lt (h : Takes capacity arrived r) (small : capacity < 2 ^ 62) (seg : TCPSegment) :
    r.streamIndex seg < word64 := by
  rcases h.state with fresh | ⟨x, synced⟩
  · rw [streamIndex, if_neg (by rw [fresh.syn]; decide)]
    decide
  · rw [streamIndex, if_pos synced.syn]
    refine unwrap_lt _ _ ?_
    have edge := h.kept.edge small
    have first := h.kept.rep.firstIndex_le
    dsimp only at edge first
    rw [synced.last]
    omega

/-- **No segment makes the receiver throw.** -/
theorem Takes.segment (h : Takes capacity arrived r) (small : capacity < 2 ^ 62) (seg : TCPSegment)
    (room : arrived + seg.payload.length < 2 ^ 62) :
    ∃ r', r.segmentReceived? seg = some r' ∧ Takes capacity (arrived + seg.payload.length) r' := by
  cases ignored : r.ignores seg with
  | true =>
    refine ⟨r, by rw [segmentReceived?, ignored]; rfl, ⟨h.kept.rep, h.kept.capacity, ?_, room⟩, h.state⟩
    exact Nat.le_add_right_of_le h.kept.held
  | false =>
    have modest : Fed.Modest ⟨r.reassembler, arrived⟩ (.push seg.payload (r.streamIndex seg) seg.header.fin) :=
      ⟨h.streamIndex_lt small seg, room⟩
    obtain ⟨re, run, kept⟩ := h.kept.push small seg.header.fin modest
    have grows := h.kept.grows small modest run
    have same := afterPush_reassembler r seg.header (h.flagged.pushed run).2.2.2
    have received : r.segmentReceived? seg = some (r.afterPush seg.header re) := by
      dsimp only at run
      rw [segmentReceived?, ignored, if_neg (by decide), run, Option.map_some]
    refine ⟨r.afterPush seg.header re, received, by rw [same]; exact kept, Or.inr ?_⟩
    have taken := ignored
    simp only [ignores, Bool.or_eq_false_iff] at taken
    obtain ⟨⟨beforeSyn, again⟩, -⟩ := taken
    rcases h.state with fresh | ⟨x, synced⟩
    · exact ⟨_, fresh.afterPush (by simpa [fresh.syn] using beforeSyn) run⟩
    · exact ⟨x, synced.afterPush (by simpa [synced.syn] using again) run grows⟩

theorem Takes.pop (h : Takes capacity arrived r) (len : Nat) : Takes capacity arrived (r.popOutput len) := by
  refine ⟨⟨h.kept.rep.popOutput len, h.kept.capacity, h.kept.held, h.kept.pushed⟩, ?_⟩
  rcases h.state with fresh | ⟨x, synced⟩
  · exact Or.inl (fresh.withOutput _ rfl)
  · exact Or.inr ⟨x, synced.withOutput _ rfl⟩

theorem Takes.setError (h : Takes capacity arrived r) : Takes capacity arrived r.setError := by
  have rep := h.kept.rep
  refine ⟨⟨⟨rep.written, rep.wf, rep.separated, rep.after, rep.counter⟩, h.kept.capacity, h.kept.held, h.kept.pushed⟩, ?_⟩
  rcases h.state with fresh | ⟨x, synced⟩
  · exact Or.inl (fresh.withOutput _ rfl)
  · exact Or.inr ⟨x, synced.withOutput _ rfl⟩

end TCPReceiver

namespace Endpoint

open TCPReceiver (Takes)

/-- The payload that an operation brings. -/
def arrives : Op → Nat
  | .segmentReceived seg => seg.payload.length
  | _ => 0

variable {capacity arrived : Nat} {e : Endpoint}

theorem takes_judge (h : Takes capacity arrived e.conn.receiver) :
    Takes capacity arrived (e.on (·.judgeDo)).conn.receiver := by
  show Takes capacity arrived e.conn.judgeDo.receiver
  rcases (judged e.conn).receiver with same | error
  · rw [same]
    exact h
  · rw [error]
    exact h.setError

/-- **No operation throws**, whatever segment it is about. -/
theorem step_total (h : Takes capacity arrived e.conn.receiver) (small : capacity < 2 ^ 62) (op : Op)
    (room : arrived + arrives op < 2 ^ 62) :
    ∃ e', e.step op = some e' ∧ Takes capacity (arrived + arrives op) e'.conn.receiver := by
  have simple : ∀ {p : Endpoint}, e.prepare? op = some p → (∀ seg, op ≠ .segmentReceived seg) → arrives op = 0 →
      (∀ len, op ≠ .read len) → ∃ e', e.step op = some e' ∧ Takes capacity (arrived + arrives op) e'.conn.receiver := by
    intro p prepared noSegment none noRead
    obtain ⟨found, finds, ready⟩ := prepare?_readies prepared
    refine ⟨p.on (·.judgeDo), by rw [step_eq e noRead, prepared, Option.map_some], ?_⟩
    rw [none]
    refine takes_judge ?_
    rw [ready.receiver]
    cases finds with
    | same => exact h
    | reset => exact absurd rfl (noSegment _)
    | received => exact absurd rfl (noSegment _)
  cases op with
  | connect => exact simple rfl (by simp) rfl (by simp)
  | write data => exact simple rfl (by simp) rfl (by simp)
  | endInputStream => exact simple rfl (by simp) rfl (by simp)
  | tick ms => exact simple rfl (by simp) rfl (by simp)
  | read len => exact ⟨_, rfl, h.pop len⟩
  | segmentReceived seg =>
    cases rst : seg.header.rst with
    | true =>
      refine ⟨_, step_rst e rst, takes_judge ?_⟩
      refine ⟨⟨h.kept.rep, h.kept.capacity, ?_, room⟩, h.state⟩
      exact Nat.le_add_right_of_le h.kept.held
    | false =>
      obtain ⟨r, received, takes⟩ := h.segment small seg room
      refine ⟨_, by rw [step_segment e rst, received, Option.map_some], takes_judge ?_⟩
      rw [(readies_react (e.receive r) seg).receiver]
      exact takes

/-- An endpoint and the bytes of payload that have come to it. -/
structure Counted where
  endpoint : Endpoint
  arrived : Nat := 0

def Counted.step (c : Counted) (op : Op) : Option Counted :=
  (c.endpoint.step op).map fun e => ⟨e, c.arrived + arrives op⟩

/-- Less than `2 ^ 62` bytes arrive. -/
def Counted.Modest (c : Counted) (op : Op) : Prop := c.arrived + arrives op < 2 ^ 62

instance (c : Counted) : DecidablePred c.Modest := fun op =>
  inferInstanceAs (Decidable (c.arrived + arrives op < 2 ^ 62))

/-- **A connection throws on no segment.** In every state that is reached by operations in any order and segments with any
header and payload, every operation returns. -/
theorem connection_total (cfg : TCPConfig) (small : cfg.recvCapacity < 2 ^ 62) {c : Counted}
    (reached : Reaches Counted.step Counted.Modest ⟨.new cfg, 0⟩ c) (op : Op) (modest : c.Modest op) :
    ∃ c', c.step op = some c' := by
  have takes : Takes cfg.recvCapacity c.arrived c.endpoint.conn.receiver := by
    refine reached.invariant ?_
      fun c op c' (inv : Takes cfg.recvCapacity c.arrived c.endpoint.conn.receiver) modest run => ?_
    · exact .new cfg.recvCapacity
    · obtain ⟨e, stepped, takes⟩ := step_total inv small op modest
      rw [Counted.step, stepped] at run
      cases run
      exact takes
  obtain ⟨e, stepped, -⟩ := step_total takes small op modest
  exact ⟨_, by rw [Counted.step, stepped, Option.map_some]⟩

/-- Data and FINs at contradictory places, before and after the SYN, and then a reset. -/
theorem connection_total_forged :
    ∃ c, follow Counted.step Counted.Modest ⟨.new { isn := .ofNat 0 }, 0⟩
        [.segmentReceived { header := { seqno := .ofNat 9, fin := true }, payload := [1, 2] },
          .segmentReceived { header := { seqno := .ofNat 4294967295, syn := true, ack := true, ackno := .ofNat 77 } },
          .segmentReceived { header := { seqno := .ofNat 5, fin := true }, payload := [7] },
          .segmentReceived { header := { seqno := .ofNat 2147483647 }, payload := [8, 8] },
          .segmentReceived { header := { seqno := .ofNat 3, fin := true }, payload := [9, 9, 9, 9] }] = some c ∧
      c.arrived = 9 ∧ ∃ c', c.step (.segmentReceived { header := { rst := true }, payload := [1] }) = some c' := by
  obtain ⟨c, run, seen⟩ := Option.map_eq_some_iff.1
    (show (follow Counted.step Counted.Modest ⟨.new { isn := .ofNat 0 }, 0⟩
        [.segmentReceived { header := { seqno := .ofNat 9, fin := true }, payload := [1, 2] },
          .segmentReceived { header := { seqno := .ofNat 4294967295, syn := true, ack := true, ackno := .ofNat 77 } },
          .segmentReceived { header := { seqno := .ofNat 5, fin := true }, payload := [7] },
          .segmentReceived { header := { seqno := .ofNat 2147483647 }, payload := [8, 8] },
          .segmentReceived { header := { seqno := .ofNat 3, fin := true }, payload := [9, 9, 9, 9] }]).map
      Counted.arrived = some 9 by decide +kernel)
  refine ⟨c, run, seen, connection_total _ (by decide) (Reaches.start.follow run) _ ?_⟩
  show c.arrived + 1 < 2 ^ 62
  omega

end Endpoint

end Sponge
