import Sponge.Tcp.ImmediateAck

/-!
# The backoff of an open connection

The sender doubles its timeout and counts in `tick`, and sets both back in
`ack_received`; it has no bound of its own. Everything else leaves the two as they
are (`Calm`), so the timeout is the initial one doubled once for each count as long
as no doubling overflows. The bound comes from `judge_do`, which ends every
operation and gives up when the count has passed `MAX_RETX_ATTEMPTS`.
-/

namespace Sponge

namespace TCPSender

/-- The timeout is the initial one, doubled once for each retransmission in a row. -/
structure Backoff (rto : Nat) (s : TCPSender) : Prop where
  initial : s.initialRetransmissionTimeout = rto
  timeout : s.timeout = rto * 2 ^ s.resendTryTimes

/-- The timer runs out in a tick, and the window is open. -/
def RunsOut (s : TCPSender) (ms : Nat) : Prop := s.sent ≠ [] ∧ s.timeout ≤ add64 s.lastTime ms ∧ s.windowSize ≠ 0

instance (s : TCPSender) (ms : Nat) : Decidable (s.RunsOut ms) := inferInstanceAs (Decidable (_ ∧ _ ∧ _))

section Schedule

variable {s t : TCPSender} {rto : Nat}

theorem Calm.backoff (h : Calm s t) (before : s.Backoff rto) : t.Backoff rto := by
  refine ⟨h.initial.trans before.initial, ?_⟩
  rcases h.schedule with ⟨timeout, tries⟩ | ⟨timeout, tries⟩
  · rw [timeout, tries]
    exact before.timeout
  · rw [timeout, tries, before.initial, Nat.pow_zero, Nat.mul_one]

/-- A tick counts when the timer runs out with an open window. -/
theorem tick_runsOut {ms : Nat} (late : s.RunsOut ms) :
    (s.tick ms).initialRetransmissionTimeout = s.initialRetransmissionTimeout ∧
      (s.tick ms).timeout = 2 * s.timeout % word32 ∧ (s.tick ms).resendTryTimes = (s.resendTryTimes + 1) % word32 := by
  obtain ⟨outstanding, late, opened⟩ := late
  obtain ⟨oldest, rest, sent⟩ := List.exists_cons_of_ne_nil outstanding
  rw [tick_late sent late]
  exact ⟨rfl, if_neg opened, if_neg opened⟩

theorem tick_counts {ms : Nat} (late : s.RunsOut ms) (few : s.resendTryTimes ≤ TCPConfig.maxRetxAttempts) :
    (s.tick ms).resendTryTimes = s.resendTryTimes + 1 := by
  rw [(tick_runsOut late).2.2]
  exact Nat.mod_eq_of_lt (by unfold word32 TCPConfig.maxRetxAttempts at *; omega)

theorem tick_waits {ms : Nat} (waits : ¬ s.RunsOut ms) : Calm s (s.tick ms) := by
  by_cases outstanding : s.sent = []
  · rw [tick_idle outstanding]
    exact .of_same rfl rfl rfl
  · by_cases late : s.timeout ≤ add64 s.lastTime ms
    · obtain ⟨oldest, rest, sent⟩ := List.exists_cons_of_ne_nil outstanding
      have closed : s.windowSize = 0 := by
        by_cases closed : s.windowSize = 0
        · exact closed
        · exact absurd ⟨outstanding, late, closed⟩ waits
      rw [tick_late sent late]
      exact .of_same rfl (if_pos closed) (if_pos closed)
    · rw [tick_early outstanding (Nat.lt_of_not_le late)]
      exact .of_same rfl rfl rfl

/-- Within the allowed attempts a 16-bit timeout can be doubled once more. -/
theorem Backoff.fits (h : s.Backoff rto) (small : rto < 2 ^ 16)
    (few : s.resendTryTimes ≤ TCPConfig.maxRetxAttempts) : s.timeout < 2 ^ 24 := by
  have power : 2 ^ s.resendTryTimes ≤ 2 ^ 8 := Nat.pow_le_pow_right (by decide) few
  calc s.timeout
      = rto * 2 ^ s.resendTryTimes := h.timeout
    _ ≤ rto * 2 ^ 8 := Nat.mul_le_mul_left _ power
    _ < 2 ^ 16 * 2 ^ 8 := Nat.mul_lt_mul_of_pos_right small (by decide)

theorem Backoff.tick (h : s.Backoff rto) (small : rto < 2 ^ 16)
    (few : s.resendTryTimes ≤ TCPConfig.maxRetxAttempts) (ms : Nat) : (s.tick ms).Backoff rto := by
  by_cases late : s.RunsOut ms
  · obtain ⟨same, timeout, -⟩ := tick_runsOut late
    have fits := h.fits small few
    have double : 2 * s.timeout % word32 = 2 * s.timeout := Nat.mod_eq_of_lt (by unfold word32; omega)
    refine ⟨same.trans h.initial, ?_⟩
    rw [timeout, tick_counts late few, double, h.timeout, Nat.pow_succ, Nat.mul_comm 2, Nat.mul_assoc]
  · exact (tick_waits late).backoff h

end Schedule

end TCPSender

open TCPSender (Backoff Calm)
open TCPConnection (Op)

namespace TCPConnection

section Judge

variable {c : TCPConnection}

theorem judgeDo_calm (c : TCPConnection) : Calm c.sender c.judgeDo.sender := by
  have error : ∀ own, Calm c.sender (c.closeWithError own).sender := by
    intro own
    unfold closeWithError
    dsimp only
    split <;> exact .of_same rfl rfl rfl
  have filled := c.sender.fillWindow_fills.calm
  unfold judgeDo
  split
  · exact .refl _
  split
  · exact error false
  split
  · exact error true
  split
  · exact ⟨filled.initial, filled.schedule⟩
  split
  · exact ⟨filled.initial, filled.schedule⟩
  · exact .of_same rfl rfl rfl

/-- The connection has given up: it is inactive, both streams carry the error, and a reset went out. -/
structure GivesUp (c c' : TCPConnection) : Prop where
  inactive : c'.active = false
  inbound : c'.inboundStream.error = true
  outbound : c'.sender.stream.error = true
  reset : ∃ new, c'.segmentsOut = c.segmentsOut ++ new ∧ ∃ seg ∈ new, seg.header.rst = true

/-- `fully_dead(2)` sends an empty segment if nothing is queued, so that something carries the reset. -/
theorem closeWithError_givesUp (c : TCPConnection) : c.GivesUp (c.closeWithError true) := by
  refine ⟨rfl, rfl, rfl, _, rfl, ?_⟩
  have queue : (if true && c.sender.segmentsOut.isEmpty then c.sender.sendEmptySegment else c.sender).segmentsOut ≠ [] := by
    cases queue : c.sender.segmentsOut with
    | nil => simp [TCPSender.sendEmptySegment, queue]
    | cons seg rest => simp [queue]
  obtain ⟨seg, rest, queued⟩ := List.exists_cons_of_ne_nil queue
  refine ⟨{ seg with header := { seg.header with rst := true } }, List.mem_map.2 ⟨seg, ?_, rfl⟩, rfl⟩
  show seg ∈ (if true && c.sender.segmentsOut.isEmpty then c.sender.sendEmptySegment else c.sender).segmentsOut
  rw [queued]
  exact List.mem_cons_self

theorem judgeDo_givesUp (active : c.active = true) (noRst : c.rst = false)
    (many : TCPConfig.maxRetxAttempts < c.sender.resendTryTimes) : c.GivesUp c.judgeDo := by
  rw [judgeDo, if_neg (by simp [active]), if_neg (by simp [noRst]), if_pos many]
  exact c.closeWithError_givesUp

end Judge

/-- The tick in which the timer runs out once more than is allowed. -/
def Exhausts (c : TCPConnection) (op : Op) : Prop :=
  ∃ ms, op = .tick ms ∧ c.sender.RunsOut ms ∧ c.sender.resendTryTimes = TCPConfig.maxRetxAttempts

end TCPConnection

namespace Endpoint

section Phases

variable {e p : Endpoint} {op : Op}

/-- Everything but a tick is calm. -/
theorem prepare?_calm (run : e.prepare? op = some p) (noTick : ∀ ms, op ≠ .tick ms) :
    Calm e.conn.sender p.conn.sender := by
  rcases prepare?_cases run with ⟨rfl, rfl⟩ | ⟨data, rfl, rfl⟩ | ⟨rfl, rfl⟩ | ⟨ms, rfl, rfl⟩ | ⟨seg, rfl, rst, rfl⟩ |
    ⟨seg, r, rfl, noRst, received, rfl⟩
  · exact e.conn.sender.fillWindow_fills.calm
  · have accepted : Calm e.conn.sender (e.accept data).conn.sender := .of_same rfl rfl rfl
    exact accepted.trans (fillIfSyned_calm _)
  · have ended : Calm e.conn.sender e.endInput.conn.sender := .of_same rfl rfl rfl
    exact ended.trans (TCPSender.fillWindow_fills _).calm
  · exact absurd rfl (noTick ms)
  · exact .refl _
  · exact react_calm (e.receive r) seg

theorem prepare?_backoff {rto : Nat} (h : e.conn.sender.Backoff rto) (small : rto < 2 ^ 16)
    (few : e.conn.sender.resendTryTimes ≤ TCPConfig.maxRetxAttempts) (run : e.prepare? op = some p) :
    p.conn.sender.Backoff rto := by
  by_cases tick : ∃ ms, op = .tick ms
  · obtain ⟨ms, rfl⟩ := tick
    cases run
    exact (fillIfSyned_calm _).backoff (h.tick small few ms)
  · exact (prepare?_calm run fun ms is => tick ⟨ms, is⟩).backoff h

theorem fillIfSyned_tries (e : Endpoint) :
    e.fillIfSyned.conn.sender.resendTryTimes = e.conn.sender.resendTryTimes := by
  unfold fillIfSyned
  split
  · exact e.conn.sender.fillWindow_fills.resend
  · rfl

/-- The count passes the limit in the tick that exhausts it, and in no other operation. -/
theorem prepare?_tries (few : e.conn.sender.resendTryTimes ≤ TCPConfig.maxRetxAttempts) (run : e.prepare? op = some p) :
    TCPConfig.maxRetxAttempts < p.conn.sender.resendTryTimes ↔ e.conn.Exhausts op := by
  by_cases tick : ∃ ms, op = .tick ms
  · obtain ⟨ms, rfl⟩ := tick
    cases run
    have same : (e.passTime ms).fillIfSyned.conn.sender.resendTryTimes = (e.conn.sender.tick ms).resendTryTimes :=
      fillIfSyned_tries _
    rw [same]
    by_cases late : e.conn.sender.RunsOut ms
    · rw [TCPSender.tick_counts late few]
      constructor
      · intro many
        exact ⟨ms, rfl, late, by omega⟩
      · rintro ⟨_, -, -, last⟩
        omega
    · have calm := (TCPSender.tick_waits late).tries
      constructor
      · intro many
        omega
      · rintro ⟨_, is, out, -⟩
        cases is
        exact absurd out late
  · have calm := (prepare?_calm run fun ms is => tick ⟨ms, is⟩).tries
    constructor
    · intro many
      omega
    · rintro ⟨ms, is, -⟩
      exact absurd ⟨ms, is⟩ tick

end Phases

/-- An open endpoint keeps its backoff. -/
theorem backoff_of_reaches {cfg : TCPConfig} {ok : Endpoint → Op → Prop} {e : Endpoint}
    (run : Reaches Endpoint.step ok (.new cfg) e) (active : e.conn.active = true) :
    e.conn.sender.Backoff cfg.rtTimeout.toNat := by
  induction run with
  | start => exact ⟨rfl, (Nat.mul_one _).symm⟩
  | step before _ run ih =>
    rcases step_cases run with ⟨p, prepared, rfl⟩ | ⟨len, -, rfl⟩
    · have alive := ((judged p.conn).alive active).1
      rw [prepare?_active prepared] at alive
      have few := (healthy_of_reaches before alive).attempts
      exact p.conn.judgeDo_calm.backoff (prepare?_backoff (ih alive) cfg.rtTimeout.toNat_lt few prepared)
    · exact ih active

/-- The step that passes the limit. -/
theorem givesUp_of_exhausts {e e' : Endpoint} {op : Op} (healthy : e.conn.Healthy) (last : e.conn.Exhausts op)
    (run : e.step op = some e') : e.conn.GivesUp e'.conn := by
  obtain ⟨ms, rfl, late⟩ := last
  rw [step_tick] at run
  obtain rfl := Option.some.inj run
  have ready := readies_fillIfSyned (e.passTime ms)
  have prepared : e.prepare? (.tick ms) = some (e.passTime ms).fillIfSyned := rfl
  have many := (prepare?_tries healthy.attempts prepared).2 ⟨ms, rfl, late⟩
  obtain ⟨inactive, inbound, outbound, reset⟩ :=
    TCPConnection.judgeDo_givesUp (ready.active.trans healthy.active) (ready.rst.trans healthy.rst) many
  rw [ready.out] at reset
  exact ⟨inactive, inbound, outbound, reset⟩

/-- **Backoff stays bounded while the connection lives.** In every state reached in which the connection is active, the
count is within the limit and the timeout is the configured one doubled once for each count, as a 32-bit number. A
further operation keeps the count within the limit, but for the tick in which the timer runs out once more: after that
one the connection is inactive, both streams carry the error, and a reset has gone out. -/
theorem backoff_bounded (cfg : TCPConfig) (e : Endpoint) (run : Reaches Endpoint.step (fun _ _ => True) (.new cfg) e)
    (active : e.conn.active = true) :
    e.conn.sender.resendTryTimes ≤ TCPConfig.maxRetxAttempts ∧
      e.conn.sender.timeout = cfg.rtTimeout.toNat * 2 ^ e.conn.sender.resendTryTimes ∧
      cfg.rtTimeout.toNat * 2 ^ e.conn.sender.resendTryTimes < 2 ^ 32 ∧
      ∀ op e', e.step op = some e' →
        (¬ e.conn.Exhausts op → e'.conn.sender.resendTryTimes ≤ TCPConfig.maxRetxAttempts) ∧
        (e.conn.Exhausts op → e.conn.GivesUp e'.conn) := by
  have healthy := healthy_of_reaches run active
  have backoff := backoff_of_reaches run active
  refine ⟨healthy.attempts, backoff.timeout, ?_, fun op e' step => ⟨fun more => ?_, fun last => ?_⟩⟩
  · have fits := backoff.fits cfg.rtTimeout.toNat_lt healthy.attempts
    rw [backoff.timeout] at fits
    omega
  · rcases step_cases step with ⟨p, prepared, rfl⟩ | ⟨len, -, rfl⟩
    · have few : p.conn.sender.resendTryTimes ≤ TCPConfig.maxRetxAttempts :=
        Nat.le_of_not_lt fun many => more ((prepare?_tries healthy.attempts prepared).1 many)
      exact Nat.le_trans p.conn.judgeDo_calm.tries few
    · exact healthy.attempts
  · exact givesUp_of_exhausts healthy last step

/-- A SYN that is never answered: after eight retransmissions the ninth gives up. -/
theorem backoff_bounded_syn :
    ∃ e e', follow Endpoint.step (fun _ _ => True) (.new { isn := .ofNat 0 })
        (.connect :: List.replicate 8 (.tick 256000)) = some e ∧
      e.conn.sender.timeout = 256000 ∧ e.step (.tick 256000) = some e' ∧ e.conn.GivesUp e'.conn := by
  obtain ⟨e, run, seen⟩ := Option.map_eq_some_iff.1 (show (follow Endpoint.step (fun _ _ => True)
    (.new { isn := .ofNat 0 }) (.connect :: List.replicate 8 (.tick 256000))).map
      (fun e => (e.conn.active, e.conn.sender.resendTryTimes, decide (e.conn.sender.RunsOut 256000))) =
        some (true, 8, true) by decide +kernel)
  simp only [Prod.mk.injEq, decide_eq_true_eq] at seen
  obtain ⟨active, tries, late⟩ := seen
  obtain ⟨-, timeout, -, next⟩ := backoff_bounded _ e (Reaches.start.follow run) active
  rw [tries] at timeout
  exact ⟨e, _, run, timeout, step_tick e _, (next _ _ (step_tick e _)).2 ⟨_, rfl, late, tries⟩⟩

end Endpoint

end Sponge
