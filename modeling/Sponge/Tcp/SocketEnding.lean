import Sponge.Tcp.Outgoing
import Sponge.Tcp.SocketBooks

/-!
# How the socket's thread ends

`_tcp_main` leaves its loop when no rule is interested any more, on a signal, or
when the owner gives up. In the first case every rule that is still there has
nothing to do. If these are the two rules of the device and the one that writes to
the owner, then the connection is over, the owner has every byte that was assembled
and has been told that there are no more, and every segment is with the device. In
the last case the connection may still be active, and then its peer has not been
told.
-/

namespace Sponge

open TCPConnection (Op)

namespace Endpoint

variable {e e' : Endpoint} {op : Op}

/-- A connection that is over stays so. -/
theorem inactive_step (run : e.step op = some e') (inactive : e.conn.active = false) :
    e'.conn.active = false := by
  rcases step_cases run with ⟨p, prepared, rfl⟩ | ⟨len, -, rfl⟩
  · show p.conn.judgeDo.active = false
    have dead : p.conn.active = false := (prepare?_active prepared).trans inactive
    rw [(judged p.conn).dead dead]
    exact dead
  · exact inactive

/-- Between operations an active connection has pulled everything from its sender. -/
def Pulled (e : Endpoint) : Prop := e.conn.active = true → e.conn.sender.segmentsOut = []

theorem Pulled.step (h : Pulled e) (run : e.step op = some e') : Pulled e' := by
  rcases step_cases run with ⟨p, prepared, rfl⟩ | ⟨len, -, rfl⟩
  · intro alive
    have alive : p.conn.judgeDo.active = true := alive
    show p.conn.judgeDo.sender.segmentsOut = []
    rw [(TCPConnection.judgeDo_alive alive).1]
    rfl
  · exact h

theorem pulled_of_reaches {cfg : TCPConfig} {ok : Endpoint → Op → Prop} (reached : Reaches Endpoint.step ok (.new cfg) e) :
    Pulled e := by
  refine reached.invariant ?_ fun e op e' (h : Pulled e) _ run => h.step run
  intro _
  rfl

/-- The destructor of an active connection makes one reset. -/
theorem destruct_out (pulled : Pulled e) (active : e.conn.active = true) :
    ∃ seg, e.conn.destruct.segmentsOut = e.conn.segmentsOut ++ [seg] ∧ seg.header.rst = true := by
  rw [TCPConnection.destruct, if_pos active, TCPConnection.closeWithError, pulled active]
  exact ⟨{ e.conn.sender.emptySegment with header := { e.conn.sender.emptySegment.header with rst := true } }, by
    simp [TCPConnection.pullPushSegments, TCPSender.sendEmptySegment, TCPSender.setError, pulled active,
      TCPConnection.outgoing], rfl⟩

end Endpoint

namespace TCPSpongeSocket

open EventLoop (Undisturbed)

variable {α ι : Type} [FdAdapter α ι]

/-- A rule has nothing to do. -/
def Quiet : Tag → TCPSpongeSocket α → Prop
  | .datagramIn, s => s.tcp.conn.active = false
  | .ownerIn, _ => True
  | .ownerOut, s => s.inbound.bufferEmpty = true ∧ (s.inbound.eof = true ∨ s.inbound.error = true → s.inboundShutdown = true)
  | .datagramOut, s => s.pulled ≥ s.tcp.conn.segmentsOut.length

theorem quiet_of_idle (t : Tag) (s : TCPSpongeSocket α) (idle : (rule t).interest s = false) : Quiet t s := by
  cases t with
  | datagramIn => exact idle
  | ownerIn => trivial
  | ownerOut =>
    simp only [rule, Bool.or_eq_false_iff, Bool.not_eq_false', Bool.and_eq_false_iff, Bool.not_eq_false'] at idle
    refine ⟨idle.1, fun gone => ?_⟩
    rcases idle.2 with open_ | told
    · rcases gone with eof | error
      · rw [eof] at open_
        cases open_.1
      · rw [error] at open_
        cases open_.2
    · exact told
  | datagramOut =>
    simp only [rule, Bool.not_eq_false', List.isEmpty_iff, segmentsOut, List.drop_eq_nil_iff] at idle
    exact idle

/-- Only the cancellation of the second rule does anything, and it does not bring the connection back. -/
theorem undisturbed : rules.Pairwise (Undisturbed (rule (α := α)) Quiet) := by
  have idle : ∀ {t u : Tag}, u ≠ .ownerIn → Undisturbed (rule (α := α)) Quiet t u := by
    intro t u other s s' quiet cancelled
    cases u with
    | ownerIn => exact absurd rfl other
    | _ =>
      cases cancelled
      exact quiet
  have stays : Undisturbed (rule (α := α)) Quiet .datagramIn .ownerIn := by
    intro s s' quiet (cancelled : s.endOutbound = some s')
    obtain ⟨tcp, stepped, rfl⟩ := Option.map_eq_some_iff.1 cancelled
    exact Endpoint.inactive_step stepped quiet
  simp only [rules, List.pairwise_cons, List.forall_mem_cons]
  exact ⟨⟨stays, idle (by decide), idle (by decide), by simp⟩, ⟨idle (by decide), idle (by decide), by simp⟩,
    ⟨idle (by decide), by simp⟩, by simp, .nil⟩

end TCPSpongeSocket

namespace TCPThread

open TCPSpongeSocket (Hears Quiet)

variable {α ι : Type} [FdAdapter α ι] {first t t' : TCPThread α} {adapter : α} {cfg : TCPConfig}

/-- In every round, whatever arrives. -/
theorem stands_anyway (started : Started adapter cfg first) (reached : Reaches step (fun _ (_ : Round ι) => True) first t) :
    Stands (fun _ => True) first t :=
  stands_of_reaches started (reached.mono fun _ r _ => honours_anything r)

theorem phase_passTime {now : Nat} {sends : Sends} (run : t.passTime now sends = some t') : t'.phase = t.phase ∧ t'.unclean = t.unclean := by
  unfold passTime at run
  split at run
  · obtain ⟨socket, -, rfl⟩ := Option.map_eq_some_iff.1 run
    exact ⟨rfl, rfl⟩
  · cases run
    exact ⟨rfl, rfl⟩

theorem leave_finished {now : Nat} (live : t.phase ≠ .finished) (finished : (t.leave now).phase = .finished) :
    t.phase = .running ∧ (t.leave now).unclean = t.socket.tcp.conn.active := by
  unfold leave at finished ⊢
  cases phase : t.phase with
  | running => exact ⟨rfl, rfl⟩
  | finished => exact absurd phase live
  | connecting =>
    rw [phase] at finished
    cases finished
  | accepting =>
    rw [phase] at finished
    cases finished

theorem leave_unclean {now : Nat} (before : t.unclean = false) (unclean : (t.leave now).unclean = true) :
    (t.leave now).phase = .finished ∧ (t.leave now).socket.tcp.conn.active = true := by
  unfold leave at unclean ⊢
  cases phase : t.phase with
  | running =>
    rw [phase] at unclean
    exact ⟨rfl, unclean⟩
  | _ =>
    rw [phase] at unclean
    exact absurd (before.symm.trans unclean) (by decide)

/-- The warning is given at the end, about an active connection. -/
theorem step_unclean {r : Round ι} (run : t.step r = some t') (before : t.unclean = false) (unclean : t'.unclean = true) :
    t'.phase = .finished ∧ t'.socket.tcp.conn.active = true := by
  obtain ⟨-, ⟨-, rfl⟩ | ⟨out, -, ⟨-, rfl⟩ | ⟨-, -, passed⟩⟩⟩ := step_cases run
  · exact leave_unclean before unclean
  · exact leave_unclean (t := { t with socket := out.state, rules := out.rules }) before unclean
  · obtain ⟨-, same⟩ := phase_passTime passed
    exact absurd (before.symm.trans (same.symm.trans unclean)) (by decide)

/-- **The last iteration** of the loop: it exits or the owner gives up. -/
theorem step_finished {r : Round ι} (run : t.step r = some t') (finished : t'.phase = .finished) :
    ∃ out, EventLoop.waitNextEvent TCPSpongeSocket.rule t.rules t.socket r.poll = some out ∧
      (out.result = .exit ∨ r.abort = true) ∧ t'.socket = out.state ∧ t'.rules = out.rules ∧
      t'.unclean = t'.socket.tcp.conn.active := by
  obtain ⟨live, ⟨gone, rfl⟩ | ⟨out, waited, ⟨ends, rfl⟩ | ⟨-, -, passed⟩⟩⟩ := step_cases run
  · obtain ⟨running, -⟩ := leave_finished live finished
    rw [goesOn, running] at gone
    cases gone
  · obtain ⟨socket, rules⟩ := leave_socket { t with socket := out.state, rules := out.rules } r.now
    obtain ⟨-, unclean⟩ := leave_finished (t := { t with socket := out.state, rules := out.rules }) live finished
    exact ⟨out, waited, ends, socket, rules, unclean.trans (by rw [socket])⟩
  · obtain ⟨same, -⟩ := phase_passTime passed
    exact absurd (same.symm.trans finished) live

/-- What the thread leaves behind when it has come to its end by itself, of the rules that are left. -/
structure Settled (t : TCPThread α) : Prop where
  gone : .datagramIn ∈ t.rules → t.socket.tcp.conn.active = false ∧ t.unclean = false
  drained : .ownerOut ∈ t.rules → t.socket.inbound.bufferEmpty = true
  sent : .datagramOut ∈ t.rules → t.socket.pulled = t.socket.tcp.conn.segmentsOut.length
  told : .datagramIn ∈ t.rules → .ownerOut ∈ t.rules → t.socket.inboundShutdown = true
  clean : .datagramIn ∈ t.rules → t.socket.inbound.error = false →
    t.socket.tcp.conn.sender.fullFined = true ∧ t.socket.tcp.conn.receiver.fullFined = true

/-- When no rule is interested any more, each of those that are left has nothing to do. -/
theorem Stands.settled (stands : Stands (fun _ => True) first t) (started : Started adapter cfg first) {r : Round ι}
    (run : t.step r = some t') (finished : t'.phase = .finished) (goesOn : r.abort = false) (noSignal : r.poll ≠ .interrupted) :
    Settled t' := by
  have stands' : Stands (fun _ => True) first t' := stands.step (honours_anything r) run
  have ends := Ends.of_reaches (stands'.reaches started)
  obtain ⟨out, waited, exits, socket, rules, unclean⟩ := step_finished run finished
  have exit : out.result = .exit := by
    rcases exits with exit | aborted
    · exact exit
    · rw [goesOn] at aborted
      cases aborted
  have quiet : ∀ tag ∈ t'.rules, Quiet tag t'.socket := by
    rw [socket, rules]
    exact EventLoop.wait_exit TCPSpongeSocket.quiet_of_idle (TCPSpongeSocket.undisturbed.sublist stands.rules) waited exit
      noSignal
  have gone : .datagramIn ∈ t'.rules → t'.socket.tcp.conn.active = false := fun there => quiet .datagramIn there
  have clean : .datagramIn ∈ t'.rules → t'.socket.inbound.error = false →
      t'.socket.tcp.conn.sender.fullFined = true ∧ t'.socket.tcp.conn.receiver.fullFined = true :=
    fun there => ends.clean (gone there)
  refine ⟨fun there => ⟨gone there, unclean.trans (gone there)⟩, fun there => (quiet .ownerOut there).1,
    fun there => Nat.le_antisymm stands'.advances.books.pulled (quiet .datagramOut there), fun there owner => ?_, clean⟩
  obtain ⟨empty, told⟩ := quiet .ownerOut owner
  refine told ?_
  cases error : t'.socket.inbound.error with
  | true => exact Or.inr rfl
  | false =>
    -- without an error the peer's stream has ended, and its last byte has been taken
    have full := (clean there error).2
    have ended : t'.socket.inbound.inputEnded = true := by
      rw [TCPReceiver.fullFined, beq_iff_eq] at full
      exact ends.flagged.ended.trans (ends.flagged.eofed.2 full)
    refine Or.inl ?_
    rw [ByteStream.eof, ended, empty]
    rfl

/-- **The end of a thread that was not told to stop.** When `_tcp_main` comes to its end without a signal and without
`_abort`, then: if the device was read to the end, the connection is over, and unless there was an error both of its
streams were finished and acknowledged; if the owner's socket was written to the end, nothing that was assembled is left;
if the device was written to the end, no segment is left; and if both the device was read and the owner's socket written
to the end, the owner has been told of the end of the stream. -/
theorem exit_settled (started : Started adapter cfg first) (reached : Reaches step (fun _ (_ : Round ι) => True) first t)
    {r : Round ι} (run : t.step r = some t') (finished : t'.phase = .finished) (goesOn : r.abort = false)
    (noSignal : r.poll ≠ .interrupted) : Settled t' :=
  (stands_anyway started reached).settled started run finished goesOn noSignal

/-- The peer answers the SYN with a reset, and the owner is told. -/
def resetRounds : List (Round (Option ReceivedDatagram)) := [
  .only 3 { pollout := true } {} 1,
  .only 0 { pollin := true }
    { datagram := some (TCPOverUDPSocketAdapter.arriving callee { header := { rst := true } }) } 2,
  .only 0 {} {} 3,
  .only 2 { pollout := true } { write := fun _ => some 0 } 4]

theorem exit_settled_reset :
    ∃ first t t', dialled = some first ∧ follow step (fun _ _ => True) first resetRounds = some t ∧
      t.step (.only 0 {} {} 5) = some t' ∧ t'.rules = TCPSpongeSocket.rules ∧ t'.socket.tcp.conn.active = false ∧
      t'.unclean = false ∧ t'.socket.inboundShutdown = true ∧ Settled t' := by
  obtain ⟨⟨first, t, t'⟩, run, seen⟩ := Option.map_eq_some_iff.1
    (show (dialled.bind fun first => (follow step (fun _ _ => True) first resetRounds).bind fun t =>
        (t.step (.only 0 {} {} 5)).map fun t' => (first, t, t')).map
      (fun p => (p.2.2.rules, p.2.2.phase)) = some (TCPSpongeSocket.rules, .finished) by decide +kernel)
  obtain ⟨first', started, run⟩ := Option.bind_eq_some_iff.1 run
  obtain ⟨mid, ran, run⟩ := Option.bind_eq_some_iff.1 run
  obtain ⟨last, exits, same⟩ := Option.map_eq_some_iff.1 run
  cases same
  obtain ⟨rules, finished⟩ := Prod.mk.inj seen
  have settled : Settled t' := exit_settled (.of_dialled started) (Reaches.start.follow ran) exits finished rfl (by
    intro interrupted
    cases interrupted)
  have there : .datagramIn ∈ t'.rules := by
    rw [rules]
    decide
  have owner : .ownerOut ∈ t'.rules := by
    rw [rules]
    decide
  exact ⟨first, t, t', started, ran, exits, rules, (settled.gone there).1, (settled.gone there).2, settled.told there owner,
    settled⟩

/-- **An owner who gives up says nothing.** If the thread has ended and its connection was still active, then the connection
has not put out a reset, and so the device was given none: the one that the destructor of the connection makes is put
in a queue that nobody reads any more. -/
theorem aborted_silent (started : Started adapter cfg first) (reached : Reaches step (fun _ (_ : Round ι) => True) first t)
    (unclean : t.unclean = true) :
    t.phase = .finished ∧ (∀ seg ∈ t.socket.tcp.conn.segmentsOut, seg.header.rst = false) ∧
      ∃ seg, t.socket.tcp.conn.destruct.segmentsOut = t.socket.tcp.conn.segmentsOut ++ [seg] ∧ seg.header.rst = true := by
  have stands := stands_anyway started reached
  have known : t.unclean = true → t.phase = .finished ∧ t.socket.tcp.conn.active = true := by
    refine reached.invariant ?_
      fun t r t' (h : t.unclean = true → t.phase = .finished ∧ t.socket.tcp.conn.active = true) _ run unclean => ?_
    · obtain ⟨-, -, -, -, clean⟩ := started.spec
      rw [clean]
      intro unclean
      cases unclean
    · refine step_unclean run ?_ unclean
      rw [← Bool.not_eq_true]
      exact fun before => (step_cases run).1 (h before).1
  obtain ⟨finished, active⟩ := known unclean
  exact ⟨finished, (Endpoint.unreset_of_reaches (stands.reaches started)).out active,
    Endpoint.destruct_out (Endpoint.pulled_of_reaches (stands.reaches started)) active⟩

/-- The loop of `connect` and that of `_tcp_main` are left one after the other. -/
def abortRounds : List (Round (Option ReceivedDatagram)) := [
  .only 3 { pollout := true } {} 1,
  { poll := .timeout, abort := true, now := 2 },
  { poll := .timeout, abort := true, now := 3 }]

theorem aborted_silent_dialled :
    ∃ first t, dialled = some first ∧ follow step (fun _ _ => True) first abortRounds = some t ∧ t.unclean = true ∧
      t.socket.tcp.conn.segmentsOut.length = 1 ∧ ∀ seg ∈ t.socket.tcp.conn.segmentsOut, seg.header.rst = false := by
  obtain ⟨⟨first, t⟩, run, seen⟩ := Option.map_eq_some_iff.1
    (show (dialled.bind fun first => (follow step (fun _ _ => True) first abortRounds).map fun t => (first, t)).map
      (fun p => (p.2.unclean, p.2.socket.tcp.conn.segmentsOut.length)) = some (true, 1) by decide +kernel)
  obtain ⟨first', started, run⟩ := Option.bind_eq_some_iff.1 run
  obtain ⟨t', ran, same⟩ := Option.map_eq_some_iff.1 run
  cases same
  obtain ⟨unclean, one⟩ := Prod.mk.inj seen
  obtain ⟨-, silent, -⟩ := aborted_silent (.of_dialled started) (Reaches.start.follow ran) unclean
  exact ⟨first, t, started, ran, unclean, one, silent⟩

end TCPThread

end Sponge
