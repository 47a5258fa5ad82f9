import Sponge.Tcp.Network
import Sponge.Tcp.SocketEnding

/-!
# Two sockets and the network between them

Two sockets, each with its thread, its event loop and its adapter, on a network
that may lose, repeat and reorder datagrams and bring others that are no segments.
The threads run in any order. What the adapters put on the network is what the
connections have put out (`Honest`), so the two connections agree as if they were
joined directly (`Agreed`), and with the books of the two sockets that says what
the two owners see of each other.
-/

namespace Sponge

open TCPConnection (Op)

/-! ### The connections -/

section Connections

variable {a a' b : Endpoint}

theorem Endpoint.written_grows {op : Op} (run : a.step op = some a') : a.written.length ≤ a'.written.length := by
  by_cases writes : ∃ data, op = .write data
  · obtain ⟨data, rfl⟩ := writes
    obtain ⟨conn, -, rfl⟩ := Option.map_eq_some_iff.1 run
    show _ ≤ (a.written ++ data.take (a.conn.written data)).length
    rw [List.length_append]
    exact Nat.le_add_right _ _
  · rw [step_written run fun data is => writes ⟨data, is⟩]

/-- An operation that a thread carries out, on a segment with the content of one that the peer has put out. -/
theorem Agreed.hears (agreed : Agreed a b) {op : Op} (hears : TCPSpongeSocket.Hears (· ∈ b.conn.segmentsOut) a op)
    (run : a.step op = some a') (short : a'.written.length < 2 ^ 31 - 4) : Agreed a' b := by
  cases op with
  | segmentReceived seg =>
    obtain ⟨sent, member, same⟩ := hears
    rw [a.step_congr_content same] at run
    have allowed : a.Allows b (.segmentReceived sent) := member
    exact agreed.step allowed run
  | write data =>
    have allowed : a.Allows b (.write data) := by
      obtain ⟨conn, -, rfl⟩ := Option.map_eq_some_iff.1 run
      exact ⟨hears.1, short⟩
    exact agreed.step allowed run
  | _ =>
    refine agreed.step ?_ run
    trivial

/-- Any number of them. -/
theorem Agreed.run (agreed : a.written.length < 2 ^ 31 - 4 → Agreed a b)
    (reached : Reaches Endpoint.step (TCPSpongeSocket.Hears (· ∈ b.conn.segmentsOut)) a a')
    (short : a'.written.length < 2 ^ 31 - 4) : Agreed a' b := by
  have kept : a'.written.length < 2 ^ 31 - 4 → Agreed a' b := by
    refine reached.invariant ?_ fun e op e' (kept : e.written.length < 2 ^ 31 - 4 → Agreed e b) hears moved short => ?_
    · exact agreed
    · exact (kept (Nat.lt_of_le_of_lt (Endpoint.written_grows moved) short)).hears hears moved short
  exact kept short

end Connections

/-! ### The adapters -/

section Adapters

variable {α ι δ : Type} [FdAdapter α ι] [Honest α ι δ] {S : TCPSegment → Prop}

theorem Honest.run {a a' : α} {calls : List (AdapterOp ι)} {got : List TCPSegment} (holds : Honest.Holds S a)
    (given : ∀ seg ∈ calls.filterMap AdapterOp.segment?, S seg ∧ seg.Fits) (run : FdAdapter.run a calls = some (a', got)) :
    Honest.Holds S a' := by
  induction calls generalizing a got with
  | nil =>
    cases run
    exact holds
  | cons op rest ih =>
    obtain ⟨⟨mid, one⟩, performed, after⟩ := Option.bind_eq_some_iff.1 run
    obtain ⟨⟨last, more⟩, run', same⟩ := Option.map_eq_some_iff.1 after
    obtain ⟨rfl, rfl⟩ := Prod.mk.inj same
    have later : ∀ seg ∈ rest.filterMap AdapterOp.segment?, S seg ∧ seg.Fits := by
      intro seg member
      refine given seg ?_
      rw [List.mem_filterMap] at member ⊢
      obtain ⟨op', there, is⟩ := member
      exact ⟨op', List.mem_cons_of_mem _ there, is⟩
    refine ih ?_ later run'
    cases op with
    | read i => exact Honest.read holds performed
    | write seg sends =>
      obtain ⟨a'', wrote, same⟩ := Option.map_eq_some_iff.1 performed
      obtain ⟨rfl, -⟩ := Prod.mk.inj same
      obtain ⟨is, fits⟩ := given seg (List.mem_filterMap.2 ⟨.write seg sends, List.mem_cons_self, rfl⟩)
      exact Honest.write holds is fits wrote
    | tick ms sends =>
      obtain ⟨a'', ticked, same⟩ := Option.map_eq_some_iff.1 performed
      obtain ⟨rfl, -⟩ := Prod.mk.inj same
      exact Honest.tick holds ticked

end Adapters

/-! ### The sockets -/

namespace TCPThread

variable {α ι δ : Type} [FdAdapter α ι] [Honest α ι δ] {adapter : α} {cfg : TCPConfig} {first t : TCPThread α}

/-- **The adapter of a socket** has put on the network what the connection has put out. -/
theorem Stands.holds {P : TCPSegment → Prop} (h : Stands P first t) (started : Started adapter cfg first)
    (unused : Honest.Holds (fun _ => False) adapter) :
    Honest.Holds (· ∈ t.socket.tcp.conn.segmentsOut) t.socket.datagramAdapter := by
  have fits := (Endpoint.emits_of_reaches inherited_fits (h.reaches started)).out
  obtain ⟨books, ops, calls, passes⟩ := h.advances
  have sent := passes.sent
  obtain ⟨-, -, pulled, -⟩ := started.spec
  rw [TCPSpongeSocket.sent, TCPSpongeSocket.sent, pulled, List.take_zero, List.nil_append] at sent
  have unused : Honest.Holds (· ∈ t.socket.tcp.conn.segmentsOut) adapter := Honest.mono (fun _ absurd => absurd.elim) unused
  have configured : Honest.Holds (· ∈ t.socket.tcp.conn.segmentsOut) first.socket.datagramAdapter := by
    obtain ⟨settings, now, connected | rfl⟩ := started
    · obtain ⟨tcp, -, run⟩ := Option.bind_eq_some_iff.1 connected
      split at run
      · cases run
      · cases run
        exact Honest.setConfig settings unused
    · exact Honest.setListening true (Honest.setConfig settings unused)
  refine Honest.run configured (fun seg member => ?_) passes.adapter
  rw [← sent] at member
  have out := List.mem_of_mem_take member
  exact ⟨out, fits seg out⟩

end TCPThread

/-- What the owner of `b` has of what the owner of `a` has written. -/
structure Carried {α : Type} (a b : TCPThread α) : Prop where
  inOrder : b.socket.delivered <+: a.socket.received
  whole : b.socket.inbound.eof = true → a.socket.outboundShutdown = true ∧ b.socket.delivered = a.socket.received

theorem Carried.of_link {α : Type} {a b : TCPThread α} (booksA : TCPSpongeSocket.Books a.socket)
    (booksB : TCPSpongeSocket.Books b.socket) (link : Link a.socket.tcp b.socket.tcp) : Carried a b := by
  obtain ⟨inOrder, whole⟩ := Network.delivered link
  constructor
  · rw [booksA.received, booksB.delivered]
    exact (List.prefix_append _ _).trans inOrder
  · intro eof
    obtain ⟨ended, empty⟩ := Bool.and_eq_true_iff.1 eof
    obtain ⟨closed, all⟩ := whole ended
    refine ⟨booksA.ended.trans closed, ?_⟩
    rw [booksA.received, booksB.delivered, ← all, Endpoint.assembled,
      show b.socket.tcp.conn.inboundStream.pending = [] from (ByteStream.bufferEmpty_iff _).1 empty, List.append_nil]

/-- Two sockets. -/
structure Conversation (α : Type) where
  a : TCPThread α
  b : TCPThread α

namespace Conversation

open TCPThread (Started Stands)

variable {α ι δ : Type} [FdAdapter α ι]

/-- One of the threads makes a round. -/
def step (c : Conversation α) : Side × Round ι → Option (Conversation α)
  | (.a, r) => (c.a.step r).map fun a => { c with a }
  | (.b, r) => (c.b.step r).map fun b => { c with b }

variable [Honest α ι δ]

/-- What a device gives is a datagram that the peer's adapter has sent, now or earlier, or something that no adapter takes
for a segment. -/
def Arrives (peer : TCPThread α) (r : Round ι) : Prop :=
  ∀ idx answer, r.poll.answers idx = some answer → ∀ i ∈ answer.input.datagram,
    (∃ d ∈ Honest.out peer.socket.datagramAdapter, Honest.Arrives (α := α) d i) ∨
      ∀ (b b' : α) (seg : TCPSegment), FdAdapter.read b i ≠ some (b', some seg)

/-- The rounds that the network allows. -/
def Allowed (c : Conversation α) : Side × Round ι → Prop
  | (.a, r) => Arrives c.b r
  | (.b, r) => Arrives c.a r

theorem Arrives.honours {peer : TCPThread α} {r : Round ι} (arrives : Arrives peer r)
    (holds : Honest.Holds (· ∈ peer.socket.tcp.conn.segmentsOut) peer.socket.datagramAdapter) :
    TCPThread.Honours α (· ∈ peer.socket.tcp.conn.segmentsOut) r := by
  intro idx answer answered i given b b' seg read
  rcases arrives idx answer answered i given with ⟨d, out, here⟩ | noise
  · exact Honest.carried holds out here read
  · exact absurd read (noise b b' seg)

/-- The two sockets and what was set up. -/
structure Joined (firstA firstB : TCPThread α) (c : Conversation α) : Prop where
  a : Stands (fun _ => True) firstA c.a
  b : Stands (fun _ => True) firstB c.b
  agreed : c.a.socket.tcp.written.length < 2 ^ 31 - 4 → c.b.socket.tcp.written.length < 2 ^ 31 - 4 →
    Agreed c.a.socket.tcp c.b.socket.tcp

section Runs

variable {adapterA adapterB : α} {cfgA cfgB : TCPConfig} {firstA firstB : TCPThread α} {c c' : Conversation α}

theorem Joined.symm (h : Joined firstA firstB c) : Joined firstB firstA ⟨c.b, c.a⟩ :=
  ⟨h.b, h.a, fun b a => (h.agreed a b).symm⟩

/-- **A round of one thread.** -/
theorem Joined.round (h : Joined firstA firstB c) (startedB : Started adapterB cfgB firstB)
    (unusedB : Honest.Holds (fun _ => False) adapterB) {r : Round ι} (arrives : Arrives c.b r) {a' : TCPThread α}
    (run : c.a.step r = some a') : Joined firstA firstB { c with a := a' } := by
  have distinct : c.a.rules.Nodup := (show TCPSpongeSocket.rules.Nodup by decide).sublist h.a.rules
  have honours := arrives.honours (h.b.holds startedB unusedB)
  obtain ⟨advances, -⟩ := TCPThread.step_advances h.a.advances.books distinct honours run
  refine ⟨h.a.step (TCPThread.honours_anything r) run, h.b, fun shortA shortB => ?_⟩
  exact Agreed.run (fun short => h.agreed short shortB) advances.reaches shortA

theorem Joined.started (startedA : Started adapterA cfgA firstA) (startedB : Started adapterB cfgB firstB) :
    Joined firstA firstB ⟨firstA, firstB⟩ := by
  refine ⟨startedA.stands, startedB.stands, fun shortA shortB => ?_⟩
  obtain ⟨opsA, tracesA, noneA, -⟩ := startedA.traces (P := (· ∈ (Endpoint.new cfgB).conn.segmentsOut))
  obtain ⟨opsB, tracesB, noneB, -⟩ := startedB.traces (P := (· ∈ firstA.socket.tcp.conn.segmentsOut))
  have first : Agreed firstA.socket.tcp (.new cfgB) := Agreed.run (fun _ => .new cfgA cfgB) tracesA.reaches shortA
  exact (Agreed.run (fun _ => first.symm) tracesB.reaches shortB).symm

theorem joined_of_reaches (startedA : Started adapterA cfgA firstA) (startedB : Started adapterB cfgB firstB)
    (unusedA : Honest.Holds (fun _ => False) adapterA) (unusedB : Honest.Holds (fun _ => False) adapterB)
    (reached : Reaches step Allowed ⟨firstA, firstB⟩ c) : Joined firstA firstB c := by
  refine reached.invariant ?_ fun c action c' (h : Joined firstA firstB c) allowed run => ?_
  · exact .started startedA startedB
  obtain ⟨side, r⟩ := action
  cases side with
  | a =>
    obtain ⟨a, moved, rfl⟩ := Option.map_eq_some_iff.1 run
    exact h.round startedB unusedB allowed moved
  | b =>
    obtain ⟨b, moved, rfl⟩ := Option.map_eq_some_iff.1 run
    exact (h.symm.round startedA unusedA allowed moved).symm

end Runs

/-- What happens next in a run, for a witness: the rule at one place of one side is found ready, with one of the datagrams
that the peer has sent. -/
structure Cue where
  side : Side
  place : Nat := 0
  revents : EventLoop.Revents := {}
  input : Kernel (Option ReceivedDatagram) := {}
  arrives : Option Nat := none

/-- Where the datagrams of the other side come from: the first side is called by the second. -/
def Cue.source (cue : Cue) : Address :=
  match cue.side with
  | .a => TCPThread.caller
  | .b => TCPThread.callee

/-- The round, when the peer is as it is. -/
def Cue.round (cue : Cue) (peer : TCPThread TCPOverUDPSocketAdapter) : Round (Option ReceivedDatagram) :=
  .only cue.place cue.revents
    { cue.input with
      datagram := cue.arrives.bind fun n => peer.socket.datagramAdapter.sent[n]?.map fun d => some ⟨cue.source, d.2⟩ } 0

def Cue.play (c : Conversation TCPOverUDPSocketAdapter) (cue : Cue) : Option (Conversation TCPOverUDPSocketAdapter) :=
  match cue.side with
  | .a => c.step (.a, cue.round c.b)
  | .b => c.step (.b, cue.round c.a)

theorem Cue.arrives_round (cue : Cue) (peer : TCPThread TCPOverUDPSocketAdapter) : Arrives peer (cue.round peer) := by
  intro idx answer answered i given
  obtain ⟨-, rfl⟩ : idx = cue.place ∧ _ = answer := by simpa [Round.only, Cue.round, EventLoop.Poll.answers] using answered
  obtain ⟨n, -, found⟩ := Option.bind_eq_some_iff.1 given
  obtain ⟨d, there, rfl⟩ := Option.map_eq_some_iff.1 found
  exact Or.inl ⟨d, List.mem_of_getElem? there, cue.source, rfl⟩

theorem Cue.reaches {first c : Conversation TCPOverUDPSocketAdapter} {cues : List Cue}
    (run : cues.foldlM Cue.play first = some c) : Reaches step Allowed first c := by
  induction cues generalizing first with
  | nil =>
    cases run
    exact .start
  | cons cue rest ih =>
    rw [List.foldlM_cons] at run
    obtain ⟨mid, played, more⟩ := Option.bind_eq_some_iff.1 run
    have one : Reaches step Allowed first mid := by
      unfold Cue.play at played
      split at played
      · have allowed : Allowed first (.a, cue.round first.b) := cue.arrives_round first.b
        exact .single allowed played
      · have allowed : Allowed first (.b, cue.round first.a) := cue.arrives_round first.a
        exact .single allowed played
    exact one.trans (ih more)

/-- One socket listens and the other calls it. -/
def opened : Option (Conversation TCPOverUDPSocketAdapter) :=
  TCPThread.dialled.map fun b =>
    ⟨TCPThread.listenAndAccept {} (TCPThread.configured 4294967294) { source := TCPThread.callee } 0, b⟩

theorem started_listening : Started ({} : TCPOverUDPSocketAdapter) (TCPThread.configured 4294967294)
    (TCPThread.listenAndAccept {} (TCPThread.configured 4294967294) { source := TCPThread.callee } 0) :=
  ⟨{ source := TCPThread.callee }, 0, Or.inr rfl⟩

theorem unused_new : Honest.Holds (fun _ => False) ({} : TCPOverUDPSocketAdapter) := by
  intro d member
  cases member

/-- The two connect, and the caller's owner writes three bytes and closes its end. They arrive, one of the segments
twice. -/
def call : List Cue := [
  { side := .b, place := 3, revents := { pollout := true } },
  { side := .a, revents := { pollin := true }, arrives := some 0 },
  { side := .a, place := 3, revents := { pollout := true } },
  { side := .b, revents := { pollin := true }, arrives := some 0 },
  { side := .b },
  { side := .b, place := 3, revents := { pollout := true } },
  { side := .a, revents := { pollin := true }, arrives := some 1 },
  { side := .a },
  { side := .b, place := 1, revents := { pollin := true }, input := { read := fun _ => some [1, 2, 3] } },
  { side := .b, place := 1, revents := { pollin := true }, input := { read := fun _ => some [] } },
  { side := .b, place := 2, revents := { pollout := true } },
  { side := .a, revents := { pollin := true }, arrives := some 3 },
  { side := .a, revents := { pollin := true }, arrives := some 2 },
  { side := .a, revents := { pollin := true }, arrives := some 2 },
  { side := .a, place := 2, revents := { pollout := true }, input := { write := fun _ => some 3 } }]

/-- **What the owners hear of each other**, over every run of the two threads and the network. As long as each owner has
written fewer than `2 ^ 31 - 4` bytes, the bytes that were written to one are a prefix of those that were read from the
other, and when one is told of the end of the stream the other has ended it and all of its bytes have arrived. -/
theorem owners_in_order {adapterA adapterB : α} {cfgA cfgB : TCPConfig} {firstA firstB : TCPThread α} {c : Conversation α}
    (startedA : Started adapterA cfgA firstA) (startedB : Started adapterB cfgB firstB)
    (unusedA : Honest.Holds (fun _ => False) adapterA) (unusedB : Honest.Holds (fun _ => False) adapterB)
    (reached : Reaches step Allowed ⟨firstA, firstB⟩ c) (shortA : c.a.socket.received.length < 2 ^ 31 - 4)
    (shortB : c.b.socket.received.length < 2 ^ 31 - 4) : Carried c.a c.b ∧ Carried c.b c.a := by
  have joined := joined_of_reaches startedA startedB unusedA unusedB reached
  rw [joined.a.advances.books.received] at shortA
  rw [joined.b.advances.books.received] at shortB
  have pair := (joined.agreed shortA shortB).pair
  exact ⟨.of_link joined.a.advances.books joined.b.advances.books pair.forth,
    .of_link joined.b.advances.books joined.a.advances.books pair.back⟩

theorem owners_in_order_call :
    ∃ first c, opened = some first ∧ call.foldlM Cue.play first = some c ∧ c.a.socket.delivered = [1, 2, 3] ∧
      c.a.socket.inbound.eof = true ∧ c.b.socket.received = [1, 2, 3] ∧ Carried c.a c.b ∧ Carried c.b c.a := by
  obtain ⟨⟨first, c⟩, run, seen⟩ := Option.map_eq_some_iff.1
    (show (opened.bind fun first => (call.foldlM Cue.play first).map fun c => (first, c)).map
      (fun p => (p.2.a.socket.received, p.2.a.socket.delivered, p.2.a.socket.inbound.eof, p.2.b.socket.received)) =
        some ([], [1, 2, 3], true, [1, 2, 3]) by decide +kernel)
  obtain ⟨first', begun, run⟩ := Option.bind_eq_some_iff.1 run
  obtain ⟨c', played, same⟩ := Option.map_eq_some_iff.1 run
  cases same
  simp only [Prod.mk.injEq] at seen
  obtain ⟨silent, bytes, eof, written⟩ := seen
  obtain ⟨b, started, rfl⟩ := Option.map_eq_some_iff.1 begun
  have both := owners_in_order started_listening (.of_dialled started) unused_new unused_new
    (Cue.reaches played) (by simp [silent]) (by simp [written])
  exact ⟨_, c, begun, played, bytes, eof, written, both⟩

/-- The other owner answers with a byte and closes its end. The caller's socket gets the last of the segments, then the
one before it, and acknowledges. -/
def answer : List Cue := [
  { side := .a, place := 1, revents := { pollin := true }, input := { read := fun _ => some [9] } },
  { side := .a, place := 1, revents := { pollin := true }, input := { read := fun _ => some [] } },
  { side := .a, place := 2, revents := { pollout := true } },
  { side := .b, revents := { pollin := true }, arrives := some 5 },
  { side := .b, revents := { pollin := true }, arrives := some 4 },
  { side := .b, place := 2, revents := { pollout := true } },
  { side := .a, revents := { pollin := true }, arrives := some 5 }]

/-- **A thread that comes to its end by itself has lost nothing.** If it has kept the rules for the device's segments and
for the owner's bytes, and there was no error, then everything that was read from the peer's owner, to its end, was
written to its own owner, and everything that was read from its own owner has been assembled by the peer. -/
theorem clean_exit_complete {adapterA adapterB : α} {cfgA cfgB : TCPConfig} {firstA firstB : TCPThread α}
    {c : Conversation α} (startedA : Started adapterA cfgA firstA) (startedB : Started adapterB cfgB firstB)
    (unusedA : Honest.Holds (fun _ => False) adapterA) (unusedB : Honest.Holds (fun _ => False) adapterB)
    (reached : Reaches step Allowed ⟨firstA, firstB⟩ c) {r : Round ι} (arrives : Arrives c.b r) {a' : TCPThread α}
    (run : c.a.step r = some a') (finished : a'.phase = .finished) (goesOn : r.abort = false)
    (noSignal : r.poll ≠ .interrupted) (device : .datagramIn ∈ a'.rules) (owner : .ownerOut ∈ a'.rules)
    (noError : a'.socket.inbound.error = false) (shortA : a'.socket.received.length < 2 ^ 31 - 4)
    (shortB : c.b.socket.received.length < 2 ^ 31 - 4) :
    (a'.socket.inboundShutdown = true ∧ c.b.socket.outboundShutdown = true ∧
      a'.socket.delivered = c.b.socket.received) ∧
      c.b.socket.inbound.inputEnded = true ∧ c.b.socket.tcp.assembled = a'.socket.received := by
  have before := joined_of_reaches startedA startedB unusedA unusedB reached
  have joined := before.round startedB unusedB arrives run
  have settled := before.a.settled startedA run finished goesOn noSignal
  have booksA := joined.a.advances.books
  have booksB := joined.b.advances.books
  rw [booksA.received] at shortA
  rw [booksB.received] at shortB
  have pair := (joined.agreed shortA shortB).pair
  obtain ⟨⟨ended, -⟩, ended', whole⟩ := (Network.nothingLost pair).2 (settled.gone device).1 noError
  have eof : a'.socket.inbound.eof = true := Bool.and_eq_true_iff.2 ⟨ended, settled.drained owner⟩
  obtain ⟨shut, all⟩ := (Carried.of_link booksB booksA pair.back).whole eof
  exact ⟨⟨settled.told device owner, shut, all⟩, ended', whole.trans booksA.received.symm⟩

theorem clean_exit_complete_answer :
    ∃ first c a', opened = some first ∧ (call ++ answer).foldlM Cue.play first = some c ∧
      c.a.step (Cue.round { side := .a } c.b) = some a' ∧ a'.phase = .finished ∧ a'.socket.delivered = [1, 2, 3] ∧
      c.b.socket.received = [1, 2, 3] ∧ c.b.socket.tcp.assembled = [9] := by
  obtain ⟨⟨first, c, a'⟩, run, seen⟩ := Option.map_eq_some_iff.1
    (show (opened.bind fun first => ((call ++ answer).foldlM Cue.play first).bind fun c =>
        (c.a.step (Cue.round { side := .a } c.b)).map fun a' => (first, c, a')).map
      (fun p => (p.2.2.phase, p.2.2.rules, p.2.2.socket.inbound.error, p.2.2.socket.received, p.2.1.b.socket.received)) =
        some (.finished, [.datagramIn, .ownerOut, .datagramOut], false, [9], [1, 2, 3]) by decide +kernel)
  obtain ⟨first', begun, run⟩ := Option.bind_eq_some_iff.1 run
  obtain ⟨c', played, run⟩ := Option.bind_eq_some_iff.1 run
  obtain ⟨last, exits, same⟩ := Option.map_eq_some_iff.1 run
  cases same
  simp only [Prod.mk.injEq] at seen
  obtain ⟨finished, rules, noError, own, written⟩ := seen
  obtain ⟨b, started, rfl⟩ := Option.map_eq_some_iff.1 begun
  obtain ⟨⟨-, -, all⟩, -, assembled⟩ := clean_exit_complete started_listening (.of_dialled started)
    unused_new unused_new (Cue.reaches played) (Cue.arrives_round _ c.b) exits finished rfl
    (by
      intro interrupted
      cases interrupted)
    (by simp [rules]) (by simp [rules]) noError (by simp [own]) (by simp [written])
  exact ⟨_, c, a', begun, played, exits, finished, all.trans written, written, assembled.trans own⟩

end Conversation

end Sponge
