import Sponge.Tcp.TCPSpongeSocket

/-!
# The socket refines the connection

Whatever `poll` finds and whatever the system calls return, what the socket's
thread does is a list of operations on its connection and a list of calls on its
adapter (`Passes`), with the segments that one returns given to the other in their
order. Nothing is written after the end of the stream and everything that is
written is accepted. The books agree in every state (`Books`): the bytes read from
the owner are those that were written to the connection, and the bytes written to
the owner are those that were taken from it.
-/

namespace Sponge

open TCPConnection (Op)

/-! ### What the owner sees of an operation -/

theorem TCPSender.Fills.inputEnded {s t : TCPSender} (fills : Fills s t) : t.stream.inputEnded = s.stream.inputEnded := by
  induction fills with
  | stop => rfl
  | more _ _ _ ih => exact ih

namespace Endpoint

variable {e e' p : Endpoint} {op : Op}

/-- The sender's stream has ended. -/
def ended (e : Endpoint) : Bool := e.conn.sender.stream.inputEnded

theorem ended_fill (e : Endpoint) : e.fill.ended = e.ended := e.conn.sender.fillWindow_fills.inputEnded

theorem ended_fillIfSyned (e : Endpoint) : e.fillIfSyned.ended = e.ended := by
  unfold fillIfSyned
  split
  · exact ended_fill e
  · rfl

theorem ended_react (e : Endpoint) (seg : TCPSegment) : (e.react seg).ended = e.ended := by
  unfold react
  split
  · exact ended_fill e
  · have acked : (e.on (·.ackSender seg)).ended = e.ended := by
      show (e.conn.ackSender seg).sender.stream.inputEnded = _
      unfold TCPConnection.ackSender
      split
      · rw [(e.conn.sender.ackReceived_spec _ _).stream]
        rfl
      · rfl
    have filled := ended_fillIfSyned (e.on (·.ackSender seg))
    have noted : ((e.on (·.ackSender seg)).fillIfSyned.on (·.noteLinger)).ended = (e.on (·.ackSender seg)).fillIfSyned.ended := by
      show (TCPConnection.noteLinger _).sender.stream.inputEnded = _
      rw [noteLinger_eq]
      rfl
    have replied := (replyEmpty_same ((e.on (·.ackSender seg)).fillIfSyned.on (·.noteLinger)).conn seg).ended
    exact replied.trans (noted.trans (filled.trans acked))

/-- **The end of the outbound stream** is where it is ended. -/
theorem step_ended (run : e.step op = some e') : e'.ended = (e.ended || decide (op = .endInputStream)) := by
  rcases step_cases run with ⟨p, prepared, rfl⟩ | ⟨len, rfl, rfl⟩
  · have judged : (p.on (·.judgeDo)).ended = p.ended := (judged p.conn).sender.ended
    rw [judged]
    rcases prepare?_cases prepared with ⟨rfl, rfl⟩ | ⟨data, rfl, rfl⟩ | ⟨rfl, rfl⟩ | ⟨ms, rfl, rfl⟩ | ⟨seg, rfl, -, rfl⟩ |
      ⟨seg, r, rfl, -, -, rfl⟩
    · simp [ended_fill]
    · have accepted : (e.accept data).ended = e.ended := rfl
      simp [ended_fillIfSyned, accepted]
    · have stopped : e.endInput.ended = true := rfl
      simp [ended_fill, stopped]
    · have ticked : (e.passTime ms).ended = e.ended := (e.conn.sender.tick_spec ms).1.ended
      simp [ended_fillIfSyned, ticked]
    · have same : e.reset.ended = e.ended := rfl
      simp [same]
    · have received : (e.receive r).ended = e.ended := rfl
      simp [ended_react, received]
  · simp [ended, TCPConnection.popInbound]

theorem step_written (run : e.step op = some e') (noWrite : ∀ data, op ≠ .write data) : e'.written = e.written := by
  obtain ⟨conn, -, rfl⟩ := Option.map_eq_some_iff.1 run
  cases op with
  | write data => exact absurd rfl (noWrite data)
  | _ => rfl

theorem step_taken (run : e.step op = some e') (noRead : ∀ len, op ≠ .read len) : e'.taken = e.taken := by
  obtain ⟨conn, -, rfl⟩ := Option.map_eq_some_iff.1 run
  cases op with
  | read len => exact absurd rfl (noRead len)
  | _ => rfl

theorem written_of_write {data : List UInt8} (run : e.step (.write data) = some e')
    (all : e.conn.written data = data.length) : e'.written = e.written ++ data := by
  obtain ⟨conn, -, rfl⟩ := Option.map_eq_some_iff.1 run
  show e.written ++ data.take (e.conn.written data) = _
  rw [all, List.take_length]

/-- The ports and the checksum of a segment do not matter to a connection. -/
theorem step_content (e : Endpoint) (seg : TCPSegment) :
    e.step (.segmentReceived seg) = e.step (.segmentReceived seg.content) := rfl

theorem step_congr_content (e : Endpoint) {seg seg' : TCPSegment} (same : seg.content = seg'.content) :
    e.step (.segmentReceived seg) = e.step (.segmentReceived seg') := by
  rw [step_content, same, ← step_content]

end Endpoint

/-! ### The rules -/

/-- The segment that the connection is given. -/
def TCPConnection.Op.segment? : Op → Option TCPSegment
  | .segmentReceived seg => some seg
  | _ => none

/-- The time that passes. -/
def TCPConnection.Op.time? : Op → Option Nat
  | .tick ms => some ms
  | _ => none

/-- The segment that the adapter is given. -/
def AdapterOp.segment? {ι : Type} : AdapterOp ι → Option TCPSegment
  | .write seg _ => some seg
  | _ => none

/-- The time that passes. -/
def AdapterOp.time? {ι : Type} : AdapterOp ι → Option Nat
  | .tick ms _ => some ms
  | _ => none

namespace TCPSpongeSocket

open EventLoop (Legit Move Promises move)

variable {α ι : Type}

/-- What the socket has noted agrees with the connection. -/
structure Books (s : TCPSpongeSocket α) : Prop where
  received : s.received = s.tcp.written
  delivered : s.delivered = s.tcp.taken
  pulled : s.pulled ≤ s.tcp.conn.segmentsOut.length
  ended : s.outboundShutdown = s.tcp.ended

/-- The operations that the thread carries out, when the segments that arrive have the content of those of `P`. -/
def Hears (P : TCPSegment → Prop) (e : Endpoint) : Op → Prop
  | .write data => e.ended = false ∧ e.conn.written data = data.length
  | .segmentReceived seg => ∃ sent, P sent ∧ seg.content = sent.content
  | _ => True

/-- The segments that were written to the device. -/
def sent (s : TCPSpongeSocket α) : List TCPSegment := s.tcp.conn.segmentsOut.take s.pulled

/-- Closing the inbound stream is no business of the connection's. -/
theorem closeInbound_cases {s s' : TCPSpongeSocket α} {k : Kernel ι} (run : s.closeInbound k = some s') :
    ∃ fd done, s' = { s with threadData := fd, inboundShutdown := done } := by
  unfold closeInbound at run
  split at run
  · obtain ⟨fd, -, rfl⟩ := Option.map_eq_some_iff.1 run
    exact ⟨fd, true, rfl⟩
  · cases run
    exact ⟨s.threadData, s.inboundShutdown, rfl⟩

variable [FdAdapter α ι]

/-- From `s` to `s'` the thread has carried out `ops` on its connection and `calls` on its adapter. -/
structure Passes (P : TCPSegment → Prop) (s s' : TCPSpongeSocket α) (ops : List Op) (calls : List (AdapterOp ι)) : Prop where
  tcp : Traces Endpoint.step (Hears P) s.tcp ops s'.tcp
  adapter : FdAdapter.run s.datagramAdapter calls = some (s'.datagramAdapter, ops.filterMap Op.segment?)
  time : calls.filterMap AdapterOp.time? = ops.filterMap Op.time?
  sent : s'.sent = s.sent ++ calls.filterMap AdapterOp.segment?

/-- It has done such things, and the books agree. -/
structure Advances (P : TCPSegment → Prop) (s s' : TCPSpongeSocket α) : Prop where
  books : Books s'
  passes : ∃ ops calls, Passes P s s' ops calls

section Callbacks

variable {P : TCPSegment → Prop} {s s' : TCPSpongeSocket α}

theorem Passes.refl (s : TCPSpongeSocket α) : Passes P s s [] [] := ⟨.done _, rfl, rfl, (List.append_nil _).symm⟩

theorem Passes.append {s'' : TCPSpongeSocket α} {ops ops' : List Op} {calls calls' : List (AdapterOp ι)}
    (h : Passes P s s' ops calls) (h' : Passes P s' s'' ops' calls') : Passes P s s'' (ops ++ ops') (calls ++ calls') where
  tcp := h.tcp.append h'.tcp
  adapter := by
    rw [List.filterMap_append]
    exact FdAdapter.run_append h.adapter h'.adapter
  time := by rw [List.filterMap_append, List.filterMap_append, h.time, h'.time]
  sent := by rw [h'.sent, h.sent, List.filterMap_append, List.append_assoc]

theorem Advances.refl (books : Books s) : Advances P s s := ⟨books, [], [], .refl s⟩

theorem Advances.trans {s'' : TCPSpongeSocket α} (h : Advances P s s') (h' : Advances P s' s'') : Advances P s s'' := by
  obtain ⟨ops, calls, passes⟩ := h.passes
  obtain ⟨ops', calls', passes'⟩ := h'.passes
  exact ⟨h'.books, ops ++ ops', calls ++ calls', passes.append passes'⟩

theorem Advances.reaches (h : Advances P s s') : Reaches Endpoint.step (Hears P) s.tcp s'.tcp := by
  obtain ⟨ops, calls, passes⟩ := h.passes
  exact passes.tcp.reaches

/-- What has gone out stays as it is when more is put out. -/
theorem Books.sent_grows (books : Books s) {op : Op} {tcp : Endpoint} (run : s.tcp.step op = some tcp) :
    s.pulled ≤ tcp.conn.segmentsOut.length ∧ tcp.conn.segmentsOut.take s.pulled = s.sent := by
  obtain ⟨new, out⟩ := Endpoint.step_out run
  rw [out, List.length_append]
  exact ⟨Nat.le_add_right_of_le books.pulled, List.take_append_of_le_length books.pulled⟩

/-- An operation that neither writes nor reads. -/
theorem Books.step (books : Books s) {op : Op} {tcp : Endpoint} (run : s.tcp.step op = some tcp)
    (noWrite : ∀ data, op ≠ .write data) (noRead : ∀ len, op ≠ .read len) :
    Books { s with tcp, outboundShutdown := s.outboundShutdown || decide (op = .endInputStream) } := by
  refine ⟨?_, ?_, (books.sent_grows run).1, ?_⟩
  · rw [Endpoint.step_written run noWrite]
    exact books.received
  · rw [Endpoint.step_taken run noRead]
    exact books.delivered
  · rw [Endpoint.step_ended run, ← books.ended]

/-- An operation of the connection alone. -/
theorem Advances.own (op : Op) (books : Books s) (run : s.tcp.step op = some s'.tcp) (allowed : Hears P s.tcp op)
    (silent : op.segment? = none) (timeless : op.time? = none) (adapter : s'.datagramAdapter = s.datagramAdapter)
    (pulled : s'.pulled = s.pulled) (books' : Books s') : Advances P s s' := by
  refine ⟨books', [op], [], .single allowed run, ?_, ?_, ?_⟩
  · rw [adapter, List.filterMap_cons_none silent]
    rfl
  · rw [List.filterMap_cons_none timeless]
    rfl
  · rw [sent, pulled, (books.sent_grows run).2]
    exact (List.append_nil _).symm

/-- What concerns neither the connection nor the adapter. -/
theorem Advances.of_same (books : Books s) (tcp : s'.tcp = s.tcp) (adapter : s'.datagramAdapter = s.datagramAdapter)
    (pulled : s'.pulled = s.pulled) (received : s'.received = s.received) (delivered : s'.delivered = s.delivered)
    (shut : s'.outboundShutdown = s.outboundShutdown) : Advances P s s' := by
  refine ⟨⟨?_, ?_, ?_, ?_⟩, [], [], ?_, ?_, rfl, ?_⟩
  · rw [received, tcp]
    exact books.received
  · rw [delivered, tcp]
    exact books.delivered
  · rw [pulled, tcp]
    exact books.pulled
  · rw [shut, tcp]
    exact books.ended
  · rw [tcp]
    exact .done _
  · rw [adapter]
    rfl
  · rw [sent, tcp, pulled]
    exact (List.append_nil _).symm

/-- What arrives is read, by an adapter in any state, as a segment with the content of one of `P` or not at all. -/
def Brings (α : Type) [FdAdapter α ι] (P : TCPSegment → Prop) (k : Kernel ι) : Prop :=
  ∀ i ∈ k.datagram, ∀ (a a' : α) (seg : TCPSegment), FdAdapter.read a i = some (a', some seg) →
    ∃ sent, P sent ∧ seg.content = sent.content

/-- A segment is read from the device and given to the connection, or there is none. -/
theorem readDatagram_advances (books : Books s) {k : Kernel ι} (brings : Brings α P k) (run : s.readDatagram k = some s') :
    Advances P s s' := by
  obtain ⟨i, arrived, run⟩ := Option.bind_eq_some_iff.1 run
  obtain ⟨⟨a, got⟩, read, run⟩ := Option.bind_eq_some_iff.1 run
  obtain ⟨t, received, rfl⟩ := Option.map_eq_some_iff.1 run
  have called : FdAdapter.run s.datagramAdapter [.read i] = some (a, got.toList) := by
    simp [FdAdapter.run, FdAdapter.perform, read]
  have advanced : Advances P s t := by
    cases got with
    | none =>
      cases received
      exact ⟨⟨books.received, books.delivered, books.pulled, books.ended⟩, [], [.read i], .done _, called, rfl,
        (List.append_nil _).symm⟩
    | some seg =>
      obtain ⟨tcp, stepped, rfl⟩ := Option.map_eq_some_iff.1 received
      have kept := books.step stepped (by simp) (by simp)
      refine ⟨⟨kept.received, kept.delivered, kept.pulled, by simpa using kept.ended⟩, [.segmentReceived seg], [.read i],
        .single (brings i arrived _ _ _ read) stepped, called, rfl, ?_⟩
      exact (books.sent_grows stepped).2.trans (List.append_nil _).symm
  exact advanced.trans (.of_same advanced.books rfl rfl rfl rfl rfl rfl)

theorem endOutbound_advances (books : Books s) (run : s.endOutbound = some s') : Advances P s s' := by
  obtain ⟨tcp, stepped, rfl⟩ := Option.map_eq_some_iff.1 run
  have kept := books.step stepped (by simp) (by simp)
  exact .own .endInputStream books stepped trivial rfl rfl rfl rfl
    ⟨kept.received, kept.delivered, kept.pulled, by simpa using kept.ended⟩

theorem readOutbound_advances (books : Books s) (ready : s.outboundShutdown = false) {k : Kernel ι}
    (run : s.readOutbound k = some s') : Advances P s s' := by
  obtain ⟨⟨fd, data⟩, -, run⟩ := Option.bind_eq_some_iff.1 run
  obtain ⟨tcp, stepped, run⟩ := Option.bind_eq_some_iff.1 run
  dsimp only at stepped run
  split at run
  · cases run
  rename_i all
  rw [not_not] at all
  have inTime : s.tcp.ended = false := books.ended.symm.trans ready
  have written : Advances P s { s with threadData := fd, tcp, received := s.received ++ data } := by
    refine .own (.write data) books stepped ⟨inTime, all⟩ rfl rfl rfl rfl ⟨?_, ?_, (books.sent_grows stepped).1, ?_⟩
    · rw [Endpoint.written_of_write stepped all, books.received]
    · rw [Endpoint.step_taken stepped (by simp)]
      exact books.delivered
    · rw [Endpoint.step_ended stepped, ← books.ended]
      simp
  split at run
  · exact written.trans (endOutbound_advances written.books run)
  · cases run
    exact written

/-- What was written to the owner is what is taken from the connection. -/
theorem writeInbound_advances (books : Books s) {k : Kernel ι} (run : s.writeInbound k = some s') : Advances P s s' := by
  obtain ⟨w, wrote, run⟩ := Option.bind_eq_some_iff.1 run
  obtain ⟨n, -, fits, -, total, out⟩ := FDWrapper.write_once wrote
  obtain ⟨tcp, stepped, run⟩ := Option.bind_eq_some_iff.1 run
  rw [BufferViewList.contents_ofString] at out
  have taken : s.inbound.peekOutput w.total = w.out := by
    have size : (BufferViewList.ofString (s.inbound.peekOutput (min 65536 s.inbound.bufferSize))).size =
        (s.inbound.peekOutput (min 65536 s.inbound.bufferSize)).length := by
      rw [← BufferViewList.length_contents, BufferViewList.contents_ofString]
    rw [size, ByteStream.peekOutput_eq, List.length_take] at fits
    rw [out, total, ByteStream.peekOutput_eq, ByteStream.peekOutput_eq, List.take_take]
    congr 1
    omega
  have read : Advances P s { s with threadData := w.fd, tcp, delivered := s.delivered ++ w.out } := by
    refine .own (.read w.total) books stepped trivial rfl rfl rfl rfl ?_
    rw [Endpoint.step_read] at stepped
    cases stepped
    refine ⟨books.received, ?_, books.pulled, books.ended⟩
    show s.delivered ++ w.out = s.tcp.taken ++ s.inbound.peekOutput w.total
    rw [taken, books.delivered]
  obtain ⟨fd, done, rfl⟩ := closeInbound_cases run
  exact read.trans (.of_same read.books rfl rfl rfl rfl rfl rfl)

/-- The writes of the fourth rule. -/
def writes (sends : Nat → Sends) (segs : List TCPSegment) : List (AdapterOp ι) := segs.mapIdx fun j seg => .write seg (sends j)

theorem writeSegments_run {sends : Nat → Sends} {j : Nat} {segs : List TCPSegment} {a a' : α}
    (run : writeSegments sends j segs a = some a') : FdAdapter.run a (writes (fun n => sends (j + n)) segs) = some (a', []) := by
  induction segs generalizing j a with
  | nil =>
    cases run
    rfl
  | cons seg rest ih =>
    obtain ⟨mid, wrote, more⟩ := Option.bind_eq_some_iff.1 run
    have after := ih more
    rw [writes] at after ⊢
    simp only [Nat.add_right_comm j 1, Nat.add_assoc] at after
    simp [FdAdapter.run, FdAdapter.perform, wrote, List.mapIdx_cons, after]

theorem writes_segments (sends : Nat → Sends) (segs : List TCPSegment) :
    (writes (ι := ι) sends segs).filterMap AdapterOp.segment? = segs := by
  induction segs generalizing sends with
  | nil => rfl
  | cons seg rest ih =>
    rw [writes, List.mapIdx_cons]
    exact congrArg (seg :: ·) (ih fun n => sends (n + 1))

theorem writeDatagrams_advances (books : Books s) {k : Kernel ι} (run : s.writeDatagrams k = some s') : Advances P s s' := by
  obtain ⟨a, wrote, rfl⟩ := Option.map_eq_some_iff.1 run
  have written := writeSegments_run wrote
  simp only [Nat.zero_add] at written
  have timeless : (writes (ι := ι) k.sends s.segmentsOut).filterMap AdapterOp.time? = [] := by
    refine List.filterMap_eq_nil_iff.2 fun op member => ?_
    obtain ⟨j, inside, rfl⟩ := List.mem_mapIdx.1 member
    rfl
  refine ⟨⟨books.received, books.delivered, Nat.le_refl _, books.ended⟩, [], writes k.sends s.segmentsOut, .done _,
    written, timeless, ?_⟩
  rw [writes_segments]
  show s.tcp.conn.segmentsOut.take s.tcp.conn.segmentsOut.length = _
  rw [List.take_length]
  exact (List.take_append_drop _ _).symm

/-- The owner's bytes are read only as long as the stream has not ended. -/
def Ready : Tag → TCPSpongeSocket α → Prop
  | .ownerIn, s => s.outboundShutdown = false
  | _, _ => True

/-- **One call** of a callback or a cancellation. -/
theorem move_advances (books : Books s) {m : Move Tag (Kernel ι)} (legit : Legit Ready (Brings α P) s m)
    (run : move rule s m = some s') : Advances P s s' := by
  cases m with
  | callback t k =>
    obtain ⟨ready, brings⟩ := legit t k rfl
    cases t with
    | datagramIn => exact readDatagram_advances books brings run
    | ownerIn => exact readOutbound_advances books ready run
    | ownerOut => exact writeInbound_advances books run
    | datagramOut => exact writeDatagrams_advances books run
  | cancel t =>
    cases t with
    | ownerIn => exact endOutbound_advances books run
    | _ =>
      cases run
      exact .refl books

/-- Only the second rule ends the outbound stream. -/
theorem move_outboundShutdown {m : Move Tag (Kernel ι)} (other : m.tag ≠ .ownerIn) (run : move rule s m = some s') :
    s'.outboundShutdown = s.outboundShutdown := by
  cases m with
  | callback t k =>
    cases t with
    | datagramIn =>
      obtain ⟨i, -, run⟩ := Option.bind_eq_some_iff.1 run
      obtain ⟨⟨a, got⟩, -, run⟩ := Option.bind_eq_some_iff.1 run
      obtain ⟨t, received, rfl⟩ := Option.map_eq_some_iff.1 run
      cases got with
      | none =>
        cases received
        rfl
      | some seg =>
        obtain ⟨tcp, -, rfl⟩ := Option.map_eq_some_iff.1 received
        rfl
    | ownerIn => exact absurd rfl other
    | ownerOut =>
      obtain ⟨w, -, run⟩ := Option.bind_eq_some_iff.1 run
      obtain ⟨tcp, -, run⟩ := Option.bind_eq_some_iff.1 run
      obtain ⟨fd, done, rfl⟩ := closeInbound_cases run
      rfl
    | datagramOut =>
      obtain ⟨a, -, rfl⟩ := Option.map_eq_some_iff.1 run
      rfl
  | cancel t =>
    cases t with
    | ownerIn => exact absurd rfl other
    | _ =>
      cases run
      rfl

theorem promises : Promises (rule (α := α)) (fun _ => True) Ready (Brings α P) where
  asked t s _ polled := by
    cases t with
    | ownerIn =>
      simp only [EventLoop.Rule.polled, rule, Bool.and_eq_true, Bool.not_eq_true'] at polled
      exact polled.2.1.2
    | _ => trivial
  dropped _ _ _ _ _ := trivial
  keeps t s m s' other _ run ready := by
    cases t with
    | ownerIn => exact (move_outboundShutdown other run).trans ready
    | _ => trivial

/-- Any run of such calls. -/
theorem moves_advance (books : Books s) (reached : Reaches (move rule) (Legit Ready (Brings α P)) s s') :
    Advances P s s' := by
  refine reached.invariant ?_ fun t m t' (h : Advances P s t) legit run => h.trans (move_advances h.books legit run)
  exact .refl books

theorem tick_advances (books : Books s) {ms : Nat} {sends : Sends} (run : s.tick ms sends = some s') : Advances P s s' := by
  obtain ⟨tcp, stepped, run⟩ := Option.bind_eq_some_iff.1 run
  obtain ⟨a, ticked, rfl⟩ := Option.map_eq_some_iff.1 run
  have kept := books.step stepped (by simp) (by simp)
  refine ⟨⟨kept.received, kept.delivered, kept.pulled, by simpa using kept.ended⟩, [.tick ms], [.tick ms sends],
    .single trivial stepped, ?_, rfl, (books.sent_grows stepped).2.trans (List.append_nil _).symm⟩
  simp [FdAdapter.run, FdAdapter.perform, ticked, Op.segment?]

end Callbacks

end TCPSpongeSocket

/-! ### The thread -/

/-- A round in which `poll` finds something for the rule at one place. -/
def Round.only {ι : Type} (place : Nat) (revents : EventLoop.Revents) (input : Kernel ι) (now : Nat) : Round ι where
  poll := .ready fun idx => if idx = place then some ⟨revents, input⟩ else none
  now := now

namespace TCPThread

open TCPSpongeSocket (Advances Books Brings Hears Ready)
open EventLoop (Poll waitNextEvent)

variable {α ι : Type} [FdAdapter α ι] {P : TCPSegment → Prop} {t t' : TCPThread α}

/-- Whatever `poll` answers, what arrives is of `P`. -/
def Honours (α : Type) [FdAdapter α ι] (P : TCPSegment → Prop) (r : Round ι) : Prop :=
  ∀ idx answer, r.poll.answers idx = some answer → Brings α P answer.input

theorem honours_anything (r : Round ι) : Honours α (fun _ => True) r :=
  fun _ _ _ _ _ _ _ seg _ => ⟨seg, trivial, rfl⟩

theorem leave_socket (t : TCPThread α) (now : Nat) : (t.leave now).socket = t.socket ∧ (t.leave now).rules = t.rules := by
  unfold leave
  split <;> exact ⟨rfl, rfl⟩

/-- What an iteration of the loop can be. -/
theorem step_cases {r : Round ι} (run : t.step r = some t') :
    t.phase ≠ .finished ∧
      ((t.goesOn = false ∧ t' = t.leave r.now) ∨
        ∃ out, waitNextEvent TCPSpongeSocket.rule t.rules t.socket r.poll = some out ∧
          ((out.result = .exit ∨ r.abort = true) ∧ t' = { t with socket := out.state, rules := out.rules }.leave r.now ∨
            out.result ≠ .exit ∧ r.abort = false ∧
              { t with socket := out.state, rules := out.rules }.passTime r.now r.sends = some t')) := by
  unfold step at run
  split at run
  · cases run
  rename_i going
  refine ⟨going, ?_⟩
  split at run
  · obtain ⟨out, waited, run⟩ := Option.bind_eq_some_iff.1 run
    dsimp only at run
    split at run
    · rename_i leaves
      cases run
      exact Or.inr ⟨out, waited, Or.inl ⟨leaves, rfl⟩⟩
    · rename_i more
      rw [not_or, Bool.not_eq_true] at more
      exact Or.inr ⟨out, waited, Or.inr ⟨more.1, more.2, run⟩⟩
  · rename_i leaves
    cases run
    exact Or.inl ⟨by simpa using leaves, rfl⟩

theorem passTime_advances (books : Books t.socket) {now : Nat} {sends : Sends} (run : t.passTime now sends = some t') :
    Advances P t.socket t'.socket ∧ t'.rules = t.rules := by
  unfold passTime at run
  split at run
  · obtain ⟨socket, ticked, rfl⟩ := Option.map_eq_some_iff.1 run
    exact ⟨TCPSpongeSocket.tick_advances books ticked, rfl⟩
  · cases run
    exact ⟨.refl books, rfl⟩

/-- **One iteration of `_tcp_loop`**. -/
theorem step_advances (books : Books t.socket) (distinct : t.rules.Nodup) {r : Round ι} (honours : Honours α P r)
    (run : t.step r = some t') : Advances P t.socket t'.socket ∧ t'.rules.Sublist t.rules := by
  obtain ⟨-, ⟨-, rfl⟩ | ⟨out, waited, ends⟩⟩ := step_cases run
  · obtain ⟨socket, rules⟩ := t.leave_socket r.now
    rw [socket, rules]
    exact ⟨.refl books, .refl _⟩
  have advanced := TCPSpongeSocket.moves_advance books
    (EventLoop.wait_reaches TCPSpongeSocket.promises distinct honours trivial waited)
  have kept := (EventLoop.wait_lives distinct waited).1
  rcases ends with ⟨-, rfl⟩ | ⟨-, -, passed⟩
  · obtain ⟨socket, rules⟩ := leave_socket { t with socket := out.state, rules := out.rules } r.now
    rw [socket, rules]
    exact ⟨advanced, kept⟩
  · obtain ⟨ticked, same⟩ := passTime_advances (t := { t with socket := out.state, rules := out.rules }) advanced.books passed
    rw [same]
    exact ⟨advanced.trans ticked, kept⟩

/-- A thread that `connect` or `listen_and_accept` has set up. -/
def Started (adapter : α) (cfg : TCPConfig) (t : TCPThread α) : Prop :=
  ∃ settings now, connect adapter cfg settings now = some t ∨ t = listenAndAccept adapter cfg settings now

variable {adapter : α} {cfg : TCPConfig} {first : TCPThread α}

/-- What was done before the loop: nothing, or the call of `connect` on the connection. -/
theorem Started.spec (started : Started adapter cfg first) :
    (first.socket.tcp = .new cfg ∨ (Endpoint.new cfg).step .connect = some first.socket.tcp) ∧ Books first.socket ∧
      first.socket.pulled = 0 ∧ first.rules = TCPSpongeSocket.rules ∧ first.unclean = false := by
  obtain ⟨settings, now, connected | rfl⟩ := started
  · obtain ⟨tcp, stepped, run⟩ := Option.bind_eq_some_iff.1 connected
    split at run
    · cases run
    · cases run
      refine ⟨Or.inr stepped, ⟨?_, ?_, Nat.zero_le _, ?_⟩, rfl, rfl, rfl⟩
      · exact (Endpoint.step_written stepped (by simp)).symm
      · exact (Endpoint.step_taken stepped (by simp)).symm
      · exact ((Endpoint.step_ended stepped).trans rfl).symm
  · exact ⟨Or.inl rfl, ⟨rfl, rfl, Nat.zero_le _, rfl⟩, rfl, rfl, rfl⟩

/-- The operations from the start of the connection. -/
theorem Started.traces (started : Started adapter cfg first) :
    ∃ ops, Traces Endpoint.step (Hears P) (.new cfg) ops first.socket.tcp ∧ ops.filterMap TCPConnection.Op.segment? = [] ∧
      ops.filterMap TCPConnection.Op.time? = [] := by
  rcases started.spec.1 with same | stepped
  · rw [same]
    exact ⟨[], .done _, rfl, rfl⟩
  · exact ⟨[.connect], .single trivial stepped, rfl, rfl⟩

/-- How a thread stands in a round. -/
structure Stands (P : TCPSegment → Prop) (first t : TCPThread α) : Prop where
  advances : Advances P first.socket t.socket
  rules : t.rules.Sublist TCPSpongeSocket.rules

theorem Started.stands (started : Started adapter cfg first) : Stands P first first := by
  obtain ⟨-, books, -, rules, -⟩ := started.spec
  exact ⟨.refl books, by rw [rules]⟩

theorem Stands.distinct (h : Stands P first t) : t.rules.Nodup :=
  (show TCPSpongeSocket.rules.Nodup by decide).sublist h.rules

theorem Stands.step (h : Stands P first t) {r : Round ι} (honours : Honours α P r) (run : t.step r = some t') :
    Stands P first t' := by
  obtain ⟨advances, kept⟩ := step_advances h.advances.books h.distinct honours run
  exact ⟨h.advances.trans advances, kept.trans h.rules⟩

theorem stands_of_reaches (started : Started adapter cfg first)
    (reached : Reaches TCPThread.step (fun _ r => Honours α P r) first t) : Stands P first t := by
  refine reached.invariant ?_ fun t r t' (h : Stands P first t) honours run => h.step honours run
  exact started.stands

theorem Stands.reaches (h : Stands P first t) (started : Started adapter cfg first) :
    Reaches Endpoint.step (Hears P) (.new cfg) t.socket.tcp := by
  obtain ⟨ops, traces, -⟩ := started.traces (P := P)
  exact traces.reaches.trans h.advances.reaches

/-- **The socket refines the connection.** Whatever `poll` finds and the system calls return, what the thread has done is a
list of operations on its connection and a list of calls on its adapter. Nothing was written to the connection after the
end of its stream, and everything written was accepted; the bytes read from the owner are the ones written, the bytes
written to the owner the ones taken, and the flag of the outbound shutdown says that the stream has ended (`Books`). The
connection was given the segments that the adapter returned, each once and in their order; the adapter was given the
first of those that the connection has put out, each once and in their order; and both were told of the same time. -/
theorem socket_refines (P : TCPSegment → Prop) (started : Started adapter cfg first)
    (reached : Reaches step (fun _ r => Honours α P r) first t) :
    Books t.socket ∧ ∃ ops calls, Traces Endpoint.step (Hears P) (.new cfg) ops t.socket.tcp ∧
      FdAdapter.run first.socket.datagramAdapter calls =
        some (t.socket.datagramAdapter, ops.filterMap TCPConnection.Op.segment?) ∧
      calls.filterMap AdapterOp.segment? = t.socket.tcp.conn.segmentsOut.take t.socket.pulled ∧
      calls.filterMap AdapterOp.time? = ops.filterMap TCPConnection.Op.time? := by
  obtain ⟨books, ops, calls, passes⟩ := (stands_of_reaches started reached).advances
  obtain ⟨before, traces, noSegment, noTime⟩ := started.traces (P := P)
  obtain ⟨-, -, pulled, -⟩ := started.spec
  refine ⟨books, before ++ ops, calls, traces.append passes.tcp, ?_, ?_, ?_⟩
  · rw [List.filterMap_append, noSegment, List.nil_append]
    exact passes.adapter
  · have sent := passes.sent
    rw [TCPSpongeSocket.sent, TCPSpongeSocket.sent, pulled, List.take_zero, List.nil_append] at sent
    exact sent.symm
  · rw [List.filterMap_append, noTime, List.nil_append]
    exact passes.time

/-- The usual capacities, and a first number. -/
def configured (isn : Nat) : TCPConfig := { isn := .ofNat isn }

/-- 127.0.0.1:50000 and 127.0.0.1:1440. -/
def caller : Address := ⟨0x7f000001, 50000⟩

def callee : Address := ⟨0x7f000001, 1440⟩

/-- The socket that calls, over UDP. -/
def dialled : Option (TCPThread TCPOverUDPSocketAdapter) :=
  connect {} (configured 7) { source := caller, destination := callee } 0

theorem Started.of_dialled {first : TCPThread TCPOverUDPSocketAdapter} (run : dialled = some first) :
    Started ({} : TCPOverUDPSocketAdapter) (configured 7) first :=
  ⟨{ source := caller, destination := callee }, 0, Or.inl run⟩

/-- The SYN is sent, the owner writes three bytes, and the owner closes its end. -/
def dialRounds : List (Round (Option ReceivedDatagram)) := [
  .only 3 { pollout := true } {} 1,
  .only 1 { pollin := true } { read := fun _ => some [1, 2, 3] } 2,
  .only 1 { pollin := true } { read := fun _ => some [] } 3]

theorem socket_refines_dialled :
    ∃ first t, dialled = some first ∧ follow step (fun _ _ => True) first dialRounds = some t ∧
      t.socket.tcp.written = [1, 2, 3] ∧ t.socket.tcp.ended = true ∧
      ∃ calls : List (AdapterOp (Option ReceivedDatagram)),
        (FdAdapter.run first.socket.datagramAdapter calls).map Prod.fst = some t.socket.datagramAdapter ∧
        (calls.filterMap AdapterOp.segment?).length = 1 := by
  obtain ⟨⟨first, t⟩, run, seen⟩ := Option.map_eq_some_iff.1
    (show (dialled.bind fun first => (follow step (fun _ _ => True) first dialRounds).map fun t => (first, t)).map
      (fun p => (p.2.socket.outboundShutdown, p.2.socket.received, p.2.socket.sent.length)) =
        some (true, [1, 2, 3], 1) by decide +kernel)
  obtain ⟨first', started, run⟩ := Option.bind_eq_some_iff.1 run
  obtain ⟨t', ran, same⟩ := Option.map_eq_some_iff.1 run
  cases same
  obtain ⟨shut, bytes, one⟩ : t.socket.outboundShutdown = true ∧ t.socket.received = [1, 2, 3] ∧ t.socket.sent.length = 1 := by
    simpa using seen
  have reached : Reaches step (fun _ r => Honours TCPOverUDPSocketAdapter (fun _ => True) r) first t :=
    (Reaches.start.follow ran).mono fun _ r _ => honours_anything r
  obtain ⟨books, ops, calls, -, adapter, segments, -⟩ := socket_refines (fun _ => True) (.of_dialled started) reached
  refine ⟨first, t, started, ran, books.received.symm.trans bytes, books.ended.symm.trans shut, calls, ?_, ?_⟩
  · rw [adapter]
    rfl
  · rw [segments]
    exact one

end TCPThread

end Sponge
