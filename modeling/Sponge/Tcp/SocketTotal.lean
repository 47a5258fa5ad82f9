import Sponge.Net.AdapterTotal
import Sponge.Tcp.ConnectionTotal
import Sponge.Tcp.SocketEnding

/-!
# The socket's thread does not throw

If every system call succeeds, no round of the thread throws, whatever arrives:
`TCPConnection::write` accepts what it has advertised, no callback leaves its
descriptor untouched and asks for it again, and neither the connection nor the
adapter throws on any bytes. There is one exception: after a reset the owner's
socket is shut down for writing, and if bytes are left that the owner has not
taken, the third rule goes on to write them (`Broken`). From then on the owner
gets nothing more, and the round in which `poll` reports that its socket can be
written to throws.
-/

namespace Sponge

open TCPConnection (Op)

/-! ### What is kept of the inbound stream -/

namespace TCPReceiver

/-- The owner is to be told that there is no more. -/
def Told (r : TCPReceiver) : Prop := r.streamOut.error = true ∨ r.streamOut.eof = true

variable {r r' : TCPReceiver}

/-- Nothing is added to a stream that has ended. -/
theorem Flagged.streamOut_ended (h : r.Flagged) (ended : r.streamOut.inputEnded = true) {seg : TCPSegment}
    (run : r.segmentReceived? seg = some r') : r'.streamOut = r.streamOut := by
  unfold segmentReceived? at run
  split at run
  · cases run
    rfl
  · obtain ⟨re, pushed, rfl⟩ := Option.map_eq_some_iff.1 run
    have same : re = r.reassembler := by
      rw [StreamReassembler.pushSubstring?, ← h.ended, ended] at pushed
      exact (Option.some.inj pushed).symm
    rw [streamOut, afterPush_reassembler r seg.header (h.pushed pushed).2.2.2, same]
    rfl

theorem Told.took (h : r.Flagged) (told : r.Told) {seg : TCPSegment} (run : r.segmentReceived? seg = some r') : r'.Told := by
  rcases told with error | eof
  · exact Or.inl ((h.took run).error.trans error)
  · refine Or.inr ?_
    rw [h.streamOut_ended (Bool.and_eq_true_iff.1 eof).1 run]
    exact eof

theorem noteFin_pending (r : TCPReceiver) (hder : TCPHeader) : (r.noteFin hder).streamOut.pending = r.streamOut.pending := by
  unfold noteFin
  cases hder.fin <;> simp only [Bool.false_eq_true, if_true, if_false] <;> split <;> rfl

theorem flush_pending (r : StreamReassembler) (c : Cursor) (bytes : Nat) :
    ∃ new, (r.flush c bytes).output.pending = r.output.pending ++ new := by
  unfold StreamReassembler.flush
  split
  · exact ⟨_, ByteStream.pending_write _ _⟩
  · exact ⟨[], (List.append_nil _).symm⟩

/-- The bytes before the reader are added to. -/
theorem pushSubstring?_pending {r r' : StreamReassembler} {data : List UInt8} {index : Nat} {eof : Bool}
    (run : r.pushSubstring? data index eof = some r') : ∃ new, r'.output.pending = r.output.pending ++ new := by
  unfold StreamReassembler.pushSubstring? at run
  split at run
  · cases run
    exact ⟨[], (List.append_nil _).symm⟩
  · obtain ⟨mid, accepted, rfl⟩ := Option.map_eq_some_iff.1 run
    rw [StreamReassembler.endIfComplete_pending, ← StreamReassembler.noteEof_output r data index eof]
    unfold StreamReassembler.accept at accepted
    split at accepted
    · cases accepted
      exact ⟨[], (List.append_nil _).symm⟩
    · obtain ⟨⟨c, bytes⟩, -, rfl⟩ := Option.map_eq_some_iff.1 accepted
      exact flush_pending _ c bytes

/-- A segment takes nothing from the reader, and no error back. -/
theorem segmentReceived?_kept {seg : TCPSegment} (run : r.segmentReceived? seg = some r') :
    r'.streamOut.error = r.streamOut.error ∧ ∃ new, r'.streamOut.pending = r.streamOut.pending ++ new := by
  unfold segmentReceived? at run
  split at run
  · cases run
    exact ⟨rfl, [], (List.append_nil _).symm⟩
  · obtain ⟨re, pushed, rfl⟩ := Option.map_eq_some_iff.1 run
    have reassembler := (noted_fields r seg.header re).1
    obtain ⟨new, added⟩ := pushSubstring?_pending pushed
    refine ⟨?_, new, ?_⟩
    · rw [afterPush, noteFin_error, streamOut, reassembler]
      exact StreamReassembler.pushSubstring?_error pushed
    · rw [afterPush, noteFin_pending, streamOut, reassembler]
      exact added

end TCPReceiver

namespace Endpoint

variable {e e' : Endpoint} {op : Op}

/-- What an operation does to the receiver: nothing, a segment, or a read; and then perhaps the error is set. -/
theorem step_receiver (run : e.step op = some e') :
    (∃ r, (e'.conn.receiver = r ∨ e'.conn.receiver = r.setError) ∧
      (r = e.conn.receiver ∨ ∃ seg, op = .segmentReceived seg ∧ e.conn.receiver.segmentReceived? seg = some r)) ∨
      ∃ len, op = .read len ∧ e'.conn.receiver = e.conn.receiver.popOutput len := by
  rcases step_cases run with ⟨p, prepared, rfl⟩ | ⟨len, rfl, rfl⟩
  · obtain ⟨found, finds, ready⟩ := prepare?_readies prepared
    refine Or.inl ⟨found.receiver, ?_, ?_⟩
    · rw [← ready.receiver]
      exact (judged p.conn).receiver
    · cases finds with
      | same => exact Or.inl rfl
      | reset => exact Or.inl rfl
      | received _ taken => exact Or.inr ⟨_, rfl, taken⟩
  · exact Or.inr ⟨len, rfl, rfl⟩

/-- An operation that neither receives nor reads leaves the bytes that the reader has before it. -/
theorem step_pending (run : e.step op = some e') (noSegment : ∀ seg, op ≠ .segmentReceived seg)
    (noRead : ∀ len, op ≠ .read len) : e'.conn.inboundStream.pending = e.conn.inboundStream.pending := by
  rcases step_receiver run with ⟨r, after, rfl | ⟨seg, is, -⟩⟩ | ⟨len, is, -⟩
  · show e'.conn.receiver.streamOut.pending = _
    rcases after with same | error
    · rw [same]
      rfl
    · rw [error]
      rfl
  · exact absurd is (noSegment seg)
  · exact absurd is (noRead len)

/-- Without a read an error stays, and so do the bytes before the reader. -/
theorem step_failed (run : e.step op = some e') (noRead : ∀ len, op ≠ .read len) (error : e.conn.inboundStream.error = true)
    (left : e.conn.inboundStream.bufferEmpty = false) :
    e'.conn.inboundStream.error = true ∧ e'.conn.inboundStream.bufferEmpty = false := by
  rw [Bool.eq_false_iff, ne_eq, ByteStream.bufferEmpty_iff] at left ⊢
  rcases step_receiver run with ⟨r, after, before⟩ | ⟨len, is, -⟩
  · have kept : r.streamOut.error = true ∧ r.streamOut.pending ≠ [] := by
      rcases before with rfl | ⟨seg, -, received⟩
      · exact ⟨error, left⟩
      · obtain ⟨same, new, added⟩ := TCPReceiver.segmentReceived?_kept received
        refine ⟨same.trans error, ?_⟩
        rw [added]
        exact List.append_ne_nil_of_left_ne_nil left new
    show e'.conn.receiver.streamOut.error = true ∧ ¬e'.conn.receiver.streamOut.pending = []
    rcases after with same | failed
    · rw [same]
      exact kept
    · rw [failed]
      exact ⟨rfl, kept.2⟩
  · exact absurd is (noRead len)

/-- The end of the inbound stream, or its error, is for good. -/
theorem told_step (flagged : e.conn.receiver.Flagged) (told : e.conn.receiver.Told) (run : e.step op = some e') :
    e'.conn.receiver.Told := by
  rcases step_receiver run with ⟨r, after, before⟩ | ⟨len, -, read⟩
  · have told : r.Told := by
      rcases before with rfl | ⟨seg, -, received⟩
      · exact told
      · exact told.took flagged received
    rcases after with same | error
    · rw [same]
      exact told
    · rw [error]
      exact Or.inl rfl
  · rw [read]
    rcases told with error | eof
    · exact Or.inl error
    · obtain ⟨ended, empty⟩ := Bool.and_eq_true_iff.1 eof
      refine Or.inr (Bool.and_eq_true_iff.2 ⟨ended, (ByteStream.bufferEmpty_iff _).2 ?_⟩)
      show (e.conn.receiver.streamOut.popOutput len).pending = []
      rw [ByteStream.pending_popOutput, (ByteStream.bufferEmpty_iff _).1 empty, List.drop_nil]

end Endpoint

/-- More may have arrived. -/
theorem TCPReceiver.Takes.grows {capacity n m : Nat} {r : TCPReceiver} (h : Takes capacity n r) (more : n ≤ m)
    (room : m < 2 ^ 62) : Takes capacity m r :=
  ⟨⟨h.kept.rep, h.kept.capacity, Nat.le_trans h.kept.held more, room⟩, h.state⟩

/-- An operation that brings nothing. -/
theorem TCPReceiver.Takes.step {capacity n : Nat} {e e' : Endpoint} (h : Takes capacity n e.conn.receiver)
    (small : capacity < 2 ^ 62) {op : Op} (run : e.step op = some e') (nothing : Endpoint.arrives op = 0) :
    Takes capacity n e'.conn.receiver := by
  obtain ⟨after, run', takes⟩ := Endpoint.step_total h small op (by rw [nothing]; exact h.kept.pushed)
  rw [run] at run'
  cases run'
  rw [nothing] at takes
  exact takes

/-! ### What a call does to the connection -/

namespace TCPSpongeSocket

open EventLoop (Move move)

variable {α ι : Type} {s s' : TCPSpongeSocket α} {k : Kernel ι}

/-- The operations that the functions of a rule perform. -/
def Tag.Makes : Tag → Op → Prop
  | .datagramIn, .segmentReceived _ => True
  | .ownerIn, .write _ => True
  | .ownerIn, .endInputStream => True
  | .ownerOut, .read _ => True
  | _, _ => False

/-- **What a call does**: some operations of its rule. Only the third rule touches what the owner is given. -/
structure Makes (t : Tag) (s s' : TCPSpongeSocket α) : Prop where
  ops : Reaches Endpoint.step (fun _ op => t.Makes op) s.tcp s'.tcp
  owner : t ≠ .ownerOut → s'.inboundShutdown = s.inboundShutdown ∧ s'.delivered = s.delivered

theorem makes_endOutbound (run : s.endOutbound = some s') : Makes .ownerIn s s' := by
  obtain ⟨tcp, stepped, rfl⟩ := Option.map_eq_some_iff.1 run
  exact ⟨.single (a := .endInputStream) trivial stepped, fun _ => ⟨rfl, rfl⟩⟩

theorem makes_readOutbound (run : s.readOutbound k = some s') : Makes .ownerIn s s' := by
  obtain ⟨⟨fd, data⟩, -, run⟩ := Option.bind_eq_some_iff.1 run
  obtain ⟨tcp, stepped, run⟩ := Option.bind_eq_some_iff.1 run
  dsimp only at run
  split at run
  · cases run
  split at run
  · have ended := makes_endOutbound run
    exact ⟨(Reaches.single (a := .write data) trivial stepped).trans ended.ops, fun other => ended.owner other⟩
  · cases run
    exact ⟨.single (a := .write data) trivial stepped, fun _ => ⟨rfl, rfl⟩⟩

/-- The owner's socket was shut down after an error, with bytes left that are still to be written to it. -/
def Broken (s : TCPSpongeSocket α) : Prop :=
  s.inbound.error = true ∧ s.inboundShutdown = true ∧ s.inbound.bufferEmpty = false

instance (s : TCPSpongeSocket α) : Decidable s.Broken := inferInstanceAs (Decidable (_ ∧ _ ∧ _))

/-- The third rule's callback throws. -/
theorem Broken.writeInbound (broken : s.Broken) (k : Kernel ι) : s.writeInbound k = none := by
  rw [TCPSpongeSocket.writeInbound, if_pos broken.2.1]
  rfl

variable [FdAdapter α ι]

theorem makes_readDatagram (run : s.readDatagram k = some s') : Makes .datagramIn s s' := by
  obtain ⟨i, -, run⟩ := Option.bind_eq_some_iff.1 run
  obtain ⟨⟨a, got⟩, -, run⟩ := Option.bind_eq_some_iff.1 run
  obtain ⟨t, received, rfl⟩ := Option.map_eq_some_iff.1 run
  cases got with
  | none =>
    cases received
    exact ⟨.start, fun _ => ⟨rfl, rfl⟩⟩
  | some seg =>
    obtain ⟨tcp, stepped, rfl⟩ := Option.map_eq_some_iff.1 received
    exact ⟨.single (a := .segmentReceived seg) trivial stepped, fun _ => ⟨rfl, rfl⟩⟩

theorem makes_move {m : Move Tag (Kernel ι)} (run : move rule s m = some s') : Makes m.tag s s' := by
  cases m with
  | callback t k =>
    cases t with
    | datagramIn => exact makes_readDatagram run
    | ownerIn => exact makes_readOutbound run
    | ownerOut =>
      obtain ⟨w, -, run⟩ := Option.bind_eq_some_iff.1 run
      obtain ⟨tcp, stepped, run⟩ := Option.bind_eq_some_iff.1 run
      obtain ⟨fd, done, rfl⟩ := closeInbound_cases run
      exact ⟨.single (a := .read w.total) trivial stepped, fun other => absurd rfl other⟩
    | datagramOut =>
      obtain ⟨a, -, rfl⟩ := Option.map_eq_some_iff.1 run
      exact ⟨.start, fun _ => ⟨rfl, rfl⟩⟩
  | cancel t =>
    cases t with
    | ownerIn => exact makes_endOutbound run
    | _ =>
      cases run
      exact ⟨.start, fun _ => ⟨rfl, rfl⟩⟩

/-- No call mends it. -/
theorem Broken.move (broken : s.Broken) {m : Move Tag (Kernel ι)} (run : move rule s m = some s') :
    s'.Broken ∧ s'.delivered = s.delivered := by
  have made := makes_move run
  by_cases third : m.tag = .ownerOut
  · cases m with
    | callback t k =>
      subst third
      rw [show EventLoop.move rule s (.callback .ownerOut k) = s.writeInbound k from rfl, broken.writeInbound] at run
      cases run
    | cancel t =>
      subst third
      cases run
      exact ⟨broken, rfl⟩
  · obtain ⟨shut, delivered⟩ := made.owner third
    have kept : s'.inbound.error = true ∧ s'.inbound.bufferEmpty = false := by
      have start : s.tcp.conn.inboundStream.error = true ∧ s.tcp.conn.inboundStream.bufferEmpty = false :=
        ⟨broken.1, broken.2.2⟩
      refine made.ops.invariant start fun e op e'
        (inv : e.conn.inboundStream.error = true ∧ e.conn.inboundStream.bufferEmpty = false) makes run => ?_
      refine Endpoint.step_failed run ?_ inv.1 inv.2
      rintro len rfl
      revert makes third
      cases m.tag with
      | ownerOut => exact fun third _ => third rfl
      | _ => exact fun _ makes => makes
    exact ⟨⟨kept.1, shut.trans broken.2.1, kept.2⟩, delivered⟩

/-- The third rule keeps asking, and its callback throws. -/
theorem doomed : EventLoop.Doomed (rule (α := α) (ι := ι)) Broken .ownerOut where
  keeps _ _ _ broken run := (broken.move run).1
  asks _ broken := Bool.or_eq_true_iff.2 (Or.inl (Bool.not_eq_true' _ ▸ broken.2.2))
  throws _ k broken := broken.writeInbound k

end TCPSpongeSocket

/-! ### The callbacks -/

/-- The system calls succeed and keep to their contracts: `read` returns at most as many bytes as it is asked for, `writev`
takes at least one, if there is one, and at most as many as it is given, and the adapter's datagrams are taken whole. -/
structure Kernel.Works (α : Type) {ι : Type} [FdAdapter α ι] [Reliable α ι] (k : Kernel ι) : Prop where
  datagram : ∃ i, k.datagram = some i ∧ Reliable.Succeeds α i
  read : ∀ size, ∃ data, k.read size = some data ∧ data.length ≤ size
  write : ∀ size, ∃ n, k.write size = some n ∧ n ≤ size ∧ (size ≠ 0 → n ≠ 0)
  shutdown : k.shutdown = true
  sends : ∀ j, (k.sends j).Whole

namespace TCPSpongeSocket

open EventLoop (Promises Sound)
open TCPReceiver (Takes Told)

variable {α ι : Type} [FdAdapter α ι] [Reliable α ι] {capacity arrived : Nat} {s s' : TCPSpongeSocket α} {k : Kernel ι}

/-- Nothing in the socket can make a callback throw: the connection and the adapter are sound, every segment can be
written, and the owner's socket is shut down for writing only when there is no more to come. -/
structure Fine (capacity arrived : Nat) (s : TCPSpongeSocket α) : Prop where
  takes : Takes capacity arrived s.tcp.conn.receiver
  emits : TCPConnection.Emits TCPSegment.Fits s.tcp.conn
  sane : Reliable.Sane s.datagramAdapter
  told : s.inboundShutdown = true → s.tcp.conn.receiver.Told

/-- An operation of the connection. -/
theorem Fine.step (h : Fine capacity arrived s) (small : capacity < 2 ^ 62) (op : Op)
    (room : arrived + Endpoint.arrives op < 2 ^ 62) :
    ∃ tcp, s.tcp.step op = some tcp ∧ Fine capacity (arrived + Endpoint.arrives op) { s with tcp } := by
  obtain ⟨tcp, run, takes⟩ := Endpoint.step_total h.takes small op room
  exact ⟨tcp, run, takes, Endpoint.emits_step inherited_fits h.emits run, h.sane, fun shut =>
    Endpoint.told_step h.takes.flagged (h.told shut) run⟩

theorem Fine.grows {n : Nat} (h : Fine capacity arrived s) (more : arrived ≤ n) (room : n < 2 ^ 62) : Fine capacity n s :=
  ⟨h.takes.grows more room, h.emits, h.sane, h.told⟩

theorem Fine.endOutbound (h : Fine capacity arrived s) (small : capacity < 2 ^ 62) (room : arrived < 2 ^ 62) :
    ∃ s', s.endOutbound = some s' ∧ Fine capacity arrived s' ∧ s'.threadData = s.threadData := by
  obtain ⟨tcp, run, fine⟩ := h.step small .endInputStream room
  refine ⟨{ s with tcp, outboundShutdown := true }, ?_, ⟨fine.takes, fine.emits, fine.sane, fine.told⟩, rfl⟩
  rw [TCPSpongeSocket.endOutbound, run, Option.map_some]

/-- **The first rule**: the adapter is read once, and what it returns is at most a datagram. -/
theorem Fine.readDatagram (h : Fine capacity arrived s) (small : capacity < 2 ^ 62) (room : arrived + 65536 < 2 ^ 62)
    (works : k.Works α) :
    ∃ s', s.readDatagram k = some s' ∧ Fine capacity (arrived + 65536) s' ∧
      (FdAdapter.fd s'.datagramAdapter).readCount = (FdAdapter.fd s.datagramAdapter).readCount + 1 := by
  obtain ⟨i, arrives, succeeds⟩ := works.datagram
  obtain ⟨a, got, read, sane, count, size⟩ := Reliable.read h.sane succeeds
  have kept : Fine capacity arrived { s with datagramAdapter := a } := ⟨h.takes, h.emits, sane, h.told⟩
  have received : ∃ s', segmentReceived { s with datagramAdapter := a } got = some s' ∧ Fine capacity (arrived + 65536) s' ∧
      s'.datagramAdapter = a := by
    cases got with
    | none => exact ⟨_, rfl, kept.grows (Nat.le_add_right _ _) room, rfl⟩
    | some seg =>
      have length := size seg rfl
      obtain ⟨tcp, run, fine⟩ := kept.step small (.segmentReceived seg) (by rw [Endpoint.arrives]; omega)
      exact ⟨_, by rw [TCPSpongeSocket.segmentReceived, run, Option.map_some],
        fine.grows (by rw [Endpoint.arrives]; omega) room, rfl⟩
  obtain ⟨s', run, fine, same⟩ := received
  refine ⟨s'.noteAcked, ?_, ⟨fine.takes, fine.emits, fine.sane, fine.told⟩, ?_⟩
  · rw [TCPSpongeSocket.readDatagram, arrives, Option.bind_some, read, Option.bind_some, run, Option.map_some]
  · show (FdAdapter.fd s'.datagramAdapter).readCount = _
    rw [same]
    exact count

/-- **The second rule**: what was advertised is accepted. -/
theorem Fine.readOutbound (h : Fine capacity arrived s) (small : capacity < 2 ^ 62) (room : arrived < 2 ^ 62)
    (works : k.Works α) :
    ∃ s', s.readOutbound k = some s' ∧ Fine capacity arrived s' ∧ s'.threadData.readCount = s.threadData.readCount + 1 := by
  obtain ⟨data, given, length⟩ := works.read (min FDWrapper.bufferSize s.tcp.conn.remainingOutboundCapacity)
  have read := s.threadData.read_of_le length
  have all : s.tcp.conn.written data = data.length :=
    ByteStream.writeLength_of_le (Nat.le_trans length (Nat.min_le_right _ _))
  obtain ⟨tcp, run, fine⟩ := h.step small (.write data) room
  have count : ((s.threadData.noteEof s.tcp.conn.remainingOutboundCapacity data.length).registerRead).readCount =
      s.threadData.readCount + 1 := by
    show (FDWrapper.noteEof _ _ _).readCount + 1 = _
    rw [FDWrapper.noteEof_readCount]
  generalize (s.threadData.noteEof s.tcp.conn.remainingOutboundCapacity data.length).registerRead = fd at read count
  have written : Fine capacity arrived { s with threadData := fd, tcp, received := s.received ++ data } :=
    ⟨fine.takes, fine.emits, fine.sane, fine.told⟩
  rw [TCPSpongeSocket.readOutbound, given, read, Option.bind_some, writeOutbound, run, Option.bind_some, if_neg (not_not_intro all)]
  dsimp only
  split
  · obtain ⟨s', ended, fine', same⟩ := written.endOutbound small room
    refine ⟨s', ended, fine', ?_⟩
    rw [same]
    exact count
  · exact ⟨_, rfl, written, count⟩

/-- The end of the third rule's callback. -/
theorem Fine.closeInbound (h : Fine capacity arrived s) (works : k.Works α) :
    ∃ s', s.closeInbound k = some s' ∧ Fine capacity arrived s' ∧
      (s'.threadData = s.threadData ∨ s'.threadData = s.threadData.registerWrite) := by
  unfold TCPSpongeSocket.closeInbound
  split
  · rename_i last
    rw [works.shutdown]
    refine ⟨{ s with threadData := s.threadData.registerWrite, inboundShutdown := true }, rfl,
      ⟨h.takes, h.emits, h.sane, fun _ => ?_⟩, Or.inr rfl⟩
    exact (Bool.or_eq_true_iff.1 last).symm
  · exact ⟨s, rfl, h, Or.inl rfl⟩

/-- **The third rule**, as long as the owner's socket is open for writing. -/
theorem Fine.writeInbound (h : Fine capacity arrived s) (small : capacity < 2 ^ 62) (room : arrived < 2 ^ 62)
    (works : k.Works α) (writable : s.inboundShutdown = false) :
    ∃ s', s.writeInbound k = some s' ∧ Fine capacity arrived s' ∧ s'.threadData.writeCount ≠ s.threadData.writeCount := by
  generalize is : s.inbound.peekOutput (min 65536 s.inbound.bufferSize) = buffer
  obtain ⟨n, taken, fits, positive⟩ := works.write buffer.length
  have size : (BufferViewList.ofString buffer).size = buffer.length := by simp [BufferViewList.ofString, BufferViewList.size]
  obtain ⟨w, written, fd⟩ := s.threadData.write_once_of_le (.ofString buffer) (n := n)
    (fun nothing => by_contra fun some_ => positive (by omega) nothing) (by omega)
  obtain ⟨tcp, run, fine⟩ := h.step small (.read w.total) room
  obtain ⟨s', closed, fine', data⟩ := Fine.closeInbound (s := { s with threadData := w.fd, tcp, delivered := s.delivered ++ w.out })
    ⟨fine.takes, fine.emits, fine.sane, fine.told⟩ works
  refine ⟨s', ?_, fine', ?_⟩
  · rw [TCPSpongeSocket.writeInbound, is, if_neg (by rw [writable]; decide), taken, written, Option.bind_some, run, Option.bind_some, closed]
  · apply FDWrapper.writeCount_ne
    rw [← fd]
    exact data

theorem writeSegments_returns {sends : Nat → Sends} (whole : ∀ j, (sends j).Whole) (j : Nat) (segs : List TCPSegment)
    (fit : ∀ seg ∈ segs, seg.Fits) {a : α} (sane : Reliable.Sane a) :
    ∃ a', writeSegments sends j segs a = some a' ∧ Reliable.Sane a' := by
  induction segs generalizing a j with
  | nil => exact ⟨a, rfl, sane⟩
  | cons seg rest ih =>
    obtain ⟨mid, written, sane'⟩ := Reliable.write sane (fit seg List.mem_cons_self) (whole j)
    obtain ⟨a', run, last⟩ := ih (j + 1) (fun seg member => fit seg (List.mem_cons_of_mem _ member)) sane'
    exact ⟨a', by rw [writeSegments, written, Option.bind_some, run], last⟩

/-- **The fourth rule**: every segment can be written, and none is left. -/
theorem Fine.writeDatagrams (h : Fine capacity arrived s) (works : k.Works α) :
    ∃ s', s.writeDatagrams k = some s' ∧ Fine capacity arrived s' ∧ s'.segmentsOut = [] := by
  obtain ⟨a, run, sane⟩ := writeSegments_returns works.sends 0 s.segmentsOut
    (fun seg member => h.emits.out seg (List.mem_of_mem_drop member)) h.sane
  refine ⟨{ s with datagramAdapter := a, pulled := s.tcp.conn.segmentsOut.length }, ?_, ⟨h.takes, h.emits, sane, h.told⟩, ?_⟩
  · rw [TCPSpongeSocket.writeDatagrams, run, Option.map_some]
  · exact List.drop_length

theorem Fine.tick (h : Fine capacity arrived s) (small : capacity < 2 ^ 62) (room : arrived < 2 ^ 62) (ms : Nat)
    {sends : Sends} (whole : sends.Whole) : ∃ s', s.tick ms sends = some s' ∧ Fine capacity arrived s' := by
  obtain ⟨tcp, run, fine⟩ := h.step small (.tick ms) room
  obtain ⟨a, ticked, sane⟩ := Reliable.tick ms h.sane whole
  refine ⟨{ s with tcp, datagramAdapter := a }, ?_, ⟨fine.takes, fine.emits, sane, fine.told⟩⟩
  rw [TCPSpongeSocket.tick, run, Option.bind_some, ticked, Option.map_some]

/-! ### A call of the event loop -/

/-- No byte is left that cannot be written any more. -/
def Writable (s : TCPSpongeSocket α) : Prop := s.inboundShutdown = true → s.inbound.bufferEmpty = true

/-- What is owed to a rule that was asked for. -/
def Prepared (capacity arrived : Nat) : Tag → TCPSpongeSocket α → Prop
  | .datagramIn, s => Takes capacity arrived s.tcp.conn.receiver
  | .ownerOut, s => s.inboundShutdown = false
  | _, _ => True

/-- Only the first rule brings bytes. -/
theorem Makes.takes {t : Tag} (h : Makes t s s') (other : t ≠ .datagramIn) (small : capacity < 2 ^ 62)
    (takes : Takes capacity arrived s.tcp.conn.receiver) : Takes capacity arrived s'.tcp.conn.receiver := by
  refine h.ops.invariant takes fun e op e' (inv : Takes capacity arrived e.conn.receiver) made run => inv.step small run ?_
  cases op with
  | segmentReceived seg =>
    cases t with
    | datagramIn => exact absurd rfl other
    | _ => exact absurd made id
  | _ => rfl

/-- The first and the third rule apart, the bytes for the owner stay. -/
theorem Makes.pending {t : Tag} (h : Makes t s s') (noDatagram : t ≠ .datagramIn) (noRead : t ≠ .ownerOut) :
    s'.inbound.pending = s.inbound.pending := by
  have same : s.tcp.conn.inboundStream.pending = s.inbound.pending := rfl
  refine h.ops.invariant same fun e op e' (inv : e.conn.inboundStream.pending = s.inbound.pending) made run => ?_
  rw [← inv]
  refine Endpoint.step_pending run ?_ ?_
  · rintro seg rfl
    cases t with
    | datagramIn => exact noDatagram rfl
    | _ => exact made
  · rintro len rfl
    cases t with
    | ownerOut => exact noRead rfl
    | _ => exact made

theorem Makes.writable {t : Tag} (h : Makes t s s') (noDatagram : t ≠ .datagramIn) (noRead : t ≠ .ownerOut)
    (writable : Writable s) : Writable s' := by
  intro shut
  rw [(h.owner noRead).1] at shut
  rw [ByteStream.bufferEmpty_iff]
  exact (h.pending noDatagram noRead).trans ((ByteStream.bufferEmpty_iff _).1 (writable shut))

/-- **The four rules** of a sound socket, in a call before which `arrived` bytes have come. -/
theorem sound (small : capacity < 2 ^ 62) (room : arrived + 65536 < 2 ^ 62) :
    Sound (rule (α := α)) (fun s => Takes capacity arrived s.tcp.conn.receiver ∧ Writable s) (Prepared capacity arrived)
      (Kernel.Works α) (Fine capacity (arrived + 65536)) where
  promises := {
    asked t s before polled := by
      cases t with
      | datagramIn => exact before.1
      | ownerOut =>
        simp only [EventLoop.Rule.polled, rule, Bool.and_eq_true, Bool.or_eq_true, Bool.not_eq_true'] at polled
        rcases polled.2 with some_ | ⟨-, still⟩
        · show s.inboundShutdown = false
          by_contra shut
          rw [before.2 (by simpa using shut)] at some_
          cases some_
        · exact still
      | _ => trivial
    dropped t s s' before cancelled := by
      cases t with
      | ownerIn =>
        have makes := makes_endOutbound cancelled
        exact ⟨makes.takes (by decide) small before.1, makes.writable (by decide) (by decide) before.2⟩
      | _ =>
        cases cancelled
        exact before
    keeps t s m s' other _ run ready := by
      cases t with
      | datagramIn => exact (makes_move run).takes other small ready
      | ownerOut => exact ((makes_move run).owner other).1.trans ready
      | _ => trivial }
  cancels t s fine := by
    cases t with
    | ownerIn =>
      obtain ⟨s', run, fine', -⟩ := fine.endOutbound small room
      exact ⟨s', run, fine'⟩
    | _ => exact ⟨s, rfl, fine⟩
  serves t s k fine ready works := by
    cases t with
    | datagramIn =>
      obtain ⟨s', run, fine', count⟩ := Fine.readDatagram (s := s) ⟨ready, fine.emits, fine.sane, fine.told⟩ small room works
      refine ⟨s', run, Bool.and_eq_false_iff.2 (Or.inl (beq_eq_false_iff_ne.2 ?_)), fine'⟩
      show (FdAdapter.fd s.datagramAdapter).readCount ≠ (FdAdapter.fd s'.datagramAdapter).readCount
      rw [count]
      exact (FDWrapper.registerRead_readCount_ne _).symm
    | ownerIn =>
      obtain ⟨s', run, fine', count⟩ := fine.readOutbound small room works
      refine ⟨s', run, Bool.and_eq_false_iff.2 (Or.inl (beq_eq_false_iff_ne.2 ?_)), fine'⟩
      show s.threadData.readCount ≠ s'.threadData.readCount
      rw [count]
      exact (FDWrapper.registerRead_readCount_ne _).symm
    | ownerOut =>
      obtain ⟨s', run, fine', count⟩ := fine.writeInbound small room works ready
      exact ⟨s', run, Bool.and_eq_false_iff.2 (Or.inl (beq_eq_false_iff_ne.2 count.symm)), fine'⟩
    | datagramOut =>
      obtain ⟨s', run, fine', sent⟩ := fine.writeDatagrams works
      refine ⟨s', run, Bool.and_eq_false_iff.2 (Or.inr ?_), fine'⟩
      show (!s'.segmentsOut.isEmpty) = false
      rw [sent]
      rfl

theorem Fine.writable (h : Fine capacity arrived s) (unbroken : ¬s.Broken) : Writable s := by
  intro shut
  rcases h.told shut with error | eof
  · by_contra left
    exact unbroken ⟨error, shut, by simpa using left⟩
  · exact (Bool.and_eq_true_iff.1 eof).2

end TCPSpongeSocket

namespace TCPThread

open TCPSpongeSocket (Broken Fine)

variable {α ι : Type} [FdAdapter α ι] {adapter : α} {cfg : TCPConfig} {t t' first : TCPThread α}

/-- After `connect` the connection waits for the answer to its SYN. -/
theorem state_connect {tcp : Endpoint} (run : (Endpoint.new cfg).step .connect = some tcp) :
    tcp.conn.state = .ofState .synSent := by
  have inTime : (Endpoint.new cfg).WritesInTime .connect := trivial
  have stands : Endpoint.Stands tcp := (Endpoint.Stands.new cfg).step inTime trivial run
  have waits : TCPConnection.Waits (Endpoint.new cfg).conn := ⟨⟨rfl, rfl, rfl, rfl⟩, rfl, rfl⟩
  obtain ⟨active, syned, -⟩ := Endpoint.step_starts (.new cfg) waits rfl run
  have listens : tcp.conn.receiver.syn = false := by
    rcases Endpoint.step_receiver run with ⟨r, after, rfl | ⟨seg, is, -⟩⟩ | ⟨len, is, -⟩
    · rcases after with same | error
      · rw [same]
        rfl
      · rw [error]
        rfl
    · cases is
    · cases is
  have acked : tcp.conn.sender.lastAckedAbsSeqno = 0 := by
    by_contra some_
    rw [(stands.regular active).heard (Nat.pos_of_ne_zero some_)] at listens
    cases listens
  have short : tcp.written.length + 2 < word64 := by
    cases run
    show 0 + 2 < word64
    decide
  have next : tcp.conn.sender.nextAbsSeqno ≠ 0 := by
    rw [ne_eq, stands.sends.tiled.next_eq_zero (stands.sends.few short), syned]
    decide
  have more : tcp.conn.receiver.fullFined = false := by
    rw [TCPReceiver.fullFined, stands.ends.flagged.waiting listens]
    rfl
  rw [stands.state_active short active, if_neg next, if_pos acked, listens, stands.lingers more]
  rfl

/-- **`connect` does not throw.** -/
theorem connect_returns (adapter : α) (cfg : TCPConfig) (settings : FdAdapterSettings) (now : Nat) :
    ∃ t, connect adapter cfg settings now = some t := by
  have stepped := Endpoint.step_connect (.new cfg)
  rw [connect, stepped, Option.bind_some, if_neg (not_not_intro (state_connect stepped))]
  exact ⟨_, rfl⟩

/-! ### After a reset with bytes left -/

theorem Broken.waits (broken : t.socket.Broken) (distinct : t.rules.Nodup) {r : Round ι}
    {out : EventLoop.Outcome TCPSpongeSocket.Tag (TCPSpongeSocket α) (Kernel ι)}
    (waited : EventLoop.waitNextEvent TCPSpongeSocket.rule t.rules t.socket r.poll = some out) :
    out.state.Broken ∧ out.state.delivered = t.socket.delivered := by
  have reached := EventLoop.wait_reaches TCPSpongeSocket.promises distinct (honours_anything r) trivial waited
  refine reached.invariant ?_
    fun s m s' (inv : s.Broken ∧ s.delivered = t.socket.delivered) _ run => ?_
  · exact ⟨broken, rfl⟩
  · obtain ⟨broken', same⟩ := inv.1.move run
    exact ⟨broken', same.trans inv.2⟩

theorem Broken.step (broken : t.socket.Broken) (distinct : t.rules.Nodup) {r : Round ι} (run : t.step r = some t') :
    t'.socket.Broken ∧ t'.socket.delivered = t.socket.delivered := by
  obtain ⟨-, ⟨-, rfl⟩ | ⟨out, waited, ends⟩⟩ := step_cases run
  · rw [(t.leave_socket r.now).1]
    exact ⟨broken, rfl⟩
  obtain ⟨broken', same⟩ := Broken.waits broken distinct waited
  rcases ends with ⟨-, rfl⟩ | ⟨-, -, passed⟩
  · rw [(leave_socket _ r.now).1]
    exact ⟨broken', same⟩
  · unfold passTime at passed
    split at passed
    · obtain ⟨socket, ticked, rfl⟩ := Option.map_eq_some_iff.1 passed
      obtain ⟨tcp, stepped, ticked⟩ := Option.bind_eq_some_iff.1 ticked
      obtain ⟨a, -, rfl⟩ := Option.map_eq_some_iff.1 ticked
      obtain ⟨error, left⟩ := Endpoint.step_failed stepped (by simp) broken'.1 broken'.2.2
      exact ⟨⟨error, broken'.2.1, left⟩, same⟩
    · cases passed
      exact ⟨broken', same⟩

/-- `poll` reports that the owner's socket can be written to, at the place that the first pass gives the third rule. -/
def Offers (t : TCPThread α) (r : Round ι) : Prop :=
  ∃ up idx revents k, EventLoop.setUp TCPSpongeSocket.rule t.rules t.socket = some up ∧ up.rules[idx]? = some .ownerOut ∧
    r.poll.answers idx = some ⟨revents, k⟩ ∧ revents.pollout = true

theorem Broken.offered (broken : t.socket.Broken) (running : t.phase = .running) {r : Round ι} (offers : t.Offers r) :
    t.step r = none := by
  obtain ⟨up, idx, revents, k, first, there, answered, has⟩ := offers
  have goes : t.goesOn = true := by rw [goesOn, running]
  have throws := TCPSpongeSocket.doomed.wait_throws broken first there answered has
  rw [TCPThread.step, if_neg (by rw [running]; decide), if_pos goes, throws, Option.bind_none]

/-- A segment of the peer arrives. -/
def hearing (seg : TCPSegment) (now : Nat) : Round (Option ReceivedDatagram) :=
  .only 0 { pollin := true } { datagram := some (TCPOverUDPSocketAdapter.arriving callee seg) } now

/-- The peer answers the SYN, sends three bytes, and resets the connection; then the owner's socket takes one byte. -/
def strandingRounds : List (Round (Option ReceivedDatagram)) := [
  .only 3 { pollout := true } {} 1,
  hearing { header := { seqno := .ofNat 100, ackno := .ofNat 8, syn := true, ack := true } } 2,
  .only 0 {} {} 3,
  hearing { header := { seqno := .ofNat 101, ackno := .ofNat 8, ack := true }, payload := [1, 2, 3] } 4,
  hearing { header := { rst := true } } 5,
  .only 2 { pollout := true } { write := fun _ => some 1 } 6]

variable [Reliable α ι] {capacity arrived : Nat}

/-- `poll` reports no error on a descriptor, and the system calls succeed. -/
structure Answered (α : Type) {ι : Type} [FdAdapter α ι] [Reliable α ι] (r : Round ι) : Prop where
  calls : ∀ idx answer, r.poll.answers idx = some answer → answer.Fine (Kernel.Works α)
  sends : r.sends.Whole

theorem passTime_returns (fine : Fine capacity arrived t.socket) (small : capacity < 2 ^ 62) (room : arrived < 2 ^ 62)
    (now : Nat) {sends : Sends} (whole : sends.Whole) :
    ∃ t', t.passTime now sends = some t' ∧ Fine capacity arrived t'.socket := by
  unfold passTime
  split
  · obtain ⟨socket, run, fine'⟩ := fine.tick small room (sub64 now t.baseTime) whole
    rw [run, Option.map_some]
    exact ⟨_, rfl, fine'⟩
  · exact ⟨t, rfl, fine⟩

/-- **A round returns**, and brings one datagram at most. -/
theorem step_returns (fine : Fine capacity arrived t.socket) (unbroken : ¬t.socket.Broken) (distinct : t.rules.Nodup)
    (small : capacity < 2 ^ 62) (room : arrived + 65536 < 2 ^ 62) (going : t.phase ≠ .finished) {r : Round ι}
    (answered : Answered α r) : ∃ t', t.step r = some t' ∧ Fine capacity (arrived + 65536) t'.socket := by
  have later := fine.grows (Nat.le_add_right _ 65536) room
  rw [step, if_neg going]
  split
  · obtain ⟨out, waited, fine'⟩ := EventLoop.wait_returns (TCPSpongeSocket.sound small room) distinct answered.calls
      ⟨fine.takes, fine.writable unbroken⟩ later
    rw [waited, Option.bind_some]
    dsimp only
    split
    · refine ⟨_, rfl, ?_⟩
      rw [(leave_socket _ _).1]
      exact fine'
    · exact passTime_returns (t := { t with socket := out.state, rules := out.rules }) fine' small room r.now
        answered.sends
  · refine ⟨_, rfl, ?_⟩
    rw [(leave_socket _ _).1]
    exact later

theorem Started.fine (started : Started adapter cfg first) (sane : Reliable.Sane adapter) (small : cfg.recvCapacity < 2 ^ 62) :
    Fine cfg.recvCapacity 0 first.socket := by
  obtain ⟨settings, now, connected | rfl⟩ := started
  · obtain ⟨tcp, stepped, run⟩ := Option.bind_eq_some_iff.1 connected
    split at run
    · cases run
    · cases run
      refine ⟨(TCPReceiver.Takes.new cfg.recvCapacity).step small stepped rfl, ?_, Reliable.setConfig settings sane, by simp⟩
      have reached : Reaches Endpoint.step (fun _ _ => True) (.new cfg) tcp := .single trivial stepped
      exact Endpoint.emits_of_reaches inherited_fits reached
  · refine ⟨.new cfg.recvCapacity, ?_, Reliable.setListening true (Reliable.setConfig settings sane), ?_⟩
    · have reached : Reaches Endpoint.step (fun _ _ => True) (.new cfg) (.new cfg) := .start
      exact Endpoint.emits_of_reaches inherited_fits reached
    · intro shut
      cases shut

/-- The thread after some rounds, each of which brings one datagram at most. -/
theorem fine_of_traces (small : capacity < 2 ^ 62) {rounds : List (Round ι)}
    (traces : Traces TCPThread.step (fun t r => ¬t.socket.Broken ∧ Answered α r) t rounds t')
    (stands : Stands (fun _ => True) first t) (fine : Fine capacity arrived t.socket)
    (room : arrived + 65536 * rounds.length < 2 ^ 62) :
    Fine capacity (arrived + 65536 * rounds.length) t'.socket ∧ Stands (fun _ => True) first t' := by
  induction traces generalizing arrived with
  | done => exact ⟨fine, stands⟩
  | @next t mid t' r rest allowed run _ ih =>
    have count : arrived + 65536 * (r :: rest).length = arrived + 65536 + 65536 * rest.length := by
      rw [List.length_cons]
      omega
    rw [count] at room ⊢
    obtain ⟨going, -⟩ := step_cases run
    obtain ⟨mid', run', fine'⟩ := step_returns fine allowed.1 stands.distinct small (Nat.lt_of_le_of_lt (Nat.le_add_right _ _) room)
      going allowed.2
    rw [run] at run'
    cases run'
    exact ih (stands.step (honours_anything r) run) fine' room

/-- The calls do what they are asked for: `read` returns `data`, or as much of it as fits, and `writev` takes everything. -/
def obliging (i : ι) (data : List UInt8) : Kernel ι where
  datagram := some i
  read size := some (data.take size)
  write size := some size

theorem works_obliging {i : ι} (succeeds : Reliable.Succeeds α i) (data : List UInt8) : (obliging i data).Works α where
  datagram := ⟨i, rfl, succeeds⟩
  read size := ⟨data.take size, rfl, List.length_take_le _ _⟩
  write size := ⟨size, rfl, Nat.le_refl _, fun some_ => some_⟩
  shutdown := rfl
  sends _ := Sends.all_whole

/-- Three bytes arrive that are no segment. -/
def noise : Round (Option ReceivedDatagram) := .only 0 { pollin := true } (obliging (some ⟨⟨9, 9⟩, [1, 2, 3]⟩) []) 1

theorem answered_noise : Answered TCPOverUDPSocketAdapter noise := by
  refine ⟨?_, Sends.all_whole⟩
  intro idx answer is
  have here : (if idx = 0 then some _ else none) = some answer := is
  split at here
  · cases here
    have succeeds : Reliable.Succeeds TCPOverUDPSocketAdapter (some ⟨⟨9, 9⟩, [1, 2, 3]⟩) := ⟨_, rfl, by decide⟩
    exact ⟨rfl, rfl, works_obliging succeeds []⟩
  · cases here

end TCPThread

end Sponge
