import Sponge.Stream.DataIndependence
import Sponge.Tcp.InOrder
import Sponge.Tcp.Link

/-!
# The advertised right edge

Every acknowledgment a connection sends carries a number and a window. Together
they are a promise: the sequence number up to which the peer may send. A byte that
is assembled raises the number and takes its room from the window, the end of the
stream raises the number, and a read opens the window, so the promise is never
taken back, also where the window is cut to 16 bits. The one limit is the 64-bit
index of the reassembler: a segment that ends at `2 ^ 64` takes it back to 0, and
the acknowledgment number stays behind.
-/

namespace Sponge

open TCPConnection (Op)

namespace TCPReceiver

/-- The absolute right edge that an acknowledgment promises now. -/
def rightEdge (r : TCPReceiver) : Nat :=
  1 + r.streamOut.writeCount + (if r.streamOut.inputEnded then 1 else 0) + min r.windowSize 65535

/-- The numbers of the receiver are in order, for any segments. -/
structure Counted (r : TCPReceiver) : Prop where
  counts : r.reassembler.Counts
  capacity : r.reassembler.output.capacity < word64
  state : r.Unsynced ∨ r.Synced r.isn

/-- What a segment or a read does to the edge. -/
structure Moves (r r' : TCPReceiver) : Prop where
  counted : r'.Counted
  edge : r.rightEdge ≤ r'.rightEdge
  syn : r.syn = true → r'.syn = true ∧ r'.isn = r.isn

variable {r r' : TCPReceiver} {seg : TCPSegment}

theorem Counted.new {capacity : Nat} (fits : capacity < word64) : (new capacity).Counted :=
  ⟨.new capacity, fits, Or.inl (unsynced_new capacity)⟩

theorem Counted.flagged (h : r.Counted) : r.Flagged := h.state.elim Unsynced.flagged Synced.flagged

theorem Moves.refl (h : r.Counted) : Moves r r := ⟨h, Nat.le_refl _, fun syn => ⟨syn, rfl⟩⟩

theorem Moves.trans {r'' : TCPReceiver} (h : Moves r r') (h' : Moves r' r'') : Moves r r'' := by
  refine ⟨h'.counted, Nat.le_trans h.edge h'.edge, fun syn => ?_⟩
  obtain ⟨syn', isn⟩ := h.syn syn
  obtain ⟨syn'', isn'⟩ := h'.syn syn'
  exact ⟨syn'', isn'.trans isn⟩

/-- The room taken by assembled bytes is the room the number has gained. -/
theorem rightEdge_le (grows : r.streamOut.writeCount ≤ r'.streamOut.writeCount)
    (reads : r.streamOut.readCount ≤ r'.streamOut.readCount) (capacity : r'.streamOut.capacity = r.streamOut.capacity)
    (ended : r.streamOut.inputEnded = true → r'.streamOut.inputEnded = true) : r.rightEdge ≤ r'.rightEdge := by
  have before := r.streamOut.writeCount_add_remaining
  have after := r'.streamOut.writeCount_add_remaining
  have flags : (if r.streamOut.inputEnded = true then 1 else 0) ≤ if r'.streamOut.inputEnded = true then 1 else 0 := by
    cases isEnded : r.streamOut.inputEnded with
    | false => exact Nat.zero_le _
    | true => rw [ended isEnded]
  simp only [rightEdge, windowSize]
  omega

theorem Counted.pop (h : r.Counted) (len : Nat) : Moves r (r.popOutput len) := by
  refine ⟨⟨h.counts.pop len, h.capacity, ?_⟩, ?_, fun syn => ⟨syn, rfl⟩⟩
  · exact h.state.imp (fun fresh => fresh.withOutput _ rfl) fun synced => synced.withOutput _ rfl
  · exact rightEdge_le (Nat.le_refl _) (Nat.le_add_right _ _) rfl fun ended => ended

theorem Counted.setError (h : r.Counted) : Moves r r.setError := by
  refine ⟨⟨h.counts.setError, h.capacity, ?_⟩, Nat.le_refl _, fun syn => ⟨syn, rfl⟩⟩
  exact h.state.imp (fun fresh => fresh.withOutput _ rfl) fun synced => synced.withOutput _ rfl

/-- A segment that is not ignored is the SYN or comes after it. -/
theorem Counted.syncs (h : r.Counted) (taken : r.ignores seg = false) {re : StreamReassembler}
    (pushed : r.reassembler.pushSubstring? seg.payload (r.streamIndex seg) seg.header.fin = some re)
    (grows : r.reassembler.firstIndex ≤ re.firstIndex) :
    (r.afterPush seg.header re).Synced (r.afterPush seg.header re).isn ∧
      (r.syn = true → (r.afterPush seg.header re).isn = r.isn) := by
  simp only [ignores, Bool.or_eq_false_iff] at taken
  obtain ⟨⟨beforeSyn, again⟩, -⟩ := taken
  rcases h.state with fresh | synced
  · have isSyn : seg.header.syn = true := by simpa [fresh.syn] using beforeSyn
    have synced := fresh.afterPush isSyn pushed
    exact ⟨by rw [synced.isn]; exact synced, fun syn => by rw [fresh.syn] at syn; cases syn⟩
  · have noSyn : seg.header.syn = false := by simpa [synced.syn] using again
    have synced := synced.afterPush noSyn pushed grows
    exact ⟨by rw [synced.isn]; exact synced, fun _ => synced.isn⟩

/-- **Any segment** whose last index is a 64-bit number, if the receiver does not throw. -/
theorem Counted.segment (h : r.Counted) (fits : r.ignores seg = false → r.streamIndex seg + seg.payload.length < word64)
    (run : r.segmentReceived? seg = some r') : Moves r r' := by
  cases ignored : r.ignores seg with
  | true =>
    rw [segmentReceived?, ignored] at run
    cases run
    exact .refl h
  | false =>
    have took := h.flagged.took run
    rw [segmentReceived?, ignored] at run
    obtain ⟨re, pushed, rfl⟩ := Option.map_eq_some_iff.1 run
    have counted := h.counts.push h.capacity (fits ignored) pushed
    have same := afterPush_reassembler r seg.header (h.flagged.pushed pushed).2.2.2
    obtain ⟨synced, isn⟩ := h.syncs ignored pushed counted.grows
    refine ⟨⟨?_, ?_, Or.inr synced⟩, rightEdge_le ?_ ?_ ?_ fun ended => ?_, fun syn => ⟨synced.syn, isn syn⟩⟩
    · rw [same]
      exact counted.counts
    · rw [same, counted.capacity]
      exact h.capacity
    · rw [streamOut, streamOut, same, ← h.counts.written, ← counted.counts.written]
      exact counted.grows
    · rw [streamOut, streamOut, same, counted.readCount]
    · rw [streamOut, streamOut, same, counted.capacity]
    · rw [← took.flagged.fullFined]
      rw [← h.flagged.fullFined] at ended
      exact took.full ended

/-- The acknowledgment number, once there is one. -/
theorem Counted.ackno_eq (h : r.Counted) {ackno : WrappingInt32} (some : r.ackno = some ackno) : r.syn = true ∧
    ackno = wrap (1 + r.streamOut.writeCount + if r.streamOut.inputEnded then 1 else 0) r.isn := by
  rcases h.state with fresh | synced
  · rw [fresh.ackno_eq] at some
    cases some
  · rw [synced.ackno_eq, h.counts.written] at some
    exact ⟨synced.syn, (Option.some.inj some).symm⟩

end TCPReceiver

/-! ### What an operation announces -/

namespace TCPSegment

/-- A segment that makes the promise: an acknowledgment that is no reset. -/
def announces (seg : TCPSegment) : Bool := seg.header.ack && !seg.header.rst

end TCPSegment

namespace TCPConnection

/-- The window of a segment is the receiver's, up to 16 bits. -/
theorem toNat_advertised (c : TCPConnection) : c.advertised.toNat = min c.receiver.windowSize 65535 := by
  unfold advertised
  split
  · rw [UInt16.toNat_ofNat_of_lt' (show c.receiver.windowSize < 2 ^ 16 by omega)]
    omega
  · rw [show (65535 : UInt16).toNat = 65535 from rfl]
    omega

/-- The fields of what is pulled: the number and the window that the receiver has at that moment. -/
theorem outgoing_announces {c : TCPConnection} {base : TCPSegment} (plain : base.header.ack = false)
    (announces : (c.outgoing base).announces = true) :
    c.receiver.ackno = some (c.outgoing base).header.ackno ∧ (c.outgoing base).header.win = c.advertised := by
  unfold outgoing at announces ⊢
  cases rst : c.rst with
  | true => simp [TCPSegment.announces, rst] at announces
  | false =>
    cases ackno : c.receiver.ackno with
    | some ackno => simp
    | none => simp [TCPSegment.announces, rst, ackno, plain] at announces

end TCPConnection

namespace Endpoint

/-- The index past the last byte of a segment that arrives is a 64-bit number. -/
def Numbered (e : Endpoint) : Op → Prop
  | .segmentReceived seg => seg.header.rst = false → e.conn.receiver.ignores seg = false →
      e.conn.receiver.streamIndex seg + seg.payload.length < word64
  | _ => True

instance (e : Endpoint) : DecidablePred e.Numbered
  | .segmentReceived _ => inferInstanceAs (Decidable (_ → _ → _))
  | .connect | .write _ | .endInputStream | .tick _ | .read _ => inferInstanceAs (Decidable True)

/-- What an operation does to the promise: the receiver moves its edge to the right, and what goes out says where it
is. -/
structure Promises (e e' : Endpoint) : Prop where
  moves : e.conn.receiver.Moves e'.conn.receiver
  out : ∃ new, e'.conn.segmentsOut = e.conn.segmentsOut ++ new ∧ ∀ seg ∈ new, seg.announces = true →
    e'.conn.receiver.ackno = some seg.header.ackno ∧ seg.header.win.toNat = min e'.conn.receiver.windowSize 65535

/-- The receiver's part of an operation. -/
theorem Numbered.moves {e : Endpoint} {op : Op} (numbered : Numbered e op) (h : e.conn.receiver.Counted)
    {found : TCPConnection} (finds : e.conn.Finds op found) : e.conn.receiver.Moves found.receiver := by
  cases finds with
  | same => exact .refl h
  | reset => exact .refl h
  | received noRst run => exact h.segment (numbered noRst) run

/-- **Every operation** moves the edge to the right only. -/
theorem Sends.promises {e e' : Endpoint} (sends : e.Sends) (h : e.conn.receiver.Counted) {op : Op}
    (numbered : Numbered e op) (run : e.step op = some e') : Promises e e' := by
  rcases step_cases run with ⟨p, prepared, rfl⟩ | ⟨len, -, rfl⟩
  · obtain ⟨found, finds, ready⟩ := prepare?_readies prepared
    have moves := numbered.moves h finds
    have before : found.segmentsOut = e.conn.segmentsOut := by cases finds <;> rfl
    rw [← ready.receiver] at moves
    obtain ⟨new, out, pulled⟩ := (judged p.conn).out
    -- an error flag on the inbound stream changes neither the number nor the window
    have judged : p.conn.receiver.Moves p.conn.judgeDo.receiver ∧ p.conn.judgeDo.receiver.ackno = p.conn.receiver.ackno ∧
        p.conn.judgeDo.receiver.windowSize = p.conn.receiver.windowSize := by
      rcases (judged p.conn).receiver with same | error
      · rw [same]
        exact ⟨.refl moves.counted, rfl, rfl⟩
      · rw [error]
        exact ⟨moves.counted.setError, rfl, rfl⟩
    refine ⟨moves.trans judged.1, new, by rw [← before, ← ready.out]; exact out, fun seg fresh announces => ?_⟩
    rw [show (p.on (·.judgeDo)).conn = p.conn.judgeDo from rfl, judged.2.1, judged.2.2]
    rcases pulled seg fresh with rst | ⟨base, queued, rfl⟩
    · simp [TCPSegment.announces, rst] at announces
    · obtain ⟨ackno, win⟩ := TCPConnection.outgoing_announces ((sends.prepare prepared).queue_plain queued) announces
      exact ⟨ackno, by rw [win, TCPConnection.toNat_advertised]⟩
  · exact ⟨h.pop len, [], (List.append_nil _).symm, by simp⟩

end Endpoint

/-! ### The announcements of a run -/

/-- An acknowledgment put out, with the state of the inbound stream it went out in. -/
structure Advert where
  seg : TCPSegment
  assembled : Nat
  ended : Bool
  free : Nat
  deriving DecidableEq

namespace Advert

/-- The absolute number acknowledged: the SYN, the bytes and the FIN. -/
def position (a : Advert) : Nat := 1 + a.assembled + if a.ended then 1 else 0

/-- The right edge: the number and the window in the header. -/
def edge (a : Advert) : Nat := a.position + a.seg.header.win.toNat

/-- A segment that goes out while `r` is the receiver. -/
def of (r : TCPReceiver) (seg : TCPSegment) : Advert where
  seg
  assembled := r.streamOut.writeCount
  ended := r.streamOut.inputEnded
  free := r.streamOut.remainingCapacity

end Advert

/-- An endpoint and the acknowledgments it has put out. -/
structure Announcer where
  endpoint : Endpoint
  adverts : List Advert := []
  deriving DecidableEq

namespace Announcer

/-- All that an operation puts out leaves in `judge_do` at its end, so the receiver afterwards is the one that the
headers were completed from. -/
def step (w : Announcer) (op : Op) : Option Announcer :=
  (w.endpoint.step op).map fun endpoint => {
    endpoint
    adverts := w.adverts ++
      ((endpoint.conn.segmentsOut.drop w.endpoint.conn.segmentsOut.length).filter (·.announces)).map
        (.of endpoint.conn.receiver) }

/-- The right edge never moves left: the acknowledgments that went out carry the number of the bytes assembled, a window
that fits the free space, and edges in order. -/
structure EdgeKept (w : Announcer) : Prop where
  emitted : w.adverts.map (·.seg) = w.endpoint.conn.segmentsOut.filter (·.announces)
  captured : ∀ a ∈ w.adverts, a.seg.header.ackno = wrap a.position w.endpoint.conn.receiver.isn
  room : ∀ a ∈ w.adverts, a.seg.header.win.toNat ≤ a.free
  ordered : w.adverts.Pairwise fun a b => a.edge ≤ b.edge

/-- The invariant: the receiver's own edge is the last one. -/
structure Announces (w : Announcer) : Prop where
  sends : w.endpoint.Sends
  counted : w.endpoint.conn.receiver.Counted
  kept : w.EdgeKept
  latest : ∀ a ∈ w.adverts, w.endpoint.conn.receiver.syn = true ∧ a.edge ≤ w.endpoint.conn.receiver.rightEdge

theorem Announces.new (cfg : TCPConfig) : Announces { endpoint := .new cfg } where
  sends := .new cfg
  counted := .new cfg.recvFits
  kept := ⟨rfl, by simp, by simp, List.Pairwise.nil⟩
  latest := by simp

section Step

variable {w w' : Announcer} {op : Op}

/-- What is announced now: its edge is the receiver's. -/
theorem advert_of {r : TCPReceiver} (h : r.Counted) {seg : TCPSegment} (ackno : r.ackno = some seg.header.ackno)
    (win : seg.header.win.toNat = min r.windowSize 65535) :
    r.syn = true ∧ seg.header.ackno = wrap (Advert.of r seg).position r.isn ∧
      seg.header.win.toNat ≤ (Advert.of r seg).free ∧ (Advert.of r seg).edge = r.rightEdge := by
  obtain ⟨syn, number⟩ := h.ackno_eq ackno
  refine ⟨syn, number, ?_, ?_⟩
  · rw [win]
    exact Nat.min_le_left _ _
  · rw [Advert.edge, show (Advert.of r seg).seg = seg from rfl, win]
    rfl

/-- **Every operation** on a segment that ends below `2 ^ 64` keeps the invariant. -/
theorem Announces.step (h : Announces w) (numbered : w.endpoint.Numbered op) (run : w.step op = some w') :
    Announces w' := by
  obtain ⟨e, stepped, rfl⟩ := Option.map_eq_some_iff.1 run
  obtain ⟨moves, new, out, promised⟩ := h.sends.promises h.counted numbered stepped
  have dropped : e.conn.segmentsOut.drop w.endpoint.conn.segmentsOut.length = new := by
    rw [out, List.drop_left]
  have latest : ∀ a ∈ w.adverts, e.conn.receiver.syn = true ∧ a.edge ≤ e.conn.receiver.rightEdge := fun a old =>
    ⟨(moves.syn (h.latest a old).1).1, Nat.le_trans (h.latest a old).2 moves.edge⟩
  have announced : ∀ a ∈ (new.filter (·.announces)).map (Advert.of e.conn.receiver), e.conn.receiver.syn = true ∧
      a.seg.header.ackno = wrap a.position e.conn.receiver.isn ∧ a.seg.header.win.toNat ≤ a.free ∧
        a.edge = e.conn.receiver.rightEdge := by
    intro a member
    obtain ⟨seg, filtered, rfl⟩ := List.mem_map.1 member
    obtain ⟨fresh, announces⟩ := List.mem_filter.1 filtered
    obtain ⟨ackno, win⟩ := promised seg fresh announces
    exact advert_of moves.counted ackno win
  refine ⟨h.sends.step stepped, moves.counted, ⟨?_, ?_, ?_, ?_⟩, ?_⟩ <;> simp only [dropped]
  · rw [List.map_append, h.kept.emitted, out, List.filter_append, List.map_map]
    exact congrArg _ (List.map_id _)
  · refine fun a member => (List.mem_append.1 member).elim (fun old => ?_) fun new => (announced a new).2.1
    rw [(moves.syn (h.latest a old).1).2]
    exact h.kept.captured a old
  · exact fun a member => (List.mem_append.1 member).elim (h.kept.room a) fun new => (announced a new).2.2.1
  · refine List.pairwise_append.2 ⟨h.kept.ordered, ?_, fun a old b new => ?_⟩
    · exact List.pairwise_of_forall_mem_list fun a new b new' =>
        Nat.le_of_eq ((announced a new).2.2.2.trans (announced b new').2.2.2.symm)
    · rw [(announced b new).2.2.2]
      exact (latest a old).2
  · exact fun a member => (List.mem_append.1 member).elim (latest a) fun new =>
      ⟨(announced a new).1, Nat.le_of_eq (announced a new).2.2.2⟩

end Step

/-! ### A stream of `2 ^ 64` bytes -/

/-- The first `n` bytes of a stream numbered from 0 were received and read, with a window of two, and the last
acknowledgment promised room for more. -/
structure Supplied (n : Nat) (w : Announcer) : Prop where
  idle : w.endpoint.conn.sender.Idle
  active : w.endpoint.conn.active = true
  noRst : w.endpoint.conn.rst = false
  drained : w.endpoint.conn.receiver.Drained (.ofNat 0) 2 n
  promised : ∃ before seg, w.endpoint.conn.segmentsOut = before ++ [seg] ∧ seg.header.ackno = wrap (1 + n) (.ofNat 0) ∧
    seg.header.win.toNat ≠ 0

section Supply

variable {w : Announcer} {n : Nat}

/-- The next bytes are answered. -/
theorem Supplied.answers (h : w.Supplied n) {data : List UInt8} (some : data ≠ []) {r : TCPReceiver}
    (run : w.endpoint.conn.receiver.segmentReceived? (.carrying (.ofNat 0) n data) = Option.some r)
    (going : r.fullFined = false) {ackno : WrappingInt32} (number : r.ackno = Option.some ackno) :
    ∃ w' seg, w.step (.segmentReceived (.carrying (.ofNat 0) n data)) = Option.some w' ∧
      w'.endpoint.conn = { w.endpoint.conn with
        receiver := r
        lastSegTimer := 0
        segmentsOut := w.endpoint.conn.segmentsOut ++ [seg] } ∧
      w'.adverts = w.adverts ++ [.of r seg] ∧ seg.header.ackno = ackno ∧ seg.header.win.toNat = min r.windowSize 65535 := by
  obtain ⟨e, stepped, conn⟩ := Endpoint.step_answers h.idle h.active h.noRst some run going number
  have win := TCPConnection.toNat_advertised { w.endpoint.conn with receiver := r }
  refine ⟨_, _, by rw [step, stepped, Option.map_some], conn, ?_, rfl, win⟩
  rw [conn]
  simp only [List.drop_left]
  rfl

/-- One byte is received, and then read. -/
theorem Supplied.feed (h : w.Supplied n) (below : n + 2 < word64) :
    ∃ w' w'', w.step (.segmentReceived (.carrying (.ofNat 0) n [0])) = some w' ∧ w'.step (.read 1) = some w'' ∧
      w''.Supplied (n + 1) := by
  have one : ([0] : List UInt8).length ≤ 2 := by decide
  obtain ⟨r, run, fed⟩ := h.drained.received (by decide) below (List.cons_ne_nil 0 []) (Or.inl one)
  obtain ⟨number, drained⟩ := fed.drained h.drained below one
  obtain ⟨w', seg, stepped, conn, -, ackno, win⟩ := h.answers (List.cons_ne_nil 0 []) run fed.fullFined number
  have window : r.windowSize = 1 := (fed.counts h.drained).2
  obtain ⟨w'', read, conn'⟩ : ∃ w'', w'.step (.read 1) = some w'' ∧ w''.endpoint.conn = { w.endpoint.conn with
      receiver := r.popOutput 1
      lastSegTimer := 0
      segmentsOut := w.endpoint.conn.segmentsOut ++ [seg] } := by
    refine ⟨_, rfl, ?_⟩
    show w'.endpoint.conn.popInbound 1 = _
    rw [conn]
    rfl
  refine ⟨w', w'', stepped, read, ?_⟩
  constructor <;> rw [conn']
  · exact h.idle
  · exact h.active
  · exact h.noRst
  · exact drained
  · exact ⟨_, seg, rfl, ackno, by rw [win, window]; decide⟩

/-- A passive open with room for two bytes. -/
theorem supplied_zero :
    ∃ w, Reaches Announcer.step (fun _ _ => True)
      { endpoint := .new { isn := .ofNat 0, recvCapacity := 2, recvFits := by decide } } w ∧ w.Supplied 0 := by
  obtain ⟨w, run, seen⟩ := Option.map_eq_some_iff.1 (show (follow Announcer.step (fun _ _ => True)
    { endpoint := .new { isn := .ofNat 0, recvCapacity := 2, recvFits := by decide } }
    [.segmentReceived { header := { syn := true } }]).map (fun w => (w.endpoint.conn.receiver,
      decide (w.endpoint.conn.sender.syned = true ∧ w.endpoint.conn.sender.fillWindow = w.endpoint.conn.sender ∧
        w.endpoint.conn.sender.segmentsOut = [] ∧ w.endpoint.conn.sender.resendTryTimes = 0 ∧
        w.endpoint.conn.sender.fullFined = false ∧ w.endpoint.conn.active = true ∧ w.endpoint.conn.rst = false),
      w.endpoint.conn.segmentsOut.map fun seg => (seg.header.ackno, seg.header.win))) =
    some ({ TCPReceiver.new 2 with syn := true, lastAckno := some (.ofNat 1) }, true, [(.ofNat 1, 2)]) by decide +kernel)
  simp only [Prod.mk.injEq, decide_eq_true_eq] at seen
  obtain ⟨receiver, ⟨syned, fills, queue, few, unfinished, active, noRst⟩, out⟩ := seen
  refine ⟨w, Reaches.start.follow run, ⟨syned, fills, queue, few, unfinished⟩, active, noRst, ?_, [], ?_⟩
  · rw [receiver]
    exact ⟨⟨rfl, rfl, rfl, rfl, by decide, by decide, rfl⟩, rfl, rfl, rfl, rfl, rfl⟩
  · obtain ⟨seg, one, number⟩ := List.map_eq_singleton_iff.1 out
    obtain ⟨ackno, win⟩ := Prod.mk.inj number
    exact ⟨seg, one, ackno, by rw [win]; decide⟩

/-- **Any number of bytes** that the index can count. -/
theorem supplied (n : Nat) (below : n + 1 < word64) :
    ∃ w, Reaches Announcer.step (fun _ _ => True)
      { endpoint := .new { isn := .ofNat 0, recvCapacity := 2, recvFits := by decide } } w ∧ w.Supplied n := by
  induction n with
  | zero => exact supplied_zero
  | succ n ih =>
    obtain ⟨w, reached, supplied⟩ := ih (by omega)
    obtain ⟨w', w'', fed, read, more⟩ := supplied.feed (by omega)
    exact ⟨w'', (reached.step trivial fed).step trivial read, more⟩

end Supply

/-- **The advertised right edge never moves left**, in every run in which the segments that arrive end below index
`2 ^ 64`, whatever they hold. -/
theorem edge_kept (cfg : TCPConfig) (w : Announcer)
    (run : Reaches Announcer.step (fun w => w.endpoint.Numbered) { endpoint := .new cfg } w) : w.EdgeKept := by
  have announces : Announces w := run.invariant (.new cfg) fun _ _ _ announces numbered step => announces.step numbered step
  exact announces.kept

/-- A window of 3 bytes: data out of order, the byte before it, a read, and the FIN. -/
theorem edge_kept_window :
    ∃ w, follow Announcer.step (fun w => w.endpoint.Numbered)
        { endpoint := .new { isn := .ofNat 0, recvCapacity := 3, recvFits := by decide } }
        [.segmentReceived { header := { syn := true, win := 10 } },
          .segmentReceived { header := { seqno := .ofNat 2 }, payload := [2, 3, 4] },
          .segmentReceived { header := { seqno := .ofNat 1 }, payload := [1] }, .read 2,
          .segmentReceived { header := { seqno := .ofNat 4, fin := true } }] = some w ∧
      w.adverts.map (fun a => (a.seg.header.ackno, a.seg.header.win, a.edge)) =
        [(.ofNat 1, 3, 4), (.ofNat 1, 3, 4), (.ofNat 4, 0, 4), (.ofNat 5, 2, 7)] ∧ w.EdgeKept := by
  obtain ⟨w, run, seen⟩ := Option.map_eq_some_iff.1 (show (follow Announcer.step (fun w => w.endpoint.Numbered)
    { endpoint := .new { isn := .ofNat 0, recvCapacity := 3, recvFits := by decide } }
    [.segmentReceived { header := { syn := true, win := 10 } },
      .segmentReceived { header := { seqno := .ofNat 2 }, payload := [2, 3, 4] },
      .segmentReceived { header := { seqno := .ofNat 1 }, payload := [1] }, .read 2,
      .segmentReceived { header := { seqno := .ofNat 4, fin := true } }]).map
      (fun w => w.adverts.map fun a => (a.seg.header.ackno, a.seg.header.win, a.edge)) =
        some [(.ofNat 1, 3, 4), (.ofNat 1, 3, 4), (.ofNat 4, 0, 4), (.ofNat 5, 2, 7)] by decide +kernel)
  exact ⟨w, run, seen, edge_kept _ w (Reaches.start.follow run)⟩

/-- A window is taken back: of a stream received and read byte by byte, the segment with the bytes at `2 ^ 64 - 3` and
the two after it is answered with the number of the answer before it and a smaller window. -/
theorem edge_moves_left :
    ∃ cfg w, Reaches Announcer.step (fun _ _ => True) { endpoint := .new cfg } w ∧ ¬ w.EdgeKept ∧
      ∃ before x y, w.endpoint.conn.segmentsOut = before ++ [x, y] ∧ x.header.ackno = y.header.ackno ∧
        y.header.win < x.header.win := by
  obtain ⟨w, reached, supplied⟩ := supplied (word64 - 3) (by decide)
  generalize counted : word64 - 3 = n at supplied
  have full : n + 3 = word64 := by rw [← counted]; decide
  have three : ([0, 0, 0] : List UInt8) ≠ [] := by simp
  obtain ⟨r, run, fed⟩ := supplied.drained.received (by decide) (by omega) three (Or.inr full)
  obtain ⟨count, window⟩ : r.streamOut.writeCount = n + 2 ∧ r.windowSize = 0 := fed.counts supplied.drained
  obtain ⟨stale, isn⟩ := fed.stale full
  rw [supplied.drained.ackno] at stale
  obtain ⟨w', y, stepped, conn, adverts, ackno, win⟩ := supplied.answers three run fed.fullFined stale
  obtain ⟨before, x, out, promised, some⟩ := supplied.promised
  refine ⟨_, w', reached.step trivial stepped, fun kept => ?_, before, x, y, ?_, promised.trans ackno.symm, ?_⟩
  · -- two bytes were written, and the number is that of none of them
    have captured := kept.captured (.of r y) (by rw [adverts]; simp)
    have noEnd : r.streamOut.inputEnded = false := by
      rw [fed.output]
      exact supplied.drained.synced.ended.trans supplied.drained.going.2
    have position : (Advert.of r y).position = n + 3 := by
      simp only [Advert.position, Advert.of, noEnd, count, Bool.false_eq_true, if_false]
      omega
    have zero : w'.endpoint.conn.receiver.isn = .ofNat 0 := by
      rw [conn]
      exact isn.trans supplied.drained.synced.isn
    rw [show (Advert.of r y).seg = y from rfl, ackno, position, zero] at captured
    have raw := congrArg WrappingInt32.rawValue captured
    rw [wrap_rawValue, wrap_rawValue, WrappingInt32.rawValue_ofNat] at raw
    simp only [word32] at raw
    omega
  · rw [conn, out]
    simp
  · rw [UInt16.lt_iff_toNat_lt, win, window]
    exact Nat.pos_of_ne_zero some

end Announcer

end Sponge
