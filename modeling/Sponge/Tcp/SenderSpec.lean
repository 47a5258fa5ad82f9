import Sponge.Logic.Reach
import Sponge.Tcp.LongStream

/-!
# Runs of the sender

`Watched` is the sender together with the bytes its stream accepted and the
segments `fill_window` put in `segments_out`. `Tiles` is what the class promises
about those segments. It keeps the promise in every run in which nothing is
written after the end of the input, until `2 ^ 64` sequence numbers have been
sent: `next_seqno_absolute()` is then 0 again.
-/

namespace Sponge

namespace TCPSender

/-- The operations of the class; `write` and `endInput` are those of `stream_in()`. -/
inductive Op where
  | write (data : List UInt8)
  | endInput
  | fillWindow
  | ackReceived (ackno : WrappingInt32) (windowSize : UInt16)
  | tick (ms : Nat)
  | sendEmptySegment
  deriving DecidableEq

def Op.apply (s : TCPSender) : Op → TCPSender
  | .write data => s.write data
  | .endInput => s.endInput
  | .fillWindow => s.fillWindow
  | .ackReceived ackno windowSize => s.ackReceived ackno windowSize
  | .tick ms => s.tick ms
  | .sendEmptySegment => s.sendEmptySegment

/-- A state that the operations reach from a new sender. -/
def Reachable (s : TCPSender) : Prop :=
  ∃ capacity retxTimeout isn,
    Reaches (fun s op => some (Op.apply s op)) (fun _ _ => True) (.new capacity retxTimeout isn) s

/-- The sender, the bytes its stream accepted and the segments `fill_window` created. -/
structure Watched where
  sender : TCPSender
  written : List UInt8 := []
  created : List TCPSegment := []
  deriving DecidableEq

def Watched.step (w : Watched) (op : Op) : Option Watched :=
  some {
    sender := op.apply w.sender
    written := match op with
      | .write data => w.written ++ data.take (w.sender.stream.writeLength data)
      | _ => w.written
    created := match op with
      | .fillWindow => w.created ++ appended w.sender (op.apply w.sender)
      | _ => w.created }

/-- Nothing is written once the input has ended. -/
def WritesBeforeEnd (w : Watched) (op : Op) : Prop :=
  ∀ data, op = .write data → w.sender.stream.inputEnded = false

/-- The created segments cover the sequence space from the SYN to the FIN without gap or overlap, in slices of the
written bytes, and everything else put out is an empty segment or a retransmission. -/
structure Tiles (isn : WrappingInt32) (w : Watched) : Prop where
  first : ∀ seg, w.created.head? = some seg → seg.header.syn = true ∧ seg.header.seqno = wrap 0 isn
  follows : ∀ k seg, w.created[k]? = some seg → seg.header.seqno = wrap (seqLength (w.created.take k)) isn
  onlySyn : ∀ k seg, w.created[k]? = some seg → seg.header.syn = true → k = 0
  payloads : carried w.created = w.written.take w.sender.stream.readCount
  fin : ∀ k seg, w.created[k]? = some seg → seg.header.fin = true →
    k + 1 = w.created.length ∧ w.sender.stream.inputEnded = true ∧ carried w.created = w.written
  next : w.sender.nextAbsSeqno = (if ∃ seg ∈ w.created, seg.header.syn = true then 1 else 0) +
    (carried w.created).length + (if ∃ seg ∈ w.created, seg.header.fin = true then 1 else 0)
  small : ∀ seg ∈ w.created, seg.payload.length ≤ TCPConfig.maxPayloadSize
  others : ∀ op : Op, op ≠ .fillWindow → ∀ seg ∈ appended w.sender (op.apply w.sender),
    seg = { header := { seqno := wrap w.sender.nextAbsSeqno isn } } ∨
      oldestUnacked w.created w.sender.lastAckedAbsSeqno = some seg

/-- The invariant of the runs. -/
structure Sound (isn : WrappingInt32) (w : Watched) : Prop where
  isn : w.sender.isn = isn
  tiled : Tiled w.created w.written w.sender
  closed : w.sender.Closed

section Step

variable {isn : WrappingInt32} {w w' : Watched}

/-- Every operation keeps the tiling, also a write after the end of the input. -/
theorem Tiled.step (h : Tiled w.created w.written w.sender) {op : Op} (run : w.step op = some w') :
    Tiled w'.created w'.written w'.sender := by
  cases run
  cases op with
  | write data => exact h.write data
  | endInput => exact h.endInput
  | fillWindow =>
    obtain ⟨new, out, tiled⟩ := h.fills w.sender.fillWindow_fills
    simp only [Op.apply, appended_eq out]
    exact tiled
  | ackReceived ackno windowSize => exact h.acked (w.sender.ackReceived_spec ackno windowSize)
  | tick ms => exact h.of_same (w.sender.tick_spec ms).1
  | sendEmptySegment => exact h.of_same ⟨rfl, rfl, rfl, rfl, rfl, rfl, rfl, rfl, rfl⟩

theorem Tiled.of_reaches {capacity : Nat} {retxTimeout : UInt16}
    (run : Reaches Watched.step (fun _ _ => True) { sender := .new capacity retxTimeout isn } w) :
    Tiled w.created w.written w.sender :=
  run.invariant (.new capacity retxTimeout isn) fun _ _ _ tiled _ step => Tiled.step tiled step

theorem Op.isn_apply (s : TCPSender) (op : Op) : (op.apply s).isn = s.isn := by
  cases op with
  | write | endInput | sendEmptySegment => rfl
  | fillWindow => exact s.fillWindow_fills.isn
  | ackReceived ackno windowSize => exact (s.ackReceived_spec ackno windowSize).isn
  | tick ms => exact (s.tick_spec ms).1.isn

theorem Sound.step (h : Sound isn w) {op : Op} (ok : WritesBeforeEnd w op) (run : w.step op = some w') :
    Sound isn w' := by
  have tiled := h.tiled.step run
  cases run
  refine ⟨(op.isn_apply w.sender).trans h.isn, tiled, ?_⟩
  cases op with
  | write data =>
    intro fined
    have ended := (h.closed fined).1
    rw [ok data rfl] at ended
    cases ended
  | endInput => exact fun fined => ⟨rfl, (h.closed fined).2⟩
  | fillWindow => exact h.closed.fills w.sender.fillWindow_fills
  | ackReceived ackno windowSize => exact h.closed.acked (w.sender.ackReceived_spec ackno windowSize)
  | tick ms => exact h.closed.of_same (w.sender.tick_spec ms).1
  | sendEmptySegment => exact h.closed

/-- What the operations other than `fill_window` put out. -/
theorem Sound.others (h : Sound isn w) {op : Op} (other : op ≠ .fillWindow) {seg : TCPSegment}
    (member : seg ∈ appended w.sender (op.apply w.sender)) :
    seg = { header := { seqno := wrap w.sender.nextAbsSeqno isn } } ∨
      oldestUnacked w.created w.sender.lastAckedAbsSeqno = some seg := by
  have nothing : ∀ {t : TCPSender}, t.segmentsOut = w.sender.segmentsOut → seg ∉ appended w.sender t := by
    intro t out
    rw [appended_nil out]
    exact List.not_mem_nil
  cases op with
  | write data => exact absurd member (nothing rfl)
  | endInput => exact absurd member (nothing rfl)
  | fillWindow => exact absurd rfl other
  | ackReceived ackno windowSize =>
    exact absurd member (nothing (w.sender.ackReceived_spec ackno windowSize).segmentsOut)
  | tick ms =>
    rcases (w.sender.tick_spec ms).2.2 with out | ⟨oldest, rest, front, out⟩
    · exact absurd member (nothing out)
    · simp only [Op.apply, appended_eq out, List.mem_singleton] at member
      rw [h.tiled.oldest, front, member]
      exact Or.inr rfl
  | sendEmptySegment =>
    simp only [Op.apply, appended_eq (show w.sender.sendEmptySegment.segmentsOut = _ from rfl),
      List.mem_singleton] at member
    rw [member, ← h.isn]
    exact Or.inl rfl

/-- The numbers that the created segments occupy. -/
theorem Sound.total (h : Sound isn w) : seqLength w.created =
    (if ∃ seg ∈ w.created, seg.header.syn = true then 1 else 0) + (carried w.created).length +
      (if ∃ seg ∈ w.created, seg.header.fin = true then 1 else 0) := by
  have synSent : (∃ seg ∈ w.created, seg.header.syn = true) ↔ w.sender.syned = true := by
    rw [h.tiled.syned]
    constructor
    · rintro ⟨seg, member, -⟩
      exact List.ne_nil_of_mem member
    · intro some
      obtain ⟨seg, rest, start⟩ := List.exists_cons_of_ne_nil some
      exact ⟨seg, by simp [start], (h.tiled.syn 0 seg (by simp [start])).2 rfl⟩
  have finSent : (∃ seg ∈ w.created, seg.header.fin = true) ↔ w.sender.fined = true := by
    constructor
    · rintro ⟨seg, member, fin⟩
      obtain ⟨k, found⟩ := List.mem_iff_getElem?.1 member
      exact (h.tiled.fin k seg found fin).2
    · exact fun fined => (h.tiled.fined fined).2
  rw [h.tiled.total]
  simp only [synSent, finSent]

theorem Sound.tiles (h : Sound isn w) (few : seqLength w.created < 2 ^ 64) : Tiles isn w where
  first := by
    intro seg head
    rw [List.head?_eq_getElem?] at head
    have number := h.tiled.numbered 0 seg head
    rw [h.isn] at number
    exact ⟨(h.tiled.syn 0 seg head).2 rfl, number⟩
  follows := by
    intro k seg found
    rw [← h.isn]
    exact h.tiled.numbered k seg found
  onlySyn := fun k seg found => (h.tiled.syn k seg found).1
  payloads := by
    rw [h.tiled.read, ← h.tiled.bytes, List.take_left' rfl]
  fin := by
    intro k seg found fin
    obtain ⟨last, fined⟩ := h.tiled.fin k seg found fin
    obtain ⟨ended, empty⟩ := h.closed fined
    have bytes := h.tiled.bytes
    rw [empty, List.append_nil] at bytes
    exact ⟨last, ended, bytes⟩
  next := by
    rw [← h.total]
    exact h.tiled.flight.next_eq few
  small := fun seg member => (h.tiled.plain seg member).2.1
  others := fun op other seg member => h.others other member

theorem Sound.start (capacity : Nat) (retxTimeout : UInt16) (isn : WrappingInt32) :
    Sound isn { sender := .new capacity retxTimeout isn } where
  isn := rfl
  tiled := .new capacity retxTimeout isn
  closed := by
    intro fined
    cases fined

theorem Sound.of_reaches {capacity : Nat} {retxTimeout : UInt16}
    (run : Reaches Watched.step WritesBeforeEnd { sender := .new capacity retxTimeout isn } w) : Sound isn w :=
  run.invariant (.start capacity retxTimeout isn) fun _ _ _ sound ok step => sound.step ok step

/-- **The sender tiles its sequence space** in every run, whatever acknowledgments and windows it is given, until it has
sent `2 ^ 64` numbers. -/
theorem sender_tiles_iff (capacity : Nat) (retxTimeout : UInt16) (isn : WrappingInt32) (w : Watched)
    (run : Reaches Watched.step WritesBeforeEnd { sender := .new capacity retxTimeout isn } w) :
    Tiles isn w ↔ seqLength w.created < 2 ^ 64 := by
  have sound := Sound.of_reaches run
  refine ⟨fun tiles => ?_, sound.tiles⟩
  rw [sound.total, ← tiles.next, sound.tiled.flight.next]
  exact Nat.mod_lt _ (by decide)

end Step

instance (w : Watched) : DecidablePred (WritesBeforeEnd w)
  | .write _ => decidable_of_iff (w.sender.stream.inputEnded = false) (by simp [WritesBeforeEnd])
  | .endInput | .fillWindow | .ackReceived _ _ | .tick _ | .sendEmptySegment => isTrue (by simp [WritesBeforeEnd])

/-- SYN, two bytes acknowledged one by one, a probe of a closed window, the FIN and a retransmission of it. -/
theorem sender_tiles_iff_probe :
    ∃ w, follow Watched.step WritesBeforeEnd { sender := .new 8 1000 (.ofNat (2 ^ 32 - 1)) }
        [.write [7, 8], .fillWindow, .ackReceived (.ofNat 0) 1, .fillWindow, .ackReceived (.ofNat 1) 0, .fillWindow,
          .ackReceived (.ofNat 2) 3, .endInput, .fillWindow, .tick 1000, .sendEmptySegment] = some w ∧
      w.created.length = 4 ∧ Tiles (.ofNat (2 ^ 32 - 1)) w := by
  obtain ⟨w, run, made⟩ := Option.map_eq_some_iff.1 (show (follow Watched.step WritesBeforeEnd
    { sender := .new 8 1000 (.ofNat (2 ^ 32 - 1)) }
    [.write [7, 8], .fillWindow, .ackReceived (.ofNat 0) 1, .fillWindow, .ackReceived (.ofNat 1) 0, .fillWindow,
      .ackReceived (.ofNat 2) 3, .endInput, .fillWindow, .tick 1000, .sendEmptySegment]).map
      (fun w => (w.created.length, seqLength w.created)) = some (4, 4) by decide +kernel)
  obtain ⟨segments, numbers⟩ := Prod.mk.inj made
  exact ⟨w, run, segments, (sender_tiles_iff _ _ _ w (Reaches.start.follow run)).2 (by rw [numbers]; decide)⟩

/-! ### A run of `2 ^ 64` numbers -/

/-- The byte of a round. -/
def Watched.push (w : Watched) : Watched where
  sender := w.sender.pushByte
  written := w.written ++ [0].take (w.sender.stream.writeLength [0])
  created := w.created ++ appended (w.sender.write [0]) w.sender.pushByte

theorem Watched.push_reaches {first w : Watched} (reached : Reaches Watched.step WritesBeforeEnd first w)
    (unended : w.sender.stream.inputEnded = false) : Reaches Watched.step WritesBeforeEnd first w.push := by
  have wrote : Reaches Watched.step WritesBeforeEnd first { w with
      sender := w.sender.write [0]
      written := w.written ++ [0].take (w.sender.stream.writeLength [0]) } :=
    reached.step (a := .write [0]) (fun _ _ => unended) rfl
  exact wrote.step (a := .fillWindow) (fun _ is => by cases is) rfl

/-- **Any number of numbers** that is a word can be sent and acknowledged. -/
theorem level_reached (n : Nat) (below : n + 1 < word64) :
    ∃ w, Reaches Watched.step WritesBeforeEnd { sender := .new 1 1000 (.ofNat 0) } w ∧ w.sender.Level (n + 1) := by
  induction n with
  | zero =>
    obtain ⟨w, run, level⟩ := Option.map_eq_some_iff.1 (show (follow Watched.step WritesBeforeEnd
      { sender := .new 1 1000 (.ofNat 0) } [.fillWindow, .ackReceived (.ofNat 1) 1]).map
        (fun w => decide (w.sender.Level 1)) = some true by decide +kernel)
    exact ⟨w, Reaches.start.follow run, of_decide_eq_true level⟩
  | succ n ih =>
    obtain ⟨w, reached, level⟩ := ih (by omega)
    refine ⟨_, (Watched.push_reaches reached level.unended).step
      (a := .ackReceived (wrap (n + 1 + 1) w.push.sender.isn) 1) (fun _ is => by cases is) rfl, ?_⟩
    exact (level.pushed (by omega)).acknowledged below

/-- The byte sent when `2 ^ 64 - 1` numbers were sent and acknowledged takes the next number to 0. -/
theorem wrapped_reached : ∃ w, Reaches Watched.step WritesBeforeEnd { sender := .new 1 1000 (.ofNat 0) } w ∧
    w.sender.nextAbsSeqno = 0 ∧ w.sender.lastAckedAbsSeqno = 2 ^ 64 - 1 := by
  obtain ⟨w, reached, level⟩ := level_reached (2 ^ 64 - 2) (by decide)
  have pushed := level.pushed (by decide)
  exact ⟨w.push, Watched.push_reaches reached level.unended, pushed.next.trans (by decide), pushed.acked⟩

/-- The next number is 0 although the SYN and `2 ^ 64 - 1` bytes were sent. -/
theorem next_number_wraps :
    ¬ ∀ (capacity : Nat) (retxTimeout : UInt16) (isn : WrappingInt32) (w : Watched),
      Reaches Watched.step WritesBeforeEnd { sender := .new capacity retxTimeout isn } w → Tiles isn w := by
  intro claim
  obtain ⟨w, reached, next, acked⟩ := wrapped_reached
  have tiles := claim 1 1000 (.ofNat 0) w reached
  have sound := Sound.of_reaches reached
  have sent := sound.tiled.flight.acked
  rw [sound.total, ← tiles.next, next, acked] at sent
  omega

end TCPSender

end Sponge
