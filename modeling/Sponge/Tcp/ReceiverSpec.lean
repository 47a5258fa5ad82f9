import Sponge.Logic.Reach
import Sponge.Stream.ReassemblerSpec
import Sponge.Tcp.ReceiverAck
import Mathlib.Tactic.IntervalCases

/-!
# The receiver against the stream it receives

A sender's stream `S` numbered from `x` arrives in segments: any segments before
the SYN, the SYN with a prefix of `S`, then slices of `S` in any order, further
SYNs, and reads in between. `Correct` is what the receiver should report in each
state reached: the assembled bytes, the acknowledgment number, the window and
the end of the stream.
-/

namespace Sponge

namespace TCPReceiver

/-- A segment arrives, with the place `i` of its payload in `S`, or the reader
takes up to `len` bytes. -/
inductive Arrival where
  | segment (seg : TCPSegment) (i : Nat)
  | read (len : Nat)
  deriving DecidableEq

/-- The receiver with what an observer knows: the bytes read, the positions that
arrived inside the window, and whether a SYN and a FIN were received. -/
structure Watched where
  receiver : TCPReceiver
  taken : List UInt8 := []
  accepted : Finset Nat := ∅
  synReceived : Bool := false
  finReceived : Bool := false
  deriving DecidableEq

/-- One arrival. A segment before the SYN and a further SYN carry nothing. -/
def Watched.step (c : Nat) (w : Watched) : Arrival → Option Watched
  | .segment seg i => (w.receiver.segmentReceived? seg).map fun receiver =>
    if seg.header.syn = w.synReceived then { w with receiver }
    else
      { receiver
        taken := w.taken
        accepted := w.accepted ∪ Finset.Ico i (min (i + seg.payload.length) (w.taken.length + c))
        synReceived := true
        finReceived := w.finReceived || seg.header.fin }
  | .read len => some { w with
      receiver := w.receiver.popOutput len
      taken := w.taken ++ w.receiver.streamOut.peekOutput len }

/-- The segments of the stream `S` numbered from `x`: the SYN with a prefix of
`S`, then slices less than `2 ^ 31` away from the bytes assembled. A FIN comes
with the last byte. -/
def Admissible (S : List UInt8) (x : WrappingInt32) (w : Watched) : Arrival → Prop
  | .segment seg i =>
    seg.header.syn = w.synReceived ∨
    (i + seg.payload.length ≤ S.length ∧ seg.payload = (S.drop i).take seg.payload.length ∧
      (seg.header.fin = true → i + seg.payload.length = S.length) ∧
      (w.synReceived = false → i = 0 ∧ seg.header.seqno = x) ∧
      (w.synReceived = true → seg.header.seqno = x.add (1 + i) ∧
        i ≤ w.receiver.streamOut.writeCount + (2 ^ 31 - 3) ∧ w.receiver.streamOut.writeCount ≤ i + (2 ^ 31 - 3)))
  | .read _ => True

/-- What the receiver reports is right: with `m` the least position that has not
arrived in the window, `S[0 .. m)` is assembled, `ackno()` is empty before the
SYN and the number after `m` bytes and the end afterwards, `window_size()` is
the free space, and the end is seen when the FIN was received and nothing is
missing. -/
def Correct (S : List UInt8) (x : WrappingInt32) (c : Nat) (w : Watched) : Prop :=
  ∃ m, IsLeast {p | p ∉ w.accepted} m ∧ m ≤ S.length ∧
    w.taken ++ w.receiver.streamOut.pending = S.take m ∧
    w.receiver.ackno =
      (if w.synReceived then some (x.add (1 + m + if w.receiver.streamOut.inputEnded then 1 else 0)) else none) ∧
    w.receiver.windowSize = c - w.receiver.streamOut.pending.length ∧
    (w.receiver.fullFined = true ↔ w.receiver.streamOut.inputEnded = true) ∧
    (w.receiver.streamOut.inputEnded = true ↔ w.finReceived = true ∧ m = S.length)

/-- A segment arrives while the window's edge, the bytes read plus the capacity,
is a 64-bit number. -/
def EdgeFits (c : Nat) (w : Watched) : Arrival → Prop
  | .segment _ _ => w.taken.length + c < 2 ^ 64
  | .read _ => True

/-- The invariant of the runs. -/
structure Sound (S : List UInt8) (x : WrappingInt32) (c : Nat) (w : Watched) : Prop where
  tracks : StreamReassembler.Tracks S c w.receiver.reassembler w.taken w.accepted w.finReceived
  before : w.synReceived = false → w.receiver.Unsynced
  after : w.synReceived = true → w.receiver.Synced x

theorem wrap_eq_add (n : Nat) (x : WrappingInt32) : wrap n x = x.add n := by
  apply WrappingInt32.ext_raw
  rw [wrap_rawValue, WrappingInt32.rawValue_add, Nat.add_comm]

section Step

variable {S : List UInt8} {x : WrappingInt32} {c : Nat} {w : Watched}

theorem Sound.syn_eq (h : Sound S x c w) : w.receiver.syn = w.synReceived := by
  cases received : w.synReceived with
  | true => exact (h.after received).syn
  | false => exact (h.before received).syn

/-- A segment before the SYN, or a further SYN, is ignored. -/
theorem Sound.ignored (h : Sound S x c w) {seg : TCPSegment} (same : seg.header.syn = w.synReceived) :
    w.receiver.segmentReceived? seg = some w.receiver := by
  have ignores : w.receiver.ignores seg = true := by
    rw [ignores, h.syn_eq, same]
    cases w.synReceived <;> rfl
  rw [segmentReceived?, if_pos ignores]

/-- The place of a segment of the stream is read back from its number. -/
theorem Sound.place (h : Sound S x c w) (short : S.length < 2 ^ 63) {seg : TCPSegment} {i : Nat}
    (new : seg.header.syn ≠ w.synReceived) (first : w.synReceived = false → i = 0 ∧ seg.header.seqno = x)
    (later : w.synReceived = true → seg.header.seqno = x.add (1 + i) ∧
      i ≤ w.receiver.streamOut.writeCount + (2 ^ 31 - 3) ∧ w.receiver.streamOut.writeCount ≤ i + (2 ^ 31 - 3)) :
    w.receiver.ignores seg = false ∧ w.receiver.streamIndex seg = i := by
  rw [ignores, streamIndex, h.syn_eq]
  cases received : w.synReceived with
  | false =>
    have isSyn : seg.header.syn = true := by
      rw [received] at new
      simpa using new
    rw [isSyn, (first received).1]
    exact ⟨rfl, rfl⟩
  | true =>
    have noSyn : seg.header.syn = false := by
      rw [received] at new
      simpa using new
    obtain ⟨seqno, above, below⟩ := later received
    have synced := h.after received
    have written := h.tracks.rep.written
    have inside := h.tracks.inside
    simp only [streamOut, ← written] at above below
    rw [noSyn, seqno, ← wrap_eq_add, synced.isn, synced.last,
      unwrap_wrap x (by omega) (by omega) (by omega), Nat.add_comm 1 i, wrap_succ_sub_one,
      unwrap_wrap x (by omega) (by omega) (by omega)]
    simp

theorem Tracks.grows {r r' : StreamReassembler} {taken taken' : List UInt8} {a a' : Set Nat} {b b' : Bool}
    (t : StreamReassembler.Tracks S c r taken a b) (t' : StreamReassembler.Tracks S c r' taken' a' b')
    (more : a ⊆ a') : r.firstIndex ≤ r'.firstIndex :=
  t.missing.2 fun mem => t'.missing.1 (more mem)

/-- **One arrival** inside the 64-bit range: no exception, and the invariant stays. -/
theorem Sound.step (h : Sound S x c w) (short : S.length < 2 ^ 63) {a : Arrival} (ok : Admissible S x w a)
    (fits : EdgeFits c w a) : ∃ w', w.step c a = some w' ∧ Sound S x c w' := by
  cases a with
  | read len =>
    refine ⟨_, rfl, h.tracks.pop len, fun received => ?_, fun received => ?_⟩
    · obtain ⟨syn, fin, isn, last, ackno, eof, eofed, ended⟩ := h.before received
      exact ⟨syn, fin, isn, last, ackno, eof, eofed, ended⟩
    · obtain ⟨syn, isn, last, ackno, eof, eofed, ended⟩ := h.after received
      exact ⟨syn, isn, last, ackno, eof, eofed, ended⟩
  | segment seg i =>
    by_cases same : seg.header.syn = w.synReceived
    · exact ⟨w, by simp [Watched.step, h.ignored same, same], h⟩
    · obtain ⟨inside, payload, last, first, later⟩ := ok.resolve_left same
      obtain ⟨taken, place⟩ := h.place short same first later
      obtain ⟨re, run, post⟩ :=
        h.tracks.push i seg.payload.length seg.header.fin (by simp only [word64]; omega) fits inside last
      rw [← payload] at run
      have grows := Tracks.grows h.tracks post Set.subset_union_left
      refine ⟨{ receiver := w.receiver.afterPush seg.header re
                taken := w.taken
                accepted := w.accepted ∪ Finset.Ico i (min (i + seg.payload.length) (w.taken.length + c))
                synReceived := true
                finReceived := w.finReceived || seg.header.fin }, ?_, ?_, by simp, fun _ => ?_⟩
      · simp [Watched.step, segmentReceived?, taken, place, run, same]
      · simp only
        rw [afterPush_reassembler _ _ post.ended]
        simpa using post
      · cases received : w.synReceived with
        | true =>
          have noSyn : seg.header.syn = false := by rw [received] at same; simpa using same
          exact (h.after received).afterPush noSyn run grows
        | false =>
          have isSyn : seg.header.syn = true := by rw [received] at same; simpa using same
          have synced := (h.before received).afterPush isSyn run
          rw [(first received).2] at synced
          exact synced

theorem Sound.correct (h : Sound S x c w) : Correct S x c w := by
  refine ⟨w.receiver.reassembler.firstIndex, by simpa using h.tracks.missing, h.tracks.inside, h.tracks.bytes, ?_, ?_,
    ?_, ?_⟩
  · cases received : w.synReceived with
    | true => rw [(h.after received).ackno_eq, wrap_eq_add]; rfl
    | false => rw [(h.before received).ackno_eq]; rfl
  · rw [windowSize, ByteStream.remainingCapacity, ByteStream.length_pending, ← h.tracks.capacity]
    rfl
  · cases received : w.synReceived with
    | true => rw [(h.after received).fullFined]
    | false => rw [(h.before received).fullFined, (h.before received).ended]
  · show w.receiver.reassembler.output.inputEnded = true ↔ _
    rw [h.tracks.ended]
    exact h.tracks.eofed

end Step

theorem Sound.start (S : List UInt8) (x : WrappingInt32) (c : Nat) : Sound S x c { receiver := .new c } where
  tracks := by simpa [TCPReceiver.new] using StreamReassembler.Tracks.new S c
  before := fun _ => unsynced_new c
  after := by simp

/-- Admissible arrivals inside the 64-bit range. -/
def Admitted (S : List UInt8) (x : WrappingInt32) (c : Nat) (w : Watched) (a : Arrival) : Prop :=
  Admissible S x w a ∧ EdgeFits c w a

theorem Sound.of_reaches {S : List UInt8} {x : WrappingInt32} {c : Nat} (short : S.length < 2 ^ 63) {w : Watched}
    (run : Reaches (Watched.step c) (Admitted S x c) { receiver := .new c } w) : Sound S x c w := by
  refine run.invariant (.start S x c) fun w a w' sound ⟨ok, fits⟩ step => ?_
  obtain ⟨_, step', sound⟩ := sound.step short ok fits
  rw [step] at step'
  cases step'
  exact sound

/-- **The receiver across wrap-around.** In every run in which no segment arrives
after the window's edge has passed `2 ^ 64`, the receiver reports what it should
in every state, and no arrival makes it throw. -/
theorem receiver_correct (S : List UInt8) (x : WrappingInt32) (c : Nat) (short : S.length < 2 ^ 63) (w : Watched)
    (run : Reaches (Watched.step c) (Admitted S x c) { receiver := .new c } w) :
    Correct S x c w ∧ ∀ a, Admitted S x c w a → ∃ w', w.step c a = some w' := by
  have sound := Sound.of_reaches short run
  refine ⟨sound.correct, fun a ⟨ok, fits⟩ => ?_⟩
  obtain ⟨w', step, _⟩ := sound.step short ok fits
  exact ⟨w', step⟩

instance (S : List UInt8) (x : WrappingInt32) (w : Watched) : DecidablePred (Admissible S x w)
  | .segment _ _ => inferInstanceAs (Decidable (_ ∨ _))
  | .read _ => inferInstanceAs (Decidable True)

instance (c : Nat) (w : Watched) : DecidablePred (EdgeFits c w)
  | .segment _ _ => inferInstanceAs (Decidable (_ < _))
  | .read _ => inferInstanceAs (Decidable True)

instance (S : List UInt8) (x : WrappingInt32) (c : Nat) (w : Watched) : DecidablePred (Admitted S x c w) :=
  fun _ => inferInstanceAs (Decidable (_ ∧ _))

/-- A stream of three bytes numbered from `2 ^ 32 - 2`: a stray segment, the SYN
with the first byte, the last byte with the FIN, a read, the byte between. -/
theorem receiver_correct_wrapping :
    ∃ w, follow (Watched.step 3) (Admitted [7, 8, 9] (.ofNat (2 ^ 32 - 2)) 3) { receiver := .new 3 }
        [.segment { header := { ack := true } } 9,
          .segment { header := { seqno := .ofNat (2 ^ 32 - 2), syn := true }, payload := [7] } 0,
          .segment { header := { seqno := .ofNat 1, fin := true }, payload := [9] } 2, .read 1,
          .segment { header := { seqno := .ofNat 0 }, payload := [8] } 1] = some w ∧
      Correct [7, 8, 9] (.ofNat (2 ^ 32 - 2)) 3 w := by
  obtain ⟨w, run⟩ := Option.isSome_iff_exists.1 (show (follow (Watched.step 3)
    (Admitted [7, 8, 9] (.ofNat (2 ^ 32 - 2)) 3) { receiver := .new 3 } [.segment { header := { ack := true } } 9,
      .segment { header := { seqno := .ofNat (2 ^ 32 - 2), syn := true }, payload := [7] } 0,
      .segment { header := { seqno := .ofNat 1, fin := true }, payload := [9] } 2, .read 1,
      .segment { header := { seqno := .ofNat 0 }, payload := [8] } 1]).isSome = true by decide +kernel)
  exact ⟨w, run, (receiver_correct _ _ _ (by decide) w (Reaches.start.follow run)).1⟩

/-- With a capacity of `2 ^ 64 - 1` and one byte read, the window's edge is 0 and
the second byte is dropped. -/
theorem receiver_edge_overflow :
    ¬ ∀ (S : List UInt8) (x : WrappingInt32) (c : Nat), S.length < 2 ^ 63 → c < 2 ^ 64 →
      ∀ w, Reaches (Watched.step c) (Admissible S x) { receiver := .new c } w → Correct S x c w := by
  intro claim
  have facts : (follow (Watched.step (2 ^ 64 - 1)) (Admissible [1, 2] (.ofNat 0)) { receiver := .new (2 ^ 64 - 1) }
      [.segment { header := { syn := true }, payload := [1] } 0, .read 1,
        .segment { header := { seqno := .ofNat 2 }, payload := [2] } 1]).map
        (fun w => (w.accepted, w.taken ++ w.receiver.streamOut.pending)) = some ({0, 1}, [1]) := by
    decide +kernel
  obtain ⟨w, run, seen⟩ := Option.map_eq_some_iff.1 facts
  obtain ⟨m, least, _, bytes, _⟩ := claim [1, 2] (.ofNat 0) (2 ^ 64 - 1) (by decide) (by decide) w
    (Reaches.start.follow run)
  rw [(Prod.mk.inj seen).1] at least
  rw [(Prod.mk.inj seen).2] at bytes
  have two : 2 ∈ {p | p ∉ ({0, 1} : Finset Nat)} := by simp
  have upper := least.2 two
  have missing := least.1
  interval_cases m
  · exact missing (by decide)
  · exact missing (by decide)
  · exact absurd bytes (by decide)

end TCPReceiver

end Sponge
