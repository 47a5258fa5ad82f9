import Sponge.Logic.Reach
import Sponge.Stream.ReassemblerSpec

/-!
# The representation invariant under arbitrary input

Substrings of any bytes at any 64-bit index, in any order and contradicting each
other, interleaved with reads. `Rep` is kept by every push as long as the window's
edge is a 64-bit number, and the edge is the bytes read plus the capacity. Every
position that was ever written out was in a push, so the bytes read are no more
than the bytes pushed (`Fed.Kept`); with both below `2 ^ 62` the edge is below
`2 ^ 63`. An index at which a substring would pass `2 ^ 64` lies past the edge and
is dropped by the early exit.
-/

namespace Sponge

namespace StreamReassembler

/-- What is claimed of a reassembler made with `capacity`. -/
structure Invariant (capacity : Nat) (r : StreamReassembler) : Prop where
  ordered : ∀ e ∈ r.unassembled, e.start ≤ e.last
  apart : r.unassembled.Pairwise fun a b => a.last + 1 < b.start
  whole : ∀ e ∈ r.unassembled, e.bytes.size = e.last - e.start + 1
  after : ∀ e ∈ r.unassembled, r.firstUnassembled < e.start
  below : ∀ e ∈ r.unassembled, e.last < r.output.readCount + capacity
  bytes : r.unassembledBytes = (r.unassembled.map fun e => e.bytes.size).sum
  written : r.firstUnassembled = r.output.writeCount
  room : r.output.bufferSize + r.unassembledBytes ≤ capacity

theorem Rep.invariant {r : StreamReassembler} (rep : r.Rep) {capacity : Nat} (same : r.output.capacity = capacity) :
    r.Invariant capacity := by
  have last : ∀ e ∈ r.unassembled, e.last + 1 = e.start + e.bytes.size := fun e he => (rep.wf e he).last
  have positive : ∀ e ∈ r.unassembled, 0 < e.bytes.size := fun e he => (rep.wf e he).nonempty
  refine ⟨fun e he => ?_, ?_, fun e he => ?_, rep.after, fun e he => ?_, rep.counter, rep.written, ?_⟩
  · have := last e he
    have := positive e he
    omega
  · refine (List.pairwise_map.1 rep.separated).imp_of_mem fun {a b} ha _ gap => ?_
    rw [last a ha]
    exact gap
  · have := last e he
    have := positive e he
    omega
  · have within := (rep.wf e he).within
    have := last e he
    rw [← same]
    simp only [edge] at within
    omega
  · have small := stored_le rep.firstIndex_le rep.wf rep.separated fun e he => Nat.le_of_lt (rep.after e he)
    have counted := r.output.counted
    have written := rep.written
    rw [ByteStream.bufferSize, rep.counter, ← same]
    simp only [edge] at small
    omega

/-- The positions held are those written out and those stored. -/
theorem Rep.ncard_held {r : StreamReassembler} (rep : r.Rep) : r.held.ncard = r.firstIndex + r.unassembledBytes := by
  have apart : Disjoint {p | p < r.firstIndex} (covered (runs r.unassembled)) := by
    rw [Set.disjoint_left]
    rintro p below ⟨run, hrun, lower, -⟩
    obtain ⟨e, he, rfl⟩ := List.mem_map.1 hrun
    have := rep.after e he
    simp only [Set.mem_ofPred_eq, run_start] at below lower
    omega
  have initial : {p | p < r.firstIndex}.ncard = r.firstIndex := by
    rw [show {p | p < r.firstIndex} = ↑(Finset.range r.firstIndex) by ext p; simp, Set.ncard_coe_finset,
      Finset.card_range]
  rw [held, Set.ncard_union_eq apart (Set.finite_lt_nat _) (finite_covered _), initial, ncard_covered rep.separated,
    ← stored_eq_sum, rep.counter]

theorem finite_held (r : StreamReassembler) : r.held.Finite := (Set.finite_lt_nat _).union (finite_covered _)

/-- A push holds at most its own bytes in addition. -/
theorem Accepted.ncard_held {r r' : StreamReassembler} {data : List UInt8} {index : Nat} (h : Accepted r data index r') :
    r'.held.ncard ≤ r.held.ncard + data.length := by
  have inside : r'.held ⊆ r.held ∪ ↑(Finset.Ico index (index + data.length)) := by
    intro p hp
    rcases (h.held p).1 hp with old | new
    · exact Or.inl old
    · exact Or.inr (by simpa using ⟨new.1, new.2.1⟩)
  calc r'.held.ncard
      ≤ (r.held ∪ ↑(Finset.Ico index (index + data.length))).ncard :=
        Set.ncard_le_ncard inside (r.finite_held.union (Finset.finite_toSet _))
    _ ≤ r.held.ncard + (↑(Finset.Ico index (index + data.length)) : Set Nat).ncard := Set.ncard_union_le _ _
    _ = r.held.ncard + data.length := by rw [Set.ncard_coe_finset, Nat.card_Ico, Nat.add_sub_cancel_left]

/-- The calls on a reassembler, with any arguments. -/
inductive Feed where
  | push (data : List UInt8) (index : Nat) (eof : Bool)
  | pop (len : Nat)

/-- A reassembler and the number of bytes pushed so far. -/
structure Fed where
  reassembler : StreamReassembler
  pushed : Nat := 0

namespace Fed

/-- One call; `none` when `push_substring` throws. -/
def step (w : Fed) : Feed → Option Fed
  | .push data index eof => (w.reassembler.pushSubstring? data index eof).map fun r => ⟨r, w.pushed + data.length⟩
  | .pop len => some { w with reassembler := w.reassembler.popOutput len }

/-- The index is a 64-bit number, and fewer than `2 ^ 62` bytes are pushed in total. -/
def Modest (w : Fed) : Feed → Prop
  | .push data index _ => index < word64 ∧ w.pushed + data.length < 2 ^ 62
  | .pop _ => True

instance (w : Fed) : DecidablePred w.Modest
  | .push data index _ => inferInstanceAs (Decidable (index < word64 ∧ w.pushed + data.length < 2 ^ 62))
  | .pop _ => .isTrue trivial

/-- What is held was pushed. -/
structure Kept (capacity : Nat) (w : Fed) : Prop where
  rep : w.reassembler.Rep
  capacity : w.reassembler.output.capacity = capacity
  held : w.reassembler.held.ncard ≤ w.pushed
  pushed : w.pushed < 2 ^ 62

section Steps

variable {capacity : Nat} {w : Fed}

theorem Kept.edge (h : w.Kept capacity) (small : capacity < 2 ^ 62) : w.reassembler.edge < 2 ^ 63 := by
  have held := h.held
  have pushed := h.pushed
  have written := h.rep.written
  have counted := w.reassembler.output.counted
  rw [h.rep.ncard_held] at held
  rw [StreamReassembler.edge, h.capacity]
  omega

/-- A push that is not ignored returns and keeps the invariant. -/
theorem Kept.push (h : w.Kept capacity) (small : capacity < 2 ^ 62) {data : List UInt8} {index : Nat} (eof : Bool)
    (modest : w.Modest (.push data index eof)) :
    ∃ r, w.reassembler.pushSubstring? data index eof = some r ∧ Kept capacity ⟨r, w.pushed + data.length⟩ := by
  have edge := h.edge small
  rw [pushSubstring?]
  split
  · exact ⟨_, rfl, h.rep, h.capacity, Nat.le_add_right_of_le h.held, modest.2⟩
  · have rep := h.rep.noteEof data index eof
    have same : (w.reassembler.noteEof data index eof).edge = w.reassembler.edge := by
      simp only [StreamReassembler.edge, noteEof_output]
    have old : (w.reassembler.noteEof data index eof).held = w.reassembler.held := by
      simp only [StreamReassembler.held, noteEof_firstIndex, noteEof_unassembled]
    -- an index that overflows lies past the edge
    have indexFits : index + data.length < word64 ∨ (w.reassembler.noteEof data index eof).edge ≤ index := by
      have length := modest.2
      rw [same]
      simp only [word64]
      omega
    obtain ⟨r, run, post⟩ := accept_spec rep (by rw [same]; unfold word64; omega) data index indexFits
    have more := post.ncard_held
    rw [old] at more
    refine ⟨r.endIfComplete, by rw [run]; rfl, post.rep.endIfComplete, ?_, ?_, modest.2⟩
    · rw [endIfComplete_capacity, post.capacity, noteEof_output, h.capacity]
    · have same : r.endIfComplete.held = r.held := by
        simp only [StreamReassembler.held, endIfComplete_firstIndex, endIfComplete_unassembled]
      rw [same]
      exact Nat.le_trans more (Nat.add_le_add_right h.held _)

theorem Kept.total (h : w.Kept capacity) (small : capacity < 2 ^ 62) {op : Feed} (modest : w.Modest op) :
    ∃ w', w.step op = some w' ∧ w'.Kept capacity := by
  cases op with
  | push data index eof =>
    obtain ⟨r, run, kept⟩ := h.push small eof modest
    exact ⟨_, by rw [step, run]; rfl, kept⟩
  | pop len => exact ⟨_, rfl, h.rep.popOutput len, h.capacity, h.held, h.pushed⟩

end Steps

/-- **The representation invariant under arbitrary input.** In every state that is reached by pushes of any bytes at any
index, and reads, it holds, and no further push throws. -/
theorem representation_invariant (capacity : Nat) (small : capacity < 2 ^ 62) {w : Fed}
    (run : Reaches step Modest { reassembler := .new capacity } w) :
    w.reassembler.Invariant capacity ∧ ∀ op, w.Modest op → (w.step op).isSome = true := by
  have kept : w.Kept capacity := by
    refine run.invariant ⟨(Tracks.new [] capacity).rep, rfl, ?_, (by decide : 0 < 2 ^ 62)⟩ fun s op s' kept modest step => ?_
    · rw [(Tracks.new [] capacity).rep.ncard_held]
      exact Nat.le_refl _
    · obtain ⟨next, run, kept'⟩ := kept.total small modest
      cases step.symm.trans run
      exact kept'
  refine ⟨kept.rep.invariant kept.capacity, fun op modest => ?_⟩
  obtain ⟨next, run, -⟩ := kept.total small modest
  rw [run]
  rfl

/-- Contradicting substrings, one of them at the last 64-bit index. -/
theorem representation_invariant_garbage :
    ∃ w, follow step Modest { reassembler := .new 8 }
        [.push [1, 2] 3 false, .push [9, 9, 9] 2 true, .push [7, 7] (2 ^ 64 - 1) false, .push [5] 0 true, .pop 1,
          .push [6, 6] 7 false] = some w ∧
      w.reassembler.unassembled.map (fun e => (e.start, e.last)) = [(2, 4), (7, 8)] ∧
      w.reassembler.Invariant 8 := by
  obtain ⟨w, run, seen⟩ := Option.map_eq_some_iff.1 (show (follow step Modest { reassembler := .new 8 }
      [.push [1, 2] 3 false, .push [9, 9, 9] 2 true, .push [7, 7] (2 ^ 64 - 1) false, .push [5] 0 true, .pop 1,
        .push [6, 6] 7 false]).map (fun w => w.reassembler.unassembled.map fun e => (e.start, e.last)) =
      some [(2, 4), (7, 8)] by decide +kernel)
  exact ⟨w, run, seen, (representation_invariant 8 (by decide) (Reaches.start.follow run)).1⟩

end Fed

end StreamReassembler

end Sponge
