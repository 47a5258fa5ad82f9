import Mathlib.Order.Bounds.Basic
import Sponge.Stream.ReassemblerRep

/-!
# The reassembler against a set of byte positions

What the reassembler is for: of a stream `S` that arrives in pieces, the
positions accepted so far form a set, the output is the prefix of `S` up to the
least position missing from it, and the rest of the set is waiting. `Watched`
runs the reassembler next to that set; `Tracks` is the relation between the two,
kept by every push of a piece of `S` and every read.
-/

namespace Sponge

namespace StreamReassembler

/-- An operation on the reassembler of a stream `S`: the substring
`S[i .. i + n)` is pushed, or the reader takes up to `len` bytes. -/
inductive Op where
  | push (i n : Nat) (eof : Bool)
  | pop (len : Nat)
  deriving DecidableEq

/-- A substring lies in `S`, and only one that reaches its end carries `eof`. -/
def Op.Valid (S : List UInt8) : Op → Prop
  | .push i n eof => i + n ≤ S.length ∧ (eof = true → i + n = S.length)
  | .pop _ => True

instance (S : List UInt8) : DecidablePred (Op.Valid S)
  | .push i n eof => inferInstanceAs (Decidable (i + n ≤ S.length ∧ (eof = true → i + n = S.length)))
  | .pop _ => inferInstanceAs (Decidable True)

/-- The reassembler with what an observer knows: the bytes read, the positions
that a push contained while they were in the window, and whether an `eof` push
has occurred. -/
structure Watched where
  reassembler : StreamReassembler
  taken : List UInt8 := []
  accepted : Finset Nat := ∅
  eofPushed : Bool := false
  deriving DecidableEq

/-- One operation; `none` when `push_substring` throws. -/
def Watched.step (S : List UInt8) (c : Nat) (w : Watched) : Op → Option Watched
  | .push i n eof => (w.reassembler.pushSubstring? ((S.drop i).take n) i eof).map fun r =>
    { reassembler := r
      taken := w.taken
      accepted := w.accepted ∪ Finset.Ico i (min (i + n) (w.taken.length + c))
      eofPushed := w.eofPushed || eof }
  | .pop len => some { w with
      reassembler := w.reassembler.popOutput len
      taken := w.taken ++ w.reassembler.output.peekOutput len }

/-- A sequence of operations on a new reassembler of capacity `c`. -/
def Watched.run (S : List UInt8) (c : Nat) (ops : List Op) : Option Watched :=
  ops.foldlM (Watched.step S c) { reassembler := .new c }

/-- The reassembler `r` of capacity `c` agrees with the positions `accepted` of
`S`, the bytes `taken` from it and the `eof` pushes. -/
structure Tracks (S : List UInt8) (c : Nat) (r : StreamReassembler) (taken : List UInt8) (accepted : Set Nat)
    (eofPushed : Bool) : Prop where
  rep : r.Rep
  pieces : r.PiecesOf S
  capacity : r.output.capacity = c
  reads : r.output.readCount = taken.length
  bytes : taken ++ r.output.pending = S.take r.firstIndex
  inside : r.firstIndex ≤ S.length
  held : ∀ p, p ∈ accepted ↔ p ∈ r.held
  eof : r.eof = eofPushed
  eofIndex : eofPushed = true → r.eofIndex = S.length
  eofed : r.eofed = true ↔ eofPushed = true ∧ r.firstIndex = S.length
  ended : r.output.inputEnded = r.eofed

theorem Tracks.new (S : List UInt8) (c : Nat) : Tracks S c (.new c) [] ∅ false where
  rep := ⟨rfl, by simp [StreamReassembler.new], by simp [StreamReassembler.new, Separated],
    by simp [StreamReassembler.new], rfl⟩
  pieces := by simp [PiecesOf, StreamReassembler.new]
  capacity := rfl
  reads := rfl
  bytes := rfl
  inside := Nat.zero_le _
  held := by simp [mem_held, StreamReassembler.new]
  eof := rfl
  eofIndex := by simp
  eofed := by simp [StreamReassembler.new]
  ended := rfl

theorem Rep.noteEof {r : StreamReassembler} (rep : r.Rep) (data : List UInt8) (index : Nat) (eof : Bool) :
    (r.noteEof data index eof).Rep :=
  ⟨by simpa using rep.written, by simpa [edge] using rep.wf, by simpa using rep.separated, by simpa using rep.after,
    by simpa using rep.counter⟩

theorem Rep.endIfComplete {r : StreamReassembler} (rep : r.Rep) : r.endIfComplete.Rep :=
  ⟨by simpa using rep.written, by simpa [edge] using rep.wf, by simpa using rep.separated, by simpa using rep.after,
    by simpa using rep.counter⟩

/-- A read moves the window's edge. -/
theorem Rep.popOutput {r : StreamReassembler} (rep : r.Rep) (len : Nat) : (r.popOutput len).Rep := by
  refine ⟨rep.written, fun e he => ?_, rep.separated, rep.after, rep.counter⟩
  have wf := rep.wf e he
  refine ⟨wf.nonempty, wf.last, Nat.le_trans wf.within ?_⟩
  simp only [edge, StreamReassembler.popOutput, ByteStream.popOutput]
  omega

section Step

variable {S : List UInt8} {c : Nat} {r : StreamReassembler} {taken : List UInt8} {accepted : Set Nat} {eofPushed : Bool}

/-- Once everything is assembled a push is ignored, and it has no byte outside the window. -/
theorem Tracks.push_ended (t : Tracks S c r taken accepted eofPushed) (done : r.eofed = true) {i n : Nat} (eof : Bool)
    (inside : i + n ≤ S.length) :
    Tracks S c r taken (accepted ∪ Set.Ico i (min (i + n) (taken.length + c))) (eofPushed || eof) := by
  obtain ⟨pushed, complete⟩ := t.eofed.1 done
  refine { t with held := fun p => ?_, eof := ?_, eofIndex := ?_, eofed := ?_ }
  · rw [Set.mem_union, t.held]
    refine ⟨fun h => h.elim id fun h => Or.inl ?_, Or.inl⟩
    have := h.2
    simp only [Set.mem_ofPred_eq]
    omega
  · rw [t.eof, pushed, Bool.true_or]
  · exact fun _ => t.eofIndex pushed
  · rw [pushed, Bool.true_or]
    exact ⟨fun _ => ⟨rfl, complete⟩, fun _ => done⟩

/-- The end that `eof` announces is that of `S`. -/
theorem Tracks.eofIndex_noteEof (t : Tracks S c r taken accepted eofPushed) {i n : Nat} {eof : Bool} {data : List UInt8}
    (length : data.length = n) (whole : S.length < word64) (last : eof = true → i + n = S.length)
    (pushed : (eofPushed || eof) = true) : (r.noteEof data i eof).eofIndex = S.length := by
  rw [noteEof_eofIndex, length, t.eof]
  cases eofPushed with
  | true => simpa using t.eofIndex rfl
  | false =>
    have isEof : eof = true := by simpa using pushed
    have ends := last isEof
    rw [isEof, add64_eq (by omega), ends]
    rfl

/-- **One push** of `S[i .. i + n)`. The window's edge is the only bound on the
capacity. -/
theorem Tracks.push (t : Tracks S c r taken accepted eofPushed) (i n : Nat) (eof : Bool) (whole : S.length < word64)
    (fits : taken.length + c < word64) (inside : i + n ≤ S.length) (last : eof = true → i + n = S.length) :
    ∃ r', r.pushSubstring? ((S.drop i).take n) i eof = some r' ∧
      Tracks S c r' taken (accepted ∪ Set.Ico i (min (i + n) (taken.length + c))) (eofPushed || eof) := by
  have length : ((S.drop i).take n).length = n := by simp; omega
  rw [pushSubstring?]
  by_cases done : r.eofed = true
  · exact ⟨r, if_pos done, t.push_ended done eof inside⟩
  · rw [if_neg done]
    have edgeEq : r.edge = taken.length + c := by rw [edge, t.reads, t.capacity]
    have rep := t.rep.noteEof ((S.drop i).take n) i eof
    have edge' : (r.noteEof ((S.drop i).take n) i eof).edge = taken.length + c := by
      rw [← edgeEq, edge, edge, noteEof_output]
    obtain ⟨r', run, post⟩ := accept_spec rep (by rw [edge']; exact fits) ((S.drop i).take n) i
      (Or.inl (by rw [length]; omega))
    obtain ⟨pieces, new, pending, piece, first⟩ := post.stream S (piece_slice n) (by
      simpa [PiecesOf] using t.pieces)
    simp only [noteEof_output, noteEof_firstIndex] at pending piece first
    have newLength := piece_length piece
    have firstInside := t.inside
    have open' : r.eofed = false := by simpa using done
    have eofEq : r'.eof = (eofPushed || eof) := by rw [post.eof.1, noteEof_eof, t.eof]
    have eofIndexEq : (eofPushed || eof) = true → r'.eofIndex = S.length := by
      intro pushed
      rw [post.eof.2.1, t.eofIndex_noteEof length whole last pushed]
    have eofedEq : r'.eofed = false := by rw [post.eof.2.2, noteEof_eofed, open']
    refine ⟨r'.endIfComplete, by rw [run]; rfl, ?_⟩
    refine {
      rep := post.rep.endIfComplete
      pieces := by simpa [PiecesOf] using pieces
      capacity := ?_, reads := ?_, bytes := ?_, inside := ?_, held := ?_, eof := ?_, eofIndex := ?_, eofed := ?_, ended := ?_ }
    · rw [endIfComplete_capacity, post.capacity, noteEof_output, t.capacity]
    · rw [endIfComplete_readCount, post.reads, noteEof_output, t.reads]
    · rw [endIfComplete_pending, endIfComplete_firstIndex, pending, first, ← List.append_assoc, t.bytes,
        take_append_piece piece]
    · rw [endIfComplete_firstIndex, first]
      omega
    · intro p
      have held := post.held p
      simp only [mem_held, endIfComplete_firstIndex, endIfComplete_unassembled, noteEof_firstIndex,
        noteEof_unassembled] at held ⊢
      rw [held, Set.mem_union, t.held]
      refine or_congr Iff.rfl ?_
      rw [InWindow, edge', length, Set.mem_Ico, lt_min_iff]
    · rw [endIfComplete_eof, eofEq]
    · rw [endIfComplete_eofIndex]
      exact eofIndexEq
    · rw [endIfComplete_eofed, endIfComplete_firstIndex, eofedEq, Bool.false_or, eofEq, Bool.and_eq_true, beq_iff_eq]
      exact and_congr_right fun pushed => by rw [eofIndexEq pushed]
    · rw [endIfComplete_inputEnded, endIfComplete_eofed, post.ended, noteEof_output, t.ended, eofedEq, open']

/-- **One read** of up to `len` bytes. -/
theorem Tracks.pop (t : Tracks S c r taken accepted eofPushed) (len : Nat) :
    Tracks S c (r.popOutput len) (taken ++ r.output.peekOutput len) accepted eofPushed := by
  have count : (r.output.peekOutput len).length = min r.output.buffer.size len := by
    rw [ByteStream.peekOutput_eq, List.length_take, ByteStream.length_pending, Nat.min_comm]
  refine { t with rep := t.rep.popOutput len, pieces := t.pieces, reads := ?_, bytes := ?_ }
  · rw [List.length_append, count, ← t.reads]
    rfl
  · rw [List.append_assoc]
    show taken ++ (r.output.peekOutput len ++ (r.output.popOutput len).pending) = _
    rw [ByteStream.peek_append_pop, t.bytes]
    rfl

/-- The first unassembled index is the least position missing. -/
theorem Tracks.missing (t : Tracks S c r taken accepted eofPushed) : IsLeast {p | p ∉ accepted} r.firstIndex := by
  constructor
  · intro mem
    rcases (t.held _).1 mem with below | ⟨run, hrun, lower, _⟩
    · exact Nat.lt_irrefl _ below
    · obtain ⟨e, he, rfl⟩ := List.mem_map.1 hrun
      exact Nat.not_lt.2 lower (t.rep.after e he)
  · intro p missing
    by_contra below
    exact missing ((t.held p).2 (Or.inl (Nat.lt_of_not_le below)))

/-- The accepted positions past it are those of the map. -/
theorem Tracks.waiting (t : Tracks S c r taken accepted eofPushed) :
    {p | p ∈ accepted ∧ r.firstIndex ≤ p} = covered (runs r.unassembled) := by
  ext p
  simp only [Set.mem_ofPred_eq]
  rw [t.held, mem_held]
  constructor
  · rintro ⟨below | stored, lower⟩
    · omega
    · exact stored
  · rintro ⟨run, hrun, lower, upper⟩
    refine ⟨Or.inr ⟨run, hrun, lower, upper⟩, ?_⟩
    obtain ⟨e, he, rfl⟩ := List.mem_map.1 hrun
    have := t.rep.after e he
    simp only [run_start] at lower
    omega

theorem Tracks.unassembledBytes (t : Tracks S c r taken accepted eofPushed) :
    r.unassembledBytes = Set.ncard {p | p ∈ accepted ∧ r.firstIndex ≤ p} := by
  rw [t.waiting, ncard_covered t.rep.separated, ← stored_eq_sum, t.rep.counter]

theorem Tracks.taken_le (t : Tracks S c r taken accepted eofPushed) : taken.length ≤ S.length := by
  have length := congrArg List.length t.bytes
  rw [List.length_append, List.length_take] at length
  omega

end Step

/-- The observer's record of `w` is right. -/
def Watched.Tracked (S : List UInt8) (c : Nat) (w : Watched) : Prop :=
  Tracks S c w.reassembler w.taken w.accepted w.eofPushed

theorem Watched.step_tracked {S : List UInt8} {c : Nat} (fits : c + S.length < word64) {w : Watched}
    (tracked : w.Tracked S c) {op : Op} (valid : op.Valid S) : ∃ w', w.step S c op = some w' ∧ w'.Tracked S c := by
  have taken := Tracks.taken_le tracked
  cases op with
  | push i n eof =>
    obtain ⟨r, run, post⟩ := Tracks.push tracked i n eof (by omega) (by omega) valid.1 valid.2
    refine ⟨_, by simp only [Watched.step, run, Option.map_some]; rfl, ?_⟩
    simpa [Watched.Tracked] using post
  | pop len => exact ⟨_, rfl, Tracks.pop tracked len⟩

/-- Every sequence of valid operations returns and keeps the record. -/
theorem Watched.run_tracked {S : List UInt8} {c : Nat} (fits : c + S.length < word64) (ops : List Op)
    (valid : ∀ op ∈ ops, op.Valid S) : ∃ w, Watched.run S c ops = some w ∧ w.Tracked S c := by
  have run : ∀ w : Watched, w.Tracked S c → ∃ w', ops.foldlM (Watched.step S c) w = some w' ∧ w'.Tracked S c := by
    induction ops with
    | nil => exact fun w tracked => ⟨w, rfl, tracked⟩
    | cons op ops ih =>
      intro w tracked
      obtain ⟨validOp, validOps⟩ := List.forall_mem_cons.1 valid
      obtain ⟨w', step, tracked'⟩ := Watched.step_tracked fits tracked validOp
      obtain ⟨w'', rest, tracked''⟩ := ih validOps w' tracked'
      exact ⟨w'', by rw [List.foldlM_cons, step]; exact rest, tracked''⟩
  refine run _ ?_
  simpa [Watched.Tracked] using Tracks.new S c

/-- **The reassembler is its set of bytes.** After any sequence of pushes of
substrings of `S` and reads, with `m` the least position not accepted: the output
is the prefix of `S` up to `m`, the positions waiting are the accepted ones past
`m`, and the input has ended iff an `eof` push occurred and nothing is missing. -/
theorem reassembler_is_byte_set (S : List UInt8) (c : Nat) (fits : c + S.length < 2 ^ 64) (ops : List Op)
    (valid : ∀ op ∈ ops, op.Valid S) :
    ∃ w, Watched.run S c ops = some w ∧ ∃ m, IsLeast {p | p ∉ w.accepted} m ∧ m ≤ S.length ∧
      w.taken ++ w.reassembler.output.pending = S.take m ∧
      w.reassembler.firstUnassembled = m ∧
      w.reassembler.unassembledBytes = (w.accepted.filter (m ≤ ·)).card ∧
      (w.reassembler.output.inputEnded = true ↔ w.eofPushed = true ∧ m = S.length) := by
  obtain ⟨w, run, tracked⟩ := Watched.run_tracked fits ops valid
  refine ⟨w, run, w.reassembler.firstIndex, by simpa using Tracks.missing tracked, tracked.inside, tracked.bytes, rfl,
    ?_, ?_⟩
  · rw [Tracks.unassembledBytes tracked, ← Set.ncard_coe_finset]
    congr 1
    ext p
    simp
  · rw [tracked.ended]
    exact tracked.eofed

/-- Overlapping and adjacent pieces out of order in a window of four bytes. -/
theorem reassembler_is_byte_set_overlap :
    ∃ w, Watched.run [1, 2, 3, 4, 5, 6] 4 [.push 1 2 false, .push 2 4 true, .push 0 2 false, .pop 3, .push 4 2 true] =
        some w ∧
      ∃ m, IsLeast {p | p ∉ w.accepted} m ∧ m ≤ 6 ∧
        w.taken ++ w.reassembler.output.pending = [1, 2, 3, 4, 5, 6].take m ∧
        w.reassembler.firstUnassembled = m ∧ w.reassembler.unassembledBytes = (w.accepted.filter (m ≤ ·)).card ∧
        (w.reassembler.output.inputEnded = true ↔ w.eofPushed = true ∧ m = 6) :=
  reassembler_is_byte_set [1, 2, 3, 4, 5, 6] 4 (by decide) _ (by decide)

end StreamReassembler

end Sponge
