import Sponge.Tcp.TCPReceiver

/-!
# The acknowledgment number

`_ackno` is kept through `_last_abseqno`, `_isn` and the SYN's own case, in
which `_isn` is still 0. `Unsynced` is the receiver before the SYN and `Synced`
the one after it: the number is `x + 1` plus the assembled bytes, plus one when
the end of the stream is reached.
-/

namespace Sponge

namespace TCPReceiver

/-- No SYN has been received. -/
structure Unsynced (r : TCPReceiver) : Prop where
  syn : r.syn = false
  fin : r.fin = .notReceived
  isn : r.isn = .ofNat 0
  last : r.lastAbseqno = 0
  ackno : r.lastAckno = none
  eof : r.reassembler.eof = false
  eofed : r.reassembler.eofed = false
  ended : r.streamOut.inputEnded = false

/-- The SYN was numbered `x`. -/
structure Synced (x : WrappingInt32) (r : TCPReceiver) : Prop where
  syn : r.syn = true
  isn : r.isn = x
  last : r.lastAbseqno = r.reassembler.firstIndex - 1
  ackno : r.lastAckno = some (wrap (1 + r.reassembler.firstIndex) x)
  eof : r.reassembler.eof = true ↔ r.fin ≠ .notReceived
  eofed : r.reassembler.eofed = true ↔ r.fin = .reached
  ended : r.streamOut.inputEnded = r.reassembler.eofed

theorem Synced.fullFined {x : WrappingInt32} {r : TCPReceiver} (h : r.Synced x) :
    r.fullFined = r.streamOut.inputEnded := by
  rw [h.ended, Bool.eq_iff_iff, h.eofed, TCPReceiver.fullFined, beq_iff_eq]

/-- `ackno()`, as an absolute number. -/
theorem Synced.ackno_eq {x : WrappingInt32} {r : TCPReceiver} (h : r.Synced x) :
    r.ackno = some (wrap (1 + r.reassembler.firstIndex + if r.streamOut.inputEnded then 1 else 0) x) := by
  have ended : r.streamOut.inputEnded = true ↔ r.fin = .reached := by rw [h.ended, h.eofed]
  rw [TCPReceiver.ackno, h.ackno]
  by_cases reached : r.fin = .reached
  · rw [if_pos reached, if_pos (ended.2 reached), Option.map_some, wrap_add]
  · rw [if_neg reached, if_neg (fun h => reached (ended.1 h)), Nat.add_zero]

theorem Unsynced.ackno_eq {r : TCPReceiver} (h : r.Unsynced) : r.ackno = none := by
  rw [TCPReceiver.ackno, h.fin, h.ackno]
  rfl

theorem Unsynced.fullFined {r : TCPReceiver} (h : r.Unsynced) : r.fullFined = false := by
  rw [TCPReceiver.fullFined, h.fin]
  rfl

/-- A reader or an error changes the stream, not the numbers. -/
theorem Synced.withOutput {x : WrappingInt32} {r : TCPReceiver} (h : r.Synced x) (output : ByteStream)
    (ended : output.inputEnded = r.streamOut.inputEnded) :
    { r with reassembler := { r.reassembler with output } }.Synced x :=
  ⟨h.syn, h.isn, h.last, h.ackno, h.eof, h.eofed, ended.trans h.ended⟩

theorem Unsynced.withOutput {r : TCPReceiver} (h : r.Unsynced) (output : ByteStream)
    (ended : output.inputEnded = r.streamOut.inputEnded) :
    { r with reassembler := { r.reassembler with output } }.Unsynced :=
  ⟨h.syn, h.fin, h.isn, h.last, h.ackno, h.eof, h.eofed, ended.trans h.ended⟩

theorem unsynced_new (capacity : Nat) : (new capacity).Unsynced := ⟨rfl, rfl, rfl, rfl, rfl, rfl, rfl, rfl⟩

/-- Ending an ended input changes nothing, so the reassembler is as the push left it. -/
theorem afterPush_reassembler (r : TCPReceiver) (hder : TCPHeader) {re : StreamReassembler}
    (ended : re.output.inputEnded = re.eofed) : (r.afterPush hder re).reassembler = re := by
  have noted : ({ r with reassembler := re }.noteAssembled.noteSyn hder).reassembler = re := by
    unfold noteSyn noteAssembled
    split <;> split <;> rfl
  have fin : ∀ r : TCPReceiver, r.reassembler = re → (r.noteFin hder).reassembler = re := by
    intro r same
    unfold noteFin
    have reassembler : (if hder.fin then { r with fin := FinState.received } else r).reassembler = re := by
      split <;> exact same
    generalize (if hder.fin then { r with fin := FinState.received } else r) = r' at *
    simp only
    split
    · rename_i done
      rw [reassembler] at done ⊢
      rw [done.2] at ended
      apply StreamReassembler.ext <;> try rfl
      simp only [ByteStream.endInput]
      rw [← ended]
    · exact reassembler
  exact fin _ noted

section Step

variable {x : WrappingInt32} {r : TCPReceiver} {hder : TCPHeader} {re : StreamReassembler}

/-- The change to `_fin = 2` leaves the numbers alone. -/
theorem noteFin_fields (r : TCPReceiver) (hder : TCPHeader) :
    (r.noteFin hder).syn = r.syn ∧ (r.noteFin hder).isn = r.isn ∧ (r.noteFin hder).lastAbseqno = r.lastAbseqno ∧
      (r.noteFin hder).lastAckno = r.lastAckno ∧ (r.noteFin hder).reassembler.firstIndex = r.reassembler.firstIndex ∧
      (r.noteFin hder).reassembler.eof = r.reassembler.eof ∧
      (r.noteFin hder).reassembler.eofed = r.reassembler.eofed := by
  unfold noteFin
  cases hder.fin <;> simp only [Bool.false_eq_true, if_true, if_false] <;> split <;>
    exact ⟨rfl, rfl, rfl, rfl, rfl, rfl, rfl⟩

/-- `_fin` after a push: it follows the end-of-input fields of the reassembler. -/
theorem noteFin_fin {r : TCPReceiver} (hder : TCPHeader)
    (eof : r.reassembler.eof = true ↔ r.fin ≠ .notReceived ∨ hder.fin = true)
    (complete : r.reassembler.eofed = true → r.reassembler.eof = true)
    (stays : r.fin = .reached → r.reassembler.eofed = true)
    (ended : r.streamOut.inputEnded = r.reassembler.eofed) :
    (r.reassembler.eof = true ↔ (r.noteFin hder).fin ≠ .notReceived) ∧
      (r.reassembler.eofed = true ↔ (r.noteFin hder).fin = .reached) ∧
      (r.noteFin hder).streamOut.inputEnded = r.reassembler.eofed := by
  unfold noteFin
  unfold streamOut at *
  cases isFin : hder.fin <;> cases old : r.fin <;> cases done : r.reassembler.eofed <;>
    simp_all [ByteStream.endInput]

/-- What the flags say of each other, whatever was received: `_fin` follows the reassembler, and there is an
acknowledgment number from the SYN on. -/
structure Flagged (r : TCPReceiver) : Prop where
  eof : r.reassembler.eof = true ↔ r.fin ≠ .notReceived
  eofed : r.reassembler.eofed = true ↔ r.fin = .reached
  ended : r.streamOut.inputEnded = r.reassembler.eofed
  ackno : r.lastAckno.isSome = r.syn
  waiting : r.syn = false → r.fin = .notReceived

theorem Synced.flagged (h : r.Synced x) : r.Flagged where
  eof := h.eof
  eofed := h.eofed
  ended := h.ended
  ackno := by rw [h.ackno, h.syn]; rfl
  waiting := by
    intro none
    rw [h.syn] at none
    cases none

theorem Unsynced.flagged (h : r.Unsynced) : r.Flagged where
  eof := by simp [h.eof, h.fin]
  eofed := by simp [h.eofed, h.fin]
  ended := by rw [h.ended, h.eofed]
  ackno := by rw [h.ackno, h.syn]; rfl
  waiting := fun _ => h.fin

/-- The end-of-input fields after the push of a segment, before `_fin` changes. -/
theorem Flagged.pushed (h : r.Flagged) {data : List UInt8} {index : Nat} {eof : Bool}
    (run : r.reassembler.pushSubstring? data index eof = some re) :
    (re.eof = true ↔ r.fin ≠ .notReceived ∨ eof = true) ∧ (re.eofed = true → re.eof = true) ∧
      (r.fin = .reached → re.eofed = true) ∧ re.output.inputEnded = re.eofed := by
  have ended := h.ended
  unfold streamOut at ended
  cases done : r.reassembler.eofed with
  | true =>
    have same : re = r.reassembler := by
      rw [StreamReassembler.pushSubstring?, done] at run
      exact (Option.some.inj run).symm
    have reached := h.eofed.1 done
    subst same
    exact ⟨⟨fun _ => Or.inl (by rw [reached]; decide), fun _ => h.eof.2 (by rw [reached]; decide)⟩,
      fun _ => h.eof.2 (by rw [reached]; decide), fun _ => done, ended⟩
  | false =>
    obtain ⟨eofEq, eofedEq, endedEq⟩ := StreamReassembler.pushSubstring?_eof run done
    refine ⟨by rw [eofEq, Bool.or_eq_true, h.eof], fun complete => ?_, fun reached => ?_, ?_⟩
    · rw [eofedEq, Bool.and_eq_true] at complete
      exact complete.1
    · rw [h.eofed.2 reached] at done
      cases done
    · rw [endedEq, ended, done, Bool.false_or]

/-- A segment after the SYN. -/
theorem Synced.afterPush (h : r.Synced x) (noSyn : hder.syn = false) {data : List UInt8} {index : Nat}
    (run : r.reassembler.pushSubstring? data index hder.fin = some re)
    (grows : r.reassembler.firstIndex ≤ re.firstIndex) : (r.afterPush hder re).Synced x := by
  obtain ⟨eof, complete, stays, ended⟩ := h.flagged.pushed run
  have noted : ({ r with reassembler := re }.noteAssembled.noteSyn hder) = { r with
      reassembler := re
      lastAbseqno := re.firstIndex - 1
      lastAckno := some (wrap (1 + re.firstIndex) x) } := by
    have last := h.last
    rw [noteSyn, if_neg (by rw [noSyn]; decide), noteAssembled]
    simp only [StreamReassembler.firstUnassembled, h.syn, if_true, h.isn]
    split
    · rw [wrap_add]
      congr 3
      omega
    · have zero : re.firstIndex = 0 := by omega
      have zeroOld : r.reassembler.firstIndex = 0 := by omega
      rw [zero]
      have ackno := h.ackno
      rw [zeroOld] at ackno last
      rw [← ackno, ← last]
  rw [TCPReceiver.afterPush, noted]
  obtain ⟨synEq, isnEq, lastEq, acknoEq, firstEq, eofEq, eofedEq⟩ := noteFin_fields { r with
      reassembler := re, lastAbseqno := re.firstIndex - 1, lastAckno := some (wrap (1 + re.firstIndex) x) } hder
  obtain ⟨fin, reached, endedEq⟩ := noteFin_fin hder (r := { r with
      reassembler := re, lastAbseqno := re.firstIndex - 1, lastAckno := some (wrap (1 + re.firstIndex) x) })
    eof complete stays ended
  exact ⟨by rw [synEq]; exact h.syn, by rw [isnEq]; exact h.isn, by rw [lastEq, firstEq], by rw [acknoEq, firstEq],
    by rw [eofEq]; exact fin, by rw [eofedEq]; exact reached, by rw [endedEq, eofedEq]⟩

/-- The SYN, with or without a payload. -/
theorem Unsynced.afterPush (h : r.Unsynced) (isSyn : hder.syn = true) {data : List UInt8} {index : Nat}
    (run : r.reassembler.pushSubstring? data index hder.fin = some re) : (r.afterPush hder re).Synced hder.seqno := by
  obtain ⟨eofEq, eofedEq, endedEq⟩ := StreamReassembler.pushSubstring?_eof run h.eofed
  have noted : ({ r with reassembler := re }.noteAssembled.noteSyn hder) = { r with
      reassembler := re
      syn := true
      isn := hder.seqno
      lastAbseqno := re.firstIndex - 1
      lastAckno := some (wrap (1 + re.firstIndex) hder.seqno) } := by
    rw [noteSyn, if_pos isSyn, noteAssembled]
    simp only [StreamReassembler.firstUnassembled, h.syn, h.isn, Bool.false_eq_true, if_false]
    split
    · -- the number was computed from `_isn = 0`, and is shifted to the SYN's
      simp only [WrappingInt32.add_sub_one]
      congr 2
      apply WrappingInt32.ext_raw
      simp only [WrappingInt32.rawValue_add, wrap_rawValue, WrappingInt32.rawValue_ofNat, word32]
      omega
    · have zero : re.firstIndex = 0 := by omega
      rw [zero]
      simp only [h.ackno, h.last]
      congr 2
      rw [Nat.add_comm, ← wrap_add 0 1, wrap_zero]
  rw [TCPReceiver.afterPush, noted]
  obtain ⟨synEq, isnEq, lastEq, acknoEq, firstEq, eofEq', eofedEq'⟩ := noteFin_fields { r with
      reassembler := re, syn := true, isn := hder.seqno, lastAbseqno := re.firstIndex - 1,
      lastAckno := some (wrap (1 + re.firstIndex) hder.seqno) } hder
  obtain ⟨fin, reached, endedEq'⟩ := noteFin_fin hder (r := { r with
      reassembler := re, syn := true, isn := hder.seqno, lastAbseqno := re.firstIndex - 1,
      lastAckno := some (wrap (1 + re.firstIndex) hder.seqno) })
    (by simp [eofEq, h.eof, h.fin]) (by simp only [eofedEq, Bool.and_eq_true]; exact fun h => h.1)
    (by simp [h.fin]) (by
      have ended := h.ended
      simp only [streamOut] at ended ⊢
      rw [endedEq, ended, Bool.false_or])
  exact ⟨synEq, isnEq, by rw [lastEq, firstEq], by rw [acknoEq, firstEq], by rw [eofEq']; exact fin,
    by rw [eofedEq']; exact reached, by rw [endedEq', eofedEq']⟩

end Step

end TCPReceiver

end Sponge
