import Sponge.Tcp.ReceiverAck

/-!
# The flags of the receiver, for any segments

`ReceiverSpec` and `ReceiverSafety` follow the receiver through the segments of
one stream. This module says what remains when the segments are arbitrary: the
SYN and the end of the stream, once noted, stay noted, and the error flag of the
stream is none of the receiver's business.
-/

namespace Sponge

namespace TCPReceiver

variable {r r' : TCPReceiver} {seg : TCPSegment}

theorem flagged_new (capacity : Nat) : (new capacity).Flagged := (unsynced_new capacity).flagged

theorem Flagged.fullFined (h : r.Flagged) : r.fullFined = r.streamOut.inputEnded := by
  rw [h.ended, Bool.eq_iff_iff, h.eofed, TCPReceiver.fullFined, beq_iff_eq]

theorem Flagged.ackno_isSome (h : r.Flagged) : r.ackno.isSome = r.syn := by
  rw [TCPReceiver.ackno, ← h.ackno]
  split <;> simp

theorem Flagged.popOutput (h : r.Flagged) (len : Nat) : (r.popOutput len).Flagged :=
  ⟨h.eof, h.eofed, h.ended, h.ackno, h.waiting⟩

theorem Flagged.setError (h : r.Flagged) : r.setError.Flagged := ⟨h.eof, h.eofed, h.ended, h.ackno, h.waiting⟩

theorem noteAssembled_fields (r : TCPReceiver) : r.noteAssembled.reassembler = r.reassembler ∧
    r.noteAssembled.fin = r.fin ∧ r.noteAssembled.syn = r.syn ∧
      (r.lastAckno.isSome = true → r.noteAssembled.lastAckno.isSome = true) := by
  unfold noteAssembled
  split
  · exact ⟨rfl, rfl, rfl, fun _ => rfl⟩
  · exact ⟨rfl, rfl, rfl, fun some => some⟩

theorem noteSyn_fields (r : TCPReceiver) (hder : TCPHeader) : (r.noteSyn hder).reassembler = r.reassembler ∧
    (r.noteSyn hder).fin = r.fin ∧ (r.noteSyn hder).syn = (r.syn || hder.syn) ∧
      (r.lastAckno.isSome = true ∨ hder.syn = true → (r.noteSyn hder).lastAckno.isSome = true) := by
  unfold noteSyn
  cases hder.syn with
  | true => exact ⟨rfl, rfl, (Bool.or_true _).symm, fun _ => rfl⟩
  | false => exact ⟨rfl, rfl, (Bool.or_false _).symm, fun some => some.resolve_right (by decide)⟩

/-- The updates between the push and the FIN. -/
theorem noted_fields (r : TCPReceiver) (hder : TCPHeader) (re : StreamReassembler) :
    let noted := { r with reassembler := re }.noteAssembled.noteSyn hder
    noted.reassembler = re ∧ noted.fin = r.fin ∧ noted.syn = (r.syn || hder.syn) ∧
      (r.lastAckno.isSome = true ∨ hder.syn = true → noted.lastAckno.isSome = true) := by
  obtain ⟨reassembler, fin, syn, ackno⟩ := noteAssembled_fields { r with reassembler := re }
  obtain ⟨reassembler', fin', syn', ackno'⟩ := noteSyn_fields { r with reassembler := re }.noteAssembled hder
  exact ⟨reassembler'.trans reassembler, fin'.trans fin, by rw [syn', syn], fun some => ackno' (some.imp_left ackno)⟩

/-- A segment the receiver takes: `_fin` only moves on. -/
theorem Flagged.afterPush (h : r.Flagged) (synced : r.syn = true ∨ seg.header.syn = true) {data : List UInt8}
    {index : Nat} {re : StreamReassembler} (run : r.reassembler.pushSubstring? data index seg.header.fin = some re) :
    (r.afterPush seg.header re).Flagged := by
  obtain ⟨eof, complete, stays, ended⟩ := h.pushed run
  obtain ⟨reassembler, fin, syn, ackno⟩ := noted_fields r seg.header re
  have synEq : (r.syn || seg.header.syn) = true := by
    rw [Bool.or_eq_true]
    exact synced
  rw [TCPReceiver.afterPush]
  generalize { r with reassembler := re }.noteAssembled.noteSyn seg.header = noted at *
  subst reassembler
  obtain ⟨synSame, -, -, acknoSame, -, eofSame, eofedSame⟩ := noteFin_fields noted seg.header
  obtain ⟨eofFin, eofedFin, endedFin⟩ := noteFin_fin seg.header (by rw [fin]; exact eof) complete
    (by rw [fin]; exact stays) ended
  refine ⟨by rw [eofSame]; exact eofFin, by rw [eofedSame]; exact eofedFin, by rw [eofedSame]; exact endedFin, ?_, ?_⟩
  · rw [acknoSame, synSame, syn, synEq]
    exact ackno (synced.imp_left fun received => by rw [h.ackno, received])
  · intro waiting
    rw [synSame, syn, synEq] at waiting
    cases waiting

/-- A segment that is not ignored comes with the SYN or after it. -/
theorem synced_of_taken (taken : r.ignores seg = false) : r.syn = true ∨ seg.header.syn = true := by
  unfold ignores at taken
  cases received : r.syn <;> cases isSyn : seg.header.syn <;> simp_all

/-- What any segment leaves. -/
structure Took (seg : TCPSegment) (r r' : TCPReceiver) : Prop where
  flagged : r'.Flagged
  syn : r'.syn = (r.syn || seg.header.syn)
  full : r.fullFined = true → r'.fullFined = true
  fin : r.fin = .notReceived → seg.header.fin = false ∨ r.ignores seg = true → r'.fin = .notReceived
  error : r'.streamOut.error = r.streamOut.error

theorem noteFin_error (r : TCPReceiver) (hder : TCPHeader) : (r.noteFin hder).streamOut.error = r.streamOut.error := by
  unfold noteFin
  cases hder.fin <;> simp only [Bool.false_eq_true, if_true, if_false] <;> split <;> rfl

theorem noteFin_none (fin : r.fin = .notReceived) {hder : TCPHeader} (noFin : hder.fin = false) :
    (r.noteFin hder).fin = .notReceived := by
  simp [noteFin, noFin, fin]

/-- **Any segment**, if the receiver does not throw. -/
theorem Flagged.took (h : r.Flagged) (run : r.segmentReceived? seg = some r') : Took seg r r' := by
  unfold segmentReceived? at run
  split at run
  · rename_i ignored
    cases run
    refine ⟨h, ?_, fun full => full, fun fin _ => fin, rfl⟩
    unfold ignores at ignored
    cases received : r.syn <;> cases isSyn : seg.header.syn <;> simp_all
  · rename_i taken
    rw [Bool.not_eq_true] at taken
    obtain ⟨re, pushed, rfl⟩ := Option.map_eq_some_iff.1 run
    obtain ⟨eof, complete, stays, ended⟩ := h.pushed pushed
    have flagged := h.afterPush (synced_of_taken taken) pushed
    have error := StreamReassembler.pushSubstring?_error pushed
    obtain ⟨reassembler, fin, syn, -⟩ := noted_fields r seg.header re
    have eofed := (noteFin_fields ({ r with reassembler := re }.noteAssembled.noteSyn seg.header) seg.header).2.2.2.2.2.2
    have synSame := (noteFin_fields ({ r with reassembler := re }.noteAssembled.noteSyn seg.header) seg.header).1
    refine ⟨flagged, synSame.trans syn, fun full => ?_, fun none noFin => ?_, ?_⟩
    · rw [TCPReceiver.fullFined, beq_iff_eq] at full ⊢
      rw [← flagged.eofed, TCPReceiver.afterPush, eofed, reassembler]
      exact stays full
    · rw [TCPReceiver.afterPush]
      refine noteFin_none (fin.trans none) (noFin.resolve_right ?_)
      rw [taken]
      decide
    · rw [TCPReceiver.afterPush, noteFin_error, streamOut, reassembler, error]
      rfl

end TCPReceiver

end Sponge
