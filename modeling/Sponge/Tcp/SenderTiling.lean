import Sponge.Tcp.TCPSender
import Mathlib.Algebra.Order.Group.Nat
import Mathlib.Data.List.TakeWhile

/-!
# The sender tiles its sequence space

What `fill_window` does is said once: it is a finite chain of creations
(`Fills`), each of which appends one segment to `segments_out` and to `_sent`
(`create`). The invariant `Tiled` relates the sender to the segments it has
created so far and to the bytes written into its stream. Every operation keeps
it, whatever acknowledgments arrive.

The numbers of `Tiled` are exact, and the sender's counters are these numbers as
64-bit words. No acknowledgment is accepted once `2 ^ 64` numbers have been sent:
`_next_abs_seqno` is then below `_last_acked_abs_seqno`, and stays there. So the
number acknowledged is a word that never wraps, and the difference of the two
counters is exact in every state (`InFlight`).
-/

namespace Sponge

/-- The segment as `_sent` holds it, with the number as a word. -/
def SentSegment.stored (e : SentSegment) : SentSegment := { e with expectedAck := e.expectedAck % word64 }

namespace TCPSender

/-- The sequence numbers that a list of segments occupies. -/
def seqLength (segs : List TCPSegment) : Nat := (segs.map TCPSegment.lengthInSequenceSpace).sum

/-- The bytes that a list of segments carries. -/
def carried (segs : List TCPSegment) : List UInt8 := segs.flatMap TCPSegment.payload

/-- The segments with the numbers that acknowledge them, the first one starting at `start`. -/
def stamp (start : Nat) : List TCPSegment → List SentSegment
  | [] => []
  | seg :: segs => ⟨start + seg.lengthInSequenceSpace, seg⟩ :: stamp (start + seg.lengthInSequenceSpace) segs

/-- The oldest of the created segments that is not fully acknowledged. -/
def oldestUnacked (created : List TCPSegment) (acked : Nat) : Option TCPSegment :=
  ((stamp 0 created).find? fun e => decide (acked < e.expectedAck)).map SentSegment.seg

@[simp] theorem seqLength_nil : seqLength [] = 0 := rfl

@[simp] theorem seqLength_append (left right : List TCPSegment) :
    seqLength (left ++ right) = seqLength left + seqLength right := by
  simp [seqLength]

@[simp] theorem seqLength_singleton (seg : TCPSegment) : seqLength [seg] = seg.lengthInSequenceSpace := by
  simp [seqLength]

@[simp] theorem carried_nil : carried [] = [] := rfl

@[simp] theorem carried_append (left right : List TCPSegment) :
    carried (left ++ right) = carried left ++ carried right := by
  simp [carried]

@[simp] theorem carried_singleton (seg : TCPSegment) : carried [seg] = seg.payload := by
  simp [carried]

theorem stamp_append (start : Nat) (segs : List TCPSegment) (seg : TCPSegment) :
    stamp start (segs ++ [seg]) = stamp start segs ++ [⟨start + seqLength segs + seg.lengthInSequenceSpace, seg⟩] := by
  induction segs generalizing start with
  | nil => simp [stamp]
  | cons first segs ih => simp [stamp, ih, seqLength, Nat.add_assoc]

/-- A stamped segment is one of the segments. -/
theorem seg_mem_of_stamp {start : Nat} {segs : List TCPSegment} {e : SentSegment} (he : e ∈ stamp start segs) :
    e.seg ∈ segs := by
  induction segs generalizing start with
  | nil => cases he
  | cons seg segs ih =>
    rcases List.mem_cons.1 he with rfl | he
    · exact List.mem_cons_self
    · exact List.mem_cons_of_mem _ (ih he)

/-- The numbers of the stamps are those that the segments occupy. -/
theorem expectedAck_le_of_stamp {start : Nat} {segs : List TCPSegment} {e : SentSegment} (he : e ∈ stamp start segs) :
    e.expectedAck ≤ start + seqLength segs := by
  induction segs generalizing start with
  | nil => cases he
  | cons seg segs ih =>
    have length : seqLength (seg :: segs) = seg.lengthInSequenceSpace + seqLength segs := by simp [seqLength]
    rcases List.mem_cons.1 he with rfl | he
    · dsimp only
      omega
    · have := ih he
      omega

/-! ### One iteration of `fill_window` -/

/-- The state after an iteration that creates a segment. -/
def create (s : TCPSender) (ex : Nat) : TCPSender :=
  { s with
    syned := true
    stream := s.stream.popOutput (s.readSize ex)
    fined := (s.nextSegment ex).header.fin
    segmentsOut := s.segmentsOut ++ [s.nextSegment ex]
    nextAbsSeqno := add64 s.nextAbsSeqno (s.nextSegment ex).lengthInSequenceSpace
    sent := s.sent ++ [⟨add64 s.nextAbsSeqno (s.nextSegment ex).lengthInSequenceSpace, s.nextSegment ex⟩] }

@[simp] theorem create_isn (s : TCPSender) (ex : Nat) : (s.create ex).isn = s.isn := rfl

@[simp] theorem create_syned (s : TCPSender) (ex : Nat) : (s.create ex).syned = true := rfl

@[simp] theorem create_fined (s : TCPSender) (ex : Nat) :
    (s.create ex).fined = (s.nextSegment ex).header.fin := rfl

@[simp] theorem create_stream (s : TCPSender) (ex : Nat) :
    (s.create ex).stream = s.stream.popOutput (s.readSize ex) := rfl

@[simp] theorem create_segmentsOut (s : TCPSender) (ex : Nat) :
    (s.create ex).segmentsOut = s.segmentsOut ++ [s.nextSegment ex] := rfl

@[simp] theorem create_nextAbsSeqno (s : TCPSender) (ex : Nat) :
    (s.create ex).nextAbsSeqno = add64 s.nextAbsSeqno (s.nextSegment ex).lengthInSequenceSpace := rfl

@[simp] theorem create_lastAckedAbsSeqno (s : TCPSender) (ex : Nat) :
    (s.create ex).lastAckedAbsSeqno = s.lastAckedAbsSeqno := rfl

@[simp] theorem create_windowSize (s : TCPSender) (ex : Nat) : (s.create ex).windowSize = s.windowSize := rfl

@[simp] theorem create_sent (s : TCPSender) (ex : Nat) : (s.create ex).sent =
    s.sent ++ [⟨add64 s.nextAbsSeqno (s.nextSegment ex).lengthInSequenceSpace, s.nextSegment ex⟩] := rfl

/-- When the loop body creates a segment. -/
structure CanCreate (s : TCPSender) (ex : Nat) : Prop where
  unfinished : s.fined = false
  room : s.bytesInFlight < s.windowSize.toNat + ex
  probe : ex = 0 ∨ ex = 1 ∧ s.windowSize = 0
  nonempty : 0 < (s.nextSegment ex).lengthInSequenceSpace

/-- A chain of creations. -/
inductive Fills : TCPSender → TCPSender → Prop where
  | stop (s : TCPSender) : Fills s s
  | more {s t : TCPSender} (ex : Nat) (can : s.CanCreate ex) (rest : Fills (s.create ex) t) : Fills s t

theorem fillBody_fined {s : TCPSender} (ex : Nat) (fined : s.fined = true) : s.fillBody ex = (s, false) := by
  rw [fillBody, if_pos fined]

/-- The body makes an empty segment and leaves the loop without a change. -/
theorem fillBody_empty {s : TCPSender} {ex : Nat} (unfinished : s.fined = false)
    (empty : (s.nextSegment ex).lengthInSequenceSpace = 0) : s.fillBody ex = (s, false) := by
  have parts := empty
  simp only [TCPSegment.lengthInSequenceSpace, Nat.add_eq_zero_iff, List.length_eq_zero_iff, ite_eq_right_iff,
    Nat.one_ne_zero, imp_false, Bool.not_eq_true] at parts
  obtain ⟨⟨payload, syn⟩, fin⟩ := parts
  have syned : s.syned = true := by simpa [nextSegment] using syn
  rw [fillBody, if_neg (by simp [unfinished]), if_pos empty]
  rw [ByteStream.popOutput_of_peek_nil payload, fin]
  cases s
  simp_all

theorem fillBody_create {s : TCPSender} {ex : Nat} (unfinished : s.fined = false)
    (nonempty : 0 < (s.nextSegment ex).lengthInSequenceSpace) : s.fillBody ex = (s.create ex, true) := by
  rw [fillBody, if_neg (by simp [unfinished]), if_neg (by omega)]
  rfl

theorem fillLoop_fills (fuel : Nat) (s : TCPSender) {ex : Nat} (probe : ex = 0 ∨ ex = 1 ∧ s.windowSize = 0) :
    Fills s (fillLoop fuel s ex) := by
  induction fuel generalizing s ex with
  | zero => exact .stop s
  | succ fuel ih =>
    rw [fillLoop]
    split
    · rename_i room
      by_cases fined : s.fined = true
      · rw [fillBody_fined ex fined]
        exact .stop s
      · have unfinished := Bool.eq_false_iff.2 fined
        rcases Nat.eq_zero_or_pos (s.nextSegment ex).lengthInSequenceSpace with empty | nonempty
        · rw [fillBody_empty unfinished empty]
          exact .stop s
        · rw [fillBody_create unfinished nonempty]
          exact .more ex ⟨unfinished, room, probe, nonempty⟩ (ih _ (Or.inl rfl))
    · exact .stop s

/-- Nothing follows the FIN. -/
theorem fillWindow_fined {s : TCPSender} (fined : s.fined = true) : s.fillWindow = s := by
  rw [fillWindow, fillLoop, fillBody_fined _ fined]
  simp

/-- **`fill_window` is a chain of creations.** -/
theorem fillWindow_fills (s : TCPSender) : Fills s s.fillWindow := by
  apply fillLoop_fills
  split
  · exact Or.inr ⟨rfl, ‹_›⟩
  · exact Or.inl rfl

/-! ### Sizes -/

/-- What is in flight when `n` numbers have been sent: nothing unsent is acknowledged, and at most a window of 16 bits
is outstanding. The next number is `n` as a word. -/
structure InFlight (s : TCPSender) (n : Nat) : Prop where
  next : s.nextAbsSeqno = n % word64
  acked : s.lastAckedAbsSeqno ≤ n
  bounded : n ≤ s.lastAckedAbsSeqno + 65535
  word : s.lastAckedAbsSeqno < word64

section Sizes

variable {s : TCPSender} {n ex : Nat}

theorem windowSize_le (s : TCPSender) : s.windowSize.toNat ≤ 65535 :=
  Nat.le_of_lt_succ s.windowSize.toNat_lt

/-- The difference of the two words is exact. -/
theorem InFlight.bytesInFlight (h : s.InFlight n) : s.bytesInFlight = n - s.lastAckedAbsSeqno := by
  obtain ⟨next, acked, bounded, word⟩ := h
  simp only [TCPSender.bytesInFlight, next, sub64, word64] at *
  omega

theorem InFlight.next_eq (h : s.InFlight n) (few : n < word64) : s.nextAbsSeqno = n :=
  h.next.trans (Nat.mod_eq_of_lt few)

/-- **The next number is behind the last one acknowledged** once `2 ^ 64` numbers have been sent, and only then. -/
theorem InFlight.acked_le_iff (h : s.InFlight n) : s.lastAckedAbsSeqno ≤ s.nextAbsSeqno ↔ n < word64 := by
  obtain ⟨next, acked, bounded, word⟩ := h
  simp only [next, word64] at *
  omega

theorem InFlight.of_same (h : s.InFlight n) {t : TCPSender} (next : t.nextAbsSeqno = s.nextAbsSeqno)
    (acked : t.lastAckedAbsSeqno = s.lastAckedAbsSeqno) : t.InFlight n := by
  refine ⟨next.trans h.next, ?_, ?_, ?_⟩ <;> rw [acked]
  · exact h.acked
  · exact h.bounded
  · exact h.word

/-- The subtractions of `fill_window` do not wrap when the window has room. -/
theorem allowSize_of_room (room : s.bytesInFlight < s.windowSize.toNat + ex)
    (probe : ex = 0 ∨ ex = 1 ∧ s.windowSize = 0) :
    s.allowSize ex + (if s.syned then 0 else 1) = s.windowSize.toNat + ex - s.bytesInFlight := by
  have window := s.windowSize_le
  have less : s.bytesInFlight ≤ s.windowSize.toNat := by omega
  simp only [TCPSender.allowSize]
  generalize s.bytesInFlight = flight at *
  have size : add64 (sub64 s.windowSize.toNat flight) ex = s.windowSize.toNat + ex - flight := by
    simp only [add64, sub64, word64]
    omega
  rw [size]
  split
  · omega
  · simp only [sub64, word64]
    omega

theorem CanCreate.allowSize (can : s.CanCreate ex) :
    s.allowSize ex + (if s.syned then 0 else 1) = s.windowSize.toNat + ex - s.bytesInFlight :=
  allowSize_of_room can.room can.probe

theorem readSize_le (s : TCPSender) (ex : Nat) : s.readSize ex ≤ s.allowSize ex ∧ s.readSize ex ≤ 1000 := by
  have limit : TCPConfig.maxPayloadSize = 1000 := rfl
  unfold readSize
  by_cases small : s.allowSize ex < TCPConfig.maxPayloadSize
  · rw [if_pos small]
    omega
  · rw [if_neg small]
    omega

/-- The payload is what `read_size` takes from the stream. -/
theorem length_payload_le (s : TCPSender) (ex : Nat) :
    (s.nextSegment ex).payload.length ≤ s.readSize ex := by
  simp only [nextSegment, ByteStream.peekOutput_eq, List.length_take]
  omega

/-- A segment with the FIN leaves room for it. -/
theorem fin_room (room : s.bytesInFlight < s.windowSize.toNat + ex) (probe : ex = 0 ∨ ex = 1 ∧ s.windowSize = 0)
    (fin : (s.nextSegment ex).header.fin = true) : (s.nextSegment ex).payload.length < s.allowSize ex := by
  have allow := allowSize_of_room room probe
  have window := s.windowSize_le
  have payload := s.length_payload_le ex
  have read := (s.readSize_le ex).1
  simp only [nextSegment, carriesFin, Bool.and_eq_true, decide_eq_true_eq] at fin payload ⊢
  obtain ⟨left, -⟩ := fin
  simp only [sub64, word64] at left
  omega

/-- The segment made fits the window. -/
theorem CanCreate.length_le (can : s.CanCreate ex) :
    s.bytesInFlight + (s.nextSegment ex).lengthInSequenceSpace ≤ s.windowSize.toNat + ex := by
  have allow := can.allowSize
  have payload := s.length_payload_le ex
  have read := (s.readSize_le ex).1
  have room := can.room
  have syn : (s.nextSegment ex).header.syn = !s.syned := rfl
  have fin := fin_room can.room can.probe
  simp only [TCPSegment.lengthInSequenceSpace, syn]
  cases syned : s.syned <;> cases carries : (s.nextSegment ex).header.fin <;>
    simp only [syned, carries, Bool.not_true, Bool.not_false, Bool.false_eq_true, if_true, if_false,
      forall_const] at allow fin ⊢ <;>
    omega

theorem InFlight.create (h : s.InFlight n) (can : s.CanCreate ex) :
    (s.create ex).InFlight (n + (s.nextSegment ex).lengthInSequenceSpace) := by
  have length := can.length_le
  have window := s.windowSize_le
  have acked := h.acked
  rw [h.bytesInFlight] at length
  refine ⟨?_, Nat.le_add_right_of_le acked, ?_, h.word⟩
  · rw [create_nextAbsSeqno, h.next, add64_mod]
  · rw [create_lastAckedAbsSeqno]
    rcases can.probe with rfl | ⟨rfl, zero⟩
    · omega
    · simp only [zero, UInt16.toNat_zero] at length
      omega

/-- The FIN is sent when the input has ended and everything has been read. -/
theorem fin_ended (fin : (s.nextSegment ex).header.fin = true) :
    s.stream.inputEnded = true ∧ (s.stream.popOutput (s.readSize ex)).pending = [] := by
  simp only [nextSegment, carriesFin, Bool.and_eq_true] at fin
  exact ⟨fin.2.1, (ByteStream.bufferEmpty_iff _).1 fin.2.2⟩

end Sizes

/-! ### The invariant -/

/-- The sender that has created the segments `created` from the bytes `written` into its stream. -/
structure Tiled (created : List TCPSegment) (written : List UInt8) (s : TCPSender) : Prop where
  numbered : ∀ k seg, created[k]? = some seg → seg.header.seqno = wrap (seqLength (created.take k)) s.isn
  placed : ∀ k seg, created[k]? = some seg →
    seqLength (created.take k) = (if k = 0 then 0 else 1) + (carried (created.take k)).length
  syn : ∀ k seg, created[k]? = some seg → (seg.header.syn = true ↔ k = 0)
  fin : ∀ k seg, created[k]? = some seg → seg.header.fin = true → k + 1 = created.length ∧ s.fined = true
  plain : ∀ seg ∈ created, seg.header.ack = false ∧ seg.payload.length ≤ 1000 ∧ 0 < seg.lengthInSequenceSpace
  syned : s.syned = true ↔ created ≠ []
  fined : s.fined = true → s.stream.inputEnded = true ∧ ∃ seg ∈ created, seg.header.fin = true
  total : seqLength created = (if s.syned then 1 else 0) + (carried created).length + (if s.fined then 1 else 0)
  bytes : carried created ++ s.stream.pending = written
  read : s.stream.readCount = (carried created).length
  sent : s.sent = ((stamp 0 created).dropWhile fun e => decide (e.expectedAck ≤ s.lastAckedAbsSeqno)).map
    SentSegment.stored
  flight : s.InFlight (seqLength created)

section Tiled

variable {created : List TCPSegment} {written : List UInt8} {s : TCPSender}

theorem Tiled.new (capacity : Nat) (retxTimeout : UInt16) (isn : WrappingInt32) :
    Tiled [] [] (TCPSender.new capacity retxTimeout isn) where
  numbered := by simp
  placed := by simp
  syn := by simp
  fin := by simp
  plain := by simp
  syned := by simp [TCPSender.new]
  fined := by simp [TCPSender.new]
  total := rfl
  bytes := rfl
  read := rfl
  sent := rfl
  flight := ⟨rfl, Nat.le_refl _, Nat.zero_le _, Nat.two_pow_pos 64⟩

/-- An index of an extended list is an old one or the new last one. -/
theorem getElem?_snoc {segs : List TCPSegment} {last seg : TCPSegment} {k : Nat}
    (found : (segs ++ [last])[k]? = some seg) :
    (segs[k]? = some seg ∧ k < segs.length) ∨ (k = segs.length ∧ seg = last) := by
  rcases Nat.lt_or_ge k segs.length with inside | outside
  · rw [List.getElem?_append_left inside] at found
    exact Or.inl ⟨found, inside⟩
  · rw [List.getElem?_append_right outside, List.getElem?_singleton] at found
    split at found
    · exact Or.inr ⟨by omega, (Option.some.inj found).symm⟩
    · cases found

/-- A segment that ends past what is acknowledged stays outstanding, and with it all behind it. -/
theorem dropWhile_snoc {sent : List SentSegment} {last : SentSegment} {acked : Nat} (open_ : acked < last.expectedAck) :
    (sent ++ [last]).dropWhile (fun e => decide (e.expectedAck ≤ acked)) =
      sent.dropWhile (fun e => decide (e.expectedAck ≤ acked)) ++ [last] := by
  induction sent with
  | nil => simp [Nat.not_le.2 open_]
  | cons first sent ih =>
    simp only [List.cons_append, List.dropWhile_cons]
    split
    · exact ih
    · rfl

/-- Whether the SYN is out is whether the segment now created is not the first. -/
theorem Tiled.syned_iff_length (h : Tiled created written s) : s.syned = true ↔ created.length ≠ 0 := by
  rw [h.syned, ← List.length_pos_iff, Nat.pos_iff_ne_zero]

theorem length_nextSegment (s : TCPSender) (ex : Nat) : (s.nextSegment ex).lengthInSequenceSpace =
    (s.nextSegment ex).payload.length + (if s.syned then 0 else 1) + (if (s.nextSegment ex).header.fin then 1 else 0) := by
  have syn : (s.nextSegment ex).header.syn = !s.syned := rfl
  rw [TCPSegment.lengthInSequenceSpace, syn]
  cases s.syned <;> rfl

/-- The number where the next segment goes, while no FIN was created. -/
theorem Tiled.place (h : Tiled created written s) (unfinished : s.fined = false) :
    seqLength created = (if created.length = 0 then 0 else 1) + (carried created).length := by
  have total := h.total
  have start := h.syned_iff_length
  rw [unfinished] at total
  rw [total]
  by_cases first : created.length = 0
  · rw [if_pos first, if_neg (by rw [start]; exact fun some => some first)]
    simp
  · rw [if_neg first, if_pos (start.2 first)]
    simp

/-- One creation extends the tiling by one segment. -/
theorem Tiled.create (h : Tiled created written s) {ex : Nat} (can : s.CanCreate ex) :
    Tiled (created ++ [s.nextSegment ex]) written (s.create ex) where
  numbered := by
    intro k seg found
    rcases getElem?_snoc found with ⟨old, inside⟩ | ⟨rfl, rfl⟩
    · rw [List.take_append_of_le_length (Nat.le_of_lt inside)]
      exact h.numbered k seg old
    · rw [List.take_left' rfl, ← wrap_word, ← h.flight.next]
      rfl
  placed := by
    intro k seg found
    rcases getElem?_snoc found with ⟨old, inside⟩ | ⟨rfl, rfl⟩
    · rw [List.take_append_of_le_length (Nat.le_of_lt inside)]
      exact h.placed k seg old
    · rw [List.take_left' rfl]
      exact h.place can.unfinished
  syn := by
    intro k seg found
    rcases getElem?_snoc found with ⟨old, -⟩ | ⟨rfl, rfl⟩
    · exact h.syn k seg old
    · have start := h.syned_iff_length
      simp only [nextSegment, Bool.not_eq_true', ← Bool.not_eq_true, start, not_not]
  fin := by
    intro k seg found fin
    rcases getElem?_snoc found with ⟨old, -⟩ | ⟨rfl, rfl⟩
    · -- an earlier FIN would have ended the loop
      have fined := (h.fin k seg old fin).2
      rw [can.unfinished] at fined
      cases fined
    · exact ⟨by simp, fin⟩
  plain := by
    intro seg member
    rcases List.mem_append.1 member with old | new
    · exact h.plain seg old
    · rw [List.mem_singleton.1 new]
      exact ⟨rfl, Nat.le_trans (s.length_payload_le ex) (s.readSize_le ex).2, can.nonempty⟩
  syned := by simp [TCPSender.create]
  fined := fun fin => ⟨(fin_ended fin).1, s.nextSegment ex, by simp, fin⟩
  total := by
    have total := h.total
    rw [can.unfinished] at total
    rw [seqLength_append, seqLength_singleton, create_fined, create_syned, s.length_nextSegment ex, total, carried_append,
      carried_singleton, List.length_append]
    cases s.syned <;> simp <;> omega
  bytes := by
    have split := s.stream.peek_append_pop (s.readSize ex)
    rw [carried_append, carried_singleton, List.append_assoc, ← h.bytes, ← split]
    rfl
  read := by
    have read := h.read
    simp only [create_stream, carried_append, carried_singleton, List.length_append, ByteStream.popOutput, nextSegment,
      ByteStream.peekOutput_eq, List.length_take, ByteStream.length_pending]
    omega
  sent := by
    have beyond : s.lastAckedAbsSeqno < seqLength created + (s.nextSegment ex).lengthInSequenceSpace := by
      have := h.flight.acked
      have := can.nonempty
      omega
    rw [stamp_append, Nat.zero_add, create_lastAckedAbsSeqno, dropWhile_snoc beyond, List.map_append, ← h.sent,
      create_sent, h.flight.next, add64_mod]
    rfl
  flight := by
    rw [seqLength_append, seqLength_singleton]
    exact h.flight.create can

/-- `fill_window` extends the tiling by the segments it puts in `segments_out`. -/
theorem Tiled.fills (h : Tiled created written s) {t : TCPSender} (fills : Fills s t) :
    ∃ new, t.segmentsOut = s.segmentsOut ++ new ∧ Tiled (created ++ new) written t := by
  induction fills generalizing created with
  | stop s => exact ⟨[], by simp, by simpa using h⟩
  | @more s t ex can rest ih =>
    obtain ⟨new, out, tiled⟩ := ih (h.create can)
    refine ⟨s.nextSegment ex :: new, ?_, by simpa using tiled⟩
    rw [out, create_segmentsOut, List.append_assoc, List.singleton_append]

/-- The senders that differ in the timer, the window, the output queue and the stream's error only. -/
structure SameData (s t : TCPSender) : Prop where
  isn : t.isn = s.isn
  syned : t.syned = s.syned
  fined : t.fined = s.fined
  ended : t.stream.inputEnded = s.stream.inputEnded
  pending : t.stream.pending = s.stream.pending
  read : t.stream.readCount = s.stream.readCount
  next : t.nextAbsSeqno = s.nextAbsSeqno
  acked : t.lastAckedAbsSeqno = s.lastAckedAbsSeqno
  sent : t.sent = s.sent

theorem Tiled.of_same (h : Tiled created written s) {t : TCPSender} (same : SameData s t) : Tiled created written t := by
  obtain ⟨isn, syned, fined, ended, pending, read, next, acked, sent⟩ := same
  refine ⟨?_, h.placed, h.syn, ?_, h.plain, ?_, ?_, ?_, ?_, ?_, ?_, h.flight.of_same next acked⟩
  · rw [isn]
    exact h.numbered
  · rw [fined]
    exact h.fin
  · rw [syned]
    exact h.syned
  · rw [fined, ended]
    exact h.fined
  · rw [syned, fined]
    exact h.total
  · rw [pending]
    exact h.bytes
  · rw [read]
    exact h.read
  · rw [sent, acked]
    exact h.sent

/-- Nothing is outstanding, and the timer is set back. -/
theorem tick_idle (idle : s.sent = []) (ms : Nat) : s.tick ms = { s with lastTime := 0 } := by
  rw [tick]
  simp only [idle]

/-- What `tick` puts out: nothing, or the front of `_sent`. -/
theorem tick_spec (s : TCPSender) (ms : Nat) : SameData s (s.tick ms) ∧ (s.tick ms).windowSize = s.windowSize ∧
    ((s.tick ms).segmentsOut = s.segmentsOut ∨
      ∃ oldest rest, s.sent = oldest :: rest ∧ (s.tick ms).segmentsOut = s.segmentsOut ++ [oldest.seg]) := by
  unfold tick
  cases outstanding : s.sent with
  | nil => exact ⟨⟨rfl, rfl, rfl, rfl, rfl, rfl, rfl, rfl, outstanding.symm⟩, rfl, Or.inl rfl⟩
  | cons oldest rest =>
    dsimp only
    split
    · split
      · exact ⟨⟨rfl, rfl, rfl, rfl, rfl, rfl, rfl, rfl, outstanding.symm⟩, rfl, Or.inr ⟨oldest, rest, rfl, rfl⟩⟩
      · exact ⟨⟨rfl, rfl, rfl, rfl, rfl, rfl, rfl, rfl, outstanding.symm⟩, rfl, Or.inr ⟨oldest, rest, rfl, rfl⟩⟩
    · exact ⟨⟨rfl, rfl, rfl, rfl, rfl, rfl, rfl, rfl, outstanding.symm⟩, rfl, Or.inl rfl⟩

/-- Below `2 ^ 64` the stamps are the words stored. -/
theorem map_stored (few : seqLength created < word64) {acked : Nat} :
    ((stamp 0 created).dropWhile fun e => decide (e.expectedAck ≤ acked)).map SentSegment.stored =
      (stamp 0 created).dropWhile fun e => decide (e.expectedAck ≤ acked) := by
  refine (List.map_congr_left fun e member => ?_).trans (List.map_id _)
  have bound := expectedAck_le_of_stamp ((List.dropWhile_suffix _).subset member)
  rw [Nat.zero_add] at bound
  rw [SentSegment.stored, Nat.mod_eq_of_lt (Nat.lt_of_le_of_lt bound few), id]

theorem Tiled.sent_eq (h : Tiled created written s) (few : seqLength created < word64) :
    s.sent = (stamp 0 created).dropWhile fun e => decide (e.expectedAck ≤ s.lastAckedAbsSeqno) :=
  h.sent.trans (map_stored few)

/-- Dropping under a bound and then under a larger one. -/
theorem dropWhile_dropWhile {sent : List SentSegment} {acked acked' : Nat} (order : acked ≤ acked') :
    (sent.dropWhile fun e => decide (e.expectedAck ≤ acked)).dropWhile (fun e => decide (e.expectedAck ≤ acked')) =
      sent.dropWhile fun e => decide (e.expectedAck ≤ acked') := by
  induction sent with
  | nil => rfl
  | cons e sent ih =>
    by_cases old : e.expectedAck ≤ acked
    · simp only [List.dropWhile_cons, decide_eq_true old, decide_eq_true (Nat.le_trans old order), if_true, ih]
    · simp only [List.dropWhile_cons, old, decide_false, Bool.false_eq_true, if_false]

/-- What `ack_received` does with the number the acknowledgment stands for: it ignores one that is not new or that
was never sent, and otherwise advances to it. The window is taken over in both cases. -/
structure Acked (s : TCPSender) (tmp : Nat) (windowSize : UInt16) (t : TCPSender) : Prop where
  isn : t.isn = s.isn
  syned : t.syned = s.syned
  fined : t.fined = s.fined
  stream : t.stream = s.stream
  next : t.nextAbsSeqno = s.nextAbsSeqno
  window : t.windowSize = windowSize
  segmentsOut : t.segmentsOut = s.segmentsOut
  acked : t.lastAckedAbsSeqno = if s.lastAckedAbsSeqno < tmp ∧ tmp ≤ s.nextAbsSeqno then tmp else s.lastAckedAbsSeqno
  sent : t.sent = s.sent ∧ t.lastAckedAbsSeqno = s.lastAckedAbsSeqno ∨
    (s.lastAckedAbsSeqno < tmp ∧ tmp ≤ s.nextAbsSeqno) ∧
      t.sent = s.sent.dropWhile fun e => decide (e.expectedAck ≤ t.lastAckedAbsSeqno)

theorem ackReceived_spec (s : TCPSender) (ackno : WrappingInt32) (windowSize : UInt16) :
    Acked s (unwrap ackno s.isn s.lastAckedAbsSeqno) windowSize (s.ackReceived ackno windowSize) := by
  unfold ackReceived
  dsimp only
  by_cases ignored : unwrap ackno s.isn s.lastAckedAbsSeqno ≤ s.lastAckedAbsSeqno ∨
      s.nextAbsSeqno < unwrap ackno s.isn s.lastAckedAbsSeqno
  · rw [if_pos ignored]
    exact ⟨rfl, rfl, rfl, rfl, rfl, rfl, rfl, (if_neg (by omega)).symm, Or.inl ⟨rfl, rfl⟩⟩
  · rw [if_neg ignored]
    by_cases outstanding : s.sent ≠ []
    · rw [if_pos outstanding]
      exact ⟨rfl, rfl, rfl, rfl, rfl, rfl, rfl, (if_pos (by omega)).symm, Or.inr ⟨by omega, rfl⟩⟩
    · rw [if_neg outstanding]
      have none : s.sent = [] := not_not.1 outstanding
      exact ⟨rfl, rfl, rfl, rfl, rfl, rfl, rfl, (if_pos (by omega)).symm, Or.inr ⟨by omega, by simp [none]⟩⟩

theorem Acked.acked_le {tmp : Nat} {window : UInt16} {t : TCPSender} (a : Acked s tmp window t) :
    s.lastAckedAbsSeqno ≤ t.lastAckedAbsSeqno := by
  have new := a.acked
  split at new <;> omega

theorem InFlight.ackedBy {n tmp : Nat} {window : UInt16} {t : TCPSender} (h : s.InFlight n) (a : Acked s tmp window t) :
    t.InFlight n := by
  have grows := a.acked_le
  have new := a.acked
  obtain ⟨next, acked, bounded, word⟩ := h
  have reduced : n % word64 ≤ n ∧ n % word64 < word64 := ⟨Nat.mod_le _ _, Nat.mod_lt _ (by decide)⟩
  refine ⟨a.next.trans next, ?_, ?_, ?_⟩ <;> split at new <;> omega

/-- Numbers that are acknowledged have not wrapped. -/
theorem InFlight.few {n tmp : Nat} (h : s.InFlight n) (new : s.lastAckedAbsSeqno < tmp) (sent : tmp ≤ s.nextAbsSeqno) :
    n < word64 :=
  h.acked_le_iff.1 (by omega)

theorem Tiled.acked (h : Tiled created written s) {tmp : Nat} {window : UInt16} {t : TCPSender}
    (a : Acked s tmp window t) : Tiled created written t := by
  refine ⟨?_, h.placed, h.syn, ?_, h.plain, ?_, ?_, ?_, ?_, ?_, ?_, h.flight.ackedBy a⟩
  · rw [a.isn]
    exact h.numbered
  · rw [a.fined]
    exact h.fin
  · rw [a.syned]
    exact h.syned
  · rw [a.fined, a.stream]
    exact h.fined
  · rw [a.syned, a.fined]
    exact h.total
  · rw [a.stream]
    exact h.bytes
  · rw [a.stream]
    exact h.read
  · rcases a.sent with ⟨sent, same⟩ | ⟨⟨new, old⟩, sent⟩
    · rw [sent, same, h.sent]
    · have few := h.flight.few new old
      rw [sent, h.sent_eq few, dropWhile_dropWhile a.acked_le, map_stored few]

/-- A write extends the bytes to be carried by what was accepted. -/
theorem Tiled.write (h : Tiled created written s) (data : List UInt8) :
    Tiled created (written ++ data.take (s.stream.writeLength data)) (s.write data) where
  numbered := h.numbered
  placed := h.placed
  syn := h.syn
  fin := h.fin
  plain := h.plain
  syned := h.syned
  fined := h.fined
  total := h.total
  bytes := by
    rw [TCPSender.write, ByteStream.pending_write, ← List.append_assoc, h.bytes]
  read := h.read
  sent := h.sent
  flight := h.flight.of_same rfl rfl

theorem Tiled.endInput (h : Tiled created written s) : Tiled created written s.endInput where
  numbered := h.numbered
  placed := h.placed
  syn := h.syn
  fin := h.fin
  plain := h.plain
  syned := h.syned
  fined := fun fined => ⟨rfl, (h.fined fined).2⟩
  total := h.total
  bytes := h.bytes
  read := h.read
  sent := h.sent
  flight := h.flight.of_same rfl rfl

/-- The numbers sent are those of the bytes written, the SYN and the FIN. -/
theorem Tiled.seqLength_le (h : Tiled created written s) : seqLength created ≤ written.length + 2 := by
  rw [h.total, ← h.bytes, List.length_append]
  split <;> split <;> omega

/-- What is outstanding was created. -/
theorem Tiled.seg_mem (h : Tiled created written s) {e : SentSegment} (outstanding : e ∈ s.sent) : e.seg ∈ created := by
  rw [h.sent] at outstanding
  obtain ⟨stamped, member, rfl⟩ := List.mem_map.1 outstanding
  exact seg_mem_of_stamp (e := stamped) ((List.dropWhile_suffix _).subset member)

/-- The front of `_sent` is the oldest segment not fully acknowledged. -/
theorem Tiled.oldest (h : Tiled created written s) :
    oldestUnacked created s.lastAckedAbsSeqno = s.sent.head?.map SentSegment.seg := by
  rw [h.sent, List.head?_map, ← List.find?_not_eq_head?_dropWhile, oldestUnacked, Option.map_map]
  simp only [← decide_not, Nat.not_le]
  rfl

end Tiled

/-! ### What `fill_window` keeps -/

/-- The segments that an operation put in `segments_out`. -/
def appended (s t : TCPSender) : List TCPSegment := t.segmentsOut.drop s.segmentsOut.length

/-- The FIN is behind everything written. -/
def Closed (s : TCPSender) : Prop := s.fined = true → s.stream.inputEnded = true ∧ s.stream.pending = []

theorem Closed.create {s : TCPSender} {ex : Nat} : (s.create ex).Closed := by
  intro fined
  rw [create_fined] at fined
  obtain ⟨ended, empty⟩ := fin_ended fined
  exact ⟨ended, empty⟩

theorem Closed.fills {s t : TCPSender} (h : s.Closed) (fills : Fills s t) : t.Closed := by
  induction fills with
  | stop => exact h
  | more _ _ _ ih => exact ih Closed.create

theorem Closed.of_same {s t : TCPSender} (h : s.Closed) (same : SameData s t) : t.Closed := by
  rw [Closed, same.fined, same.ended, same.pending]
  exact h

theorem Closed.acked {s t : TCPSender} {tmp : Nat} {window : UInt16} (h : s.Closed) (a : Acked s tmp window t) :
    t.Closed := by
  rw [Closed, a.fined, a.stream]
  exact h

theorem Fills.isn {s t : TCPSender} (fills : Fills s t) : t.isn = s.isn := by
  induction fills with
  | stop => rfl
  | more _ _ _ ih => rw [ih, create_isn]

theorem Fills.window {s t : TCPSender} (fills : Fills s t) :
    t.lastAckedAbsSeqno = s.lastAckedAbsSeqno ∧ t.windowSize = s.windowSize := by
  induction fills with
  | stop => exact ⟨rfl, rfl⟩
  | more _ _ _ ih => exact ih

/-- Nothing is sent past the window, or past one number of a closed window. -/
theorem InFlight.fills {s t : TCPSender} {n : Nat} (h : s.InFlight n) (fills : Fills s t) :
    ∃ m, n ≤ m ∧ t.InFlight m ∧ (t = s ∧ m = n ∨ m ≤ s.lastAckedAbsSeqno + max s.windowSize.toNat 1) := by
  induction fills generalizing n with
  | stop => exact ⟨n, Nat.le_refl n, h, Or.inl ⟨rfl, rfl⟩⟩
  | @more s t ex can rest ih =>
    have length := can.length_le
    rw [h.bytesInFlight] at length
    have acked := h.acked
    have reach : n + (s.nextSegment ex).lengthInSequenceSpace ≤ s.lastAckedAbsSeqno + max s.windowSize.toNat 1 := by
      rcases can.probe with rfl | ⟨rfl, closed⟩
      · omega
      · simp only [closed, UInt16.toNat_zero] at length ⊢
        omega
    obtain ⟨m, more, flight, ⟨-, rfl⟩ | within⟩ := ih (h.create can)
    · exact ⟨_, Nat.le_add_right _ _, flight, Or.inr reach⟩
    · exact ⟨m, by omega, flight, Or.inr within⟩

theorem appended_eq {s t : TCPSender} {new : List TCPSegment} (out : t.segmentsOut = s.segmentsOut ++ new) :
    appended s t = new := by
  rw [appended, out, List.drop_left]

theorem appended_nil {s t : TCPSender} (same : t.segmentsOut = s.segmentsOut) : appended s t = [] :=
  appended_eq (same.trans (List.append_nil _).symm)

end TCPSender

end Sponge
