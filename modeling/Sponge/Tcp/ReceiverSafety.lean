import Sponge.Stream.ReassemblerSafety
import Sponge.Tcp.ReceiverAck

/-!
# The receiver of a growing stream

A peer whose stream is numbered from `x` has written the bytes `S` so far and
may write more. `Carries` describes the segments it sends. Whatever of them
arrives and in whatever order, what the receiver assembles is a prefix of `S`,
for every capacity (`Receives`).
-/

namespace Sponge

open StreamReassembler (Safe Advances)

/-- A segment of the stream `S` numbered from `x`: a slice at its place, the SYN being numbered 0 and a FIN coming
after the last byte, or an empty segment at any number up to the end. -/
inductive Carries (S : List UInt8) (x : WrappingInt32) (finSent : Prop) (seg : TCPSegment) : Prop where
  | slice (i : Nat) (piece : seg.payload <+: S.drop i) (inside : i + seg.payload.length ≤ S.length)
      (seqno : seg.header.seqno = wrap (if seg.header.syn then 0 else 1 + i) x) (syn : seg.header.syn = true → i = 0)
      (fin : seg.header.fin = true → finSent ∧ i + seg.payload.length = S.length)
  | empty (n : Nat) (bound : n ≤ S.length + 2) (seqno : seg.header.seqno = wrap n x) (payload : seg.payload = [])
      (syn : seg.header.syn = false) (fin : seg.header.fin = false)

namespace TCPReceiver

/-- The absolute number that `ackno()` stands for: 0 before the SYN. -/
def ackPosition (r : TCPReceiver) : Nat :=
  if r.syn then 1 + r.reassembler.firstIndex + (if r.streamOut.inputEnded then 1 else 0) else 0

/-- The receiver of the stream `S` numbered from `x`; `finSent` says that the peer has ended it. -/
structure Receives (S : List UInt8) (x : WrappingInt32) (finSent : Prop) (r : TCPReceiver) : Prop where
  safe : Safe S r.reassembler
  capacity : r.reassembler.output.capacity < word64
  state : r.Unsynced ∧ r.reassembler.firstIndex = 0 ∨ r.Synced x
  eof : r.reassembler.eof = true → finSent ∧ r.reassembler.eofIndex = S.length
  done : r.reassembler.eofed = true → r.reassembler.firstIndex = S.length

section Push

variable {S : List UInt8} {x : WrappingInt32} {finSent : Prop} {r r' : TCPReceiver} {seg : TCPSegment}

theorem Receives.new (S : List UInt8) (x : WrappingInt32) (finSent : Prop) {capacity : Nat} (fits : capacity < word64) :
    Receives S x finSent (.new capacity) where
  safe := .new S capacity
  capacity := fits
  state := Or.inl ⟨unsynced_new capacity, rfl⟩
  eof := by
    intro eof
    cases eof
  done := by
    intro done
    cases done

theorem Receives.ended (h : Receives S x finSent r) : r.streamOut.inputEnded = r.reassembler.eofed := by
  rcases h.state with ⟨fresh, -⟩ | synced
  · rw [fresh.ended, fresh.eofed]
  · exact synced.ended

/-- The end of the stream is seen when all of it is there and the peer has ended it. -/
theorem Receives.complete (h : Receives S x finSent r) (ended : r.streamOut.inputEnded = true) :
    finSent ∧ r.reassembler.firstIndex = S.length := by
  rw [h.ended] at ended
  refine ⟨(h.eof ?_).1, h.done ended⟩
  rcases h.state with ⟨fresh, -⟩ | synced
  · rw [fresh.eofed] at ended
    cases ended
  · rw [synced.eof, synced.eofed.1 ended]
    decide

theorem Receives.fullFined (h : Receives S x finSent r) : r.fullFined = r.streamOut.inputEnded := by
  rcases h.state with ⟨fresh, -⟩ | synced
  · rw [fresh.fullFined, fresh.ended]
  · exact synced.fullFined

/-- `ackno()` stands for `ackPosition`. -/
theorem Receives.ackno (h : Receives S x finSent r) :
    r.ackno = if r.syn then some (wrap r.ackPosition x) else none := by
  rcases h.state with ⟨fresh, -⟩ | synced
  · rw [fresh.ackno_eq, fresh.syn]
    rfl
  · rw [synced.ackno_eq, ackPosition, synced.syn]
    rfl

theorem Receives.ackPosition_le (h : Receives S x finSent r) : r.ackPosition ≤ S.length + 2 := by
  have inside := h.safe.inside
  unfold ackPosition
  split
  · split <;> omega
  · omega

/-- What is acknowledged with everything received. -/
theorem Receives.ackPosition_of_fullFined (h : Receives S x finSent r) (finished : r.fullFined = true) :
    r.syn = true ∧ r.ackPosition = S.length + 2 := by
  rw [h.fullFined] at finished
  have complete := (h.complete finished).2
  rcases h.state with ⟨fresh, -⟩ | synced
  · rw [fresh.ended] at finished
    cases finished
  · refine ⟨synced.syn, ?_⟩
    rw [ackPosition, if_pos synced.syn, if_pos finished, complete]
    omega

/-- Everything acknowledged is received. -/
theorem Receives.fullFined_of_ackPosition (h : Receives S x finSent r) (all : S.length + 2 ≤ r.ackPosition) :
    r.fullFined = true ∧ r.reassembler.firstIndex = S.length := by
  have inside := h.safe.inside
  unfold ackPosition at all
  have ended : r.streamOut.inputEnded = true := by
    by_contra more
    rw [if_neg more] at all
    split at all <;> omega
  exact ⟨h.fullFined.trans ended, (h.complete ended).2⟩

/-- More of the stream is written. Once it is ended nothing is. -/
theorem Receives.mono {S' : List UInt8} {finSent' : Prop} (h : Receives S x finSent r) (more : S <+: S')
    (fixed : finSent → S' = S ∧ finSent') : Receives S' x finSent' r := by
  refine ⟨h.safe.mono more, h.capacity, h.state, fun eof => ?_, fun done => ?_⟩
  · obtain ⟨sent, index⟩ := h.eof eof
    obtain ⟨rfl, sent'⟩ := fixed sent
    exact ⟨sent', index⟩
  · have sent : finSent := (h.complete (h.ended.trans done)).1
    rw [(fixed sent).1]
    exact h.done done

/-- The place of a segment after the SYN is read back from its number. -/
theorem streamIndex_eq (synced : r.Synced x) (first : r.reassembler.firstIndex < 2 ^ 31) {n : Nat} (near : n < 2 ^ 31)
    (seqno : seg.header.seqno = wrap n x) :
    unwrap seg.header.seqno r.isn r.lastAbseqno = n ∧ (0 < n → r.streamIndex seg = n - 1) := by
  have last : r.lastAbseqno < 2 ^ 31 := by
    rw [synced.last]
    omega
  refine ⟨?_, fun after => ?_⟩
  · rw [seqno, synced.isn, unwrap_wrap x (by omega) (by omega) (by omega)]
  · obtain ⟨i, rfl⟩ : ∃ i, n = i + 1 := ⟨n - 1, by omega⟩
    rw [streamIndex, if_pos synced.syn, seqno, synced.isn, wrap_succ_sub_one,
      unwrap_wrap x (by omega) (by omega) (by omega)]
    rfl

/-- What a push does to the end of the input. -/
theorem Receives.push_eof (h : Receives S x finSent r) (short : S.length < word64) {data : List UInt8} {index : Nat}
    {eof : Bool} (last : eof = true → finSent ∧ index + data.length = S.length) {re : StreamReassembler}
    (run : r.reassembler.pushSubstring? data index eof = some re) :
    (re.eof = true → finSent ∧ re.eofIndex = S.length) ∧ (re.eofed = true → re.firstIndex = S.length) ∧
      (r.reassembler.eofed = true → re.eofed = true) ∧ re.output.inputEnded = re.eofed ∧
      (re.eof = true → r.reassembler.eof = true ∨ eof = true) := by
  have agrees := h.ended
  rw [streamOut] at agrees
  cases done : r.reassembler.eofed with
  | true =>
    have same : re = r.reassembler := by
      rw [StreamReassembler.pushSubstring?, done] at run
      exact (Option.some.inj run).symm
    subst same
    exact ⟨h.eof, h.done, fun _ => done, agrees, Or.inl⟩
  | false =>
    obtain ⟨eofEq, eofedEq, endedEq⟩ := StreamReassembler.pushSubstring?_eof run done
    have index := StreamReassembler.pushSubstring?_eofIndex run done
    have known : re.eof = true → finSent ∧ re.eofIndex = S.length := by
      intro ended
      rw [eofEq, Bool.or_eq_true] at ended
      rw [index]
      cases before : r.reassembler.eof with
      | true => simpa using h.eof before
      | false =>
        have now : eof = true := by simpa [before] using ended
        obtain ⟨sent, whole⟩ := last now
        rw [now, if_pos (by decide), add64_eq (by omega)]
        exact ⟨sent, whole⟩
    refine ⟨known, fun complete => ?_, by simp, ?_, fun ended => ?_⟩
    · rw [eofedEq, Bool.and_eq_true, beq_iff_eq] at complete
      rw [complete.2]
      exact (known complete.1).2
    · rw [endedEq, agrees, done, Bool.false_or]
    · rwa [eofEq, Bool.or_eq_true] at ended

/-- What the arrival of a segment does. -/
structure Progress (S : List UInt8) (x : WrappingInt32) (finSent : Prop) (seg : TCPSegment) (r r' : TCPReceiver) : Prop where
  receives : Receives S x finSent r'
  appends : ∃ new, r'.streamOut.pending = r.streamOut.pending ++ new ∧ new <+: S.drop r.reassembler.firstIndex ∧
    r'.reassembler.firstIndex = r.reassembler.firstIndex + new.length
  ended : r.streamOut.inputEnded = true → r'.streamOut.inputEnded = true
  syn : r.syn = true → r'.syn = true
  error : r'.streamOut.error = r.streamOut.error
  fin : r'.fin ≠ .notReceived → r.fin ≠ .notReceived ∨ seg.header.fin = true

theorem Progress.ackPosition_le (p : Progress S x finSent seg r r') : r.ackPosition ≤ r'.ackPosition := by
  obtain ⟨new, -, -, first⟩ := p.appends
  unfold ackPosition
  by_cases syn : r.syn = true
  · rw [if_pos syn, if_pos (p.syn syn)]
    by_cases ended : r.streamOut.inputEnded = true
    · rw [if_pos ended, if_pos (p.ended ended)]
      omega
    · rw [if_neg ended]
      omega
  · rw [if_neg syn]
    omega

theorem Progress.refl (h : Receives S x finSent r) : Progress S x finSent seg r r :=
  ⟨h, ⟨[], by simp⟩, fun h => h, fun h => h, rfl, Or.inl⟩

/-- A substring of the stream at its place, or an empty one, is pushed. -/
theorem Receives.push (h : Receives S x finSent r) (short : S.length < word64)
    (slice : seg.payload = [] ∨ seg.payload <+: S.drop (r.streamIndex seg) ∧
      r.streamIndex seg + seg.payload.length ≤ S.length)
    (last : seg.header.fin = true → finSent ∧ r.streamIndex seg + seg.payload.length = S.length)
    (state : ∀ re, r.reassembler.pushSubstring? seg.payload (r.streamIndex seg) seg.header.fin = some re →
      r.reassembler.firstIndex ≤ re.firstIndex → (r.afterPush seg.header re).Synced x)
    (accepted : r.ignores seg = false) (run : r.segmentReceived? seg = some r') : Progress S x finSent seg r r' := by
  rw [segmentReceived?, accepted] at run
  obtain ⟨re, pushed, rfl⟩ := Option.map_eq_some_iff.1 run
  have advanced := StreamReassembler.push_advances h.safe h.capacity short slice pushed
  obtain ⟨eof, complete, stays, ended, marked⟩ := h.push_eof short last pushed
  have synced := state re pushed advanced.grows
  have same := afterPush_reassembler r seg.header ended
  refine ⟨⟨?_, ?_, Or.inr synced, ?_, ?_⟩, ?_, fun before => ?_, fun _ => synced.syn, ?_, fun received => ?_⟩
  · rw [same]
    exact advanced.safe
  · rw [same, advanced.capacity]
    exact h.capacity
  · rw [same]
    exact eof
  · rw [same]
    exact complete
  · rw [streamOut, same]
    exact advanced.appends
  · rw [h.ended] at before
    rw [streamOut, same, ended]
    exact stays before
  · rw [streamOut, same]
    exact StreamReassembler.pushSubstring?_error pushed
  · rw [← synced.eof, same] at received
    refine (marked received).imp_left fun before => ?_
    rcases h.state with ⟨fresh, -⟩ | synced
    · rw [fresh.eof] at before
      cases before
    · exact synced.eof.1 before

/-- **A segment of the stream arrives**: if the receiver does not throw, it has made progress. -/
theorem Receives.segment (h : Receives S x finSent r) (short : S.length + 3 < 2 ^ 31) (carries : Carries S x finSent seg)
    (run : r.segmentReceived? seg = some r') : Progress S x finSent seg r r' := by
  cases ignored : r.ignores seg with
  | true =>
    rw [segmentReceived?, ignored] at run
    cases run
    exact .refl h
  | false =>
    have kept := ignored
    simp only [ignores, Bool.or_eq_false_iff] at kept
    obtain ⟨⟨beforeSyn, again⟩, notSyn⟩ := kept
    rcases h.state with ⟨fresh, first⟩ | synced
    · -- the SYN, with a prefix of the stream
      have isSyn : seg.header.syn = true := by simpa [fresh.syn] using beforeSyn
      have index : r.streamIndex seg = 0 := by rw [streamIndex, if_neg (by rw [fresh.syn]; decide)]
      cases carries with
      | slice i piece inside seqno syn fin =>
        obtain rfl := syn isSyn
        have number : seg.header.seqno = x := by rw [seqno, if_pos isSyn, wrap_zero]
        refine h.push (by simp only [word64]; omega) (Or.inr ?_) ?_ (fun re pushed _ => ?_) ignored run
        · rw [index]
          exact ⟨piece, inside⟩
        · rw [index]
          exact fin
        · rw [← number]
          exact fresh.afterPush isSyn pushed
      | empty n bound seqno payload syn fin =>
        rw [syn] at isSyn
        cases isSyn
    · have noSyn : seg.header.syn = false := by simpa [synced.syn] using again
      have near : r.reassembler.firstIndex < 2 ^ 31 := by
        have := h.safe.inside
        omega
      have state : ∀ re, r.reassembler.pushSubstring? seg.payload (r.streamIndex seg) seg.header.fin = some re →
          r.reassembler.firstIndex ≤ re.firstIndex → (r.afterPush seg.header re).Synced x :=
        fun re pushed grows => synced.afterPush noSyn pushed grows
      cases carries with
      | slice i piece inside seqno syn fin =>
        rw [noSyn, if_neg (by decide)] at seqno
        have index := (streamIndex_eq synced near (n := 1 + i) (by omega) seqno).2 (by omega)
        rw [Nat.add_sub_cancel_left] at index
        refine h.push (by simp only [word64]; omega) (Or.inr ?_) ?_ state ignored run
        · rw [index]
          exact ⟨piece, inside⟩
        · rw [index]
          exact fin
      | empty n bound seqno payload syn fin =>
        refine h.push (by simp only [word64]; omega) (Or.inl payload) (fun isFin => ?_) state ignored run
        rw [fin] at isFin
        cases isFin

/-- The reader takes bytes. -/
theorem Receives.pop (h : Receives S x finSent r) (len : Nat) : Receives S x finSent (r.popOutput len) := by
  refine ⟨h.safe.pop len, h.capacity, ?_, h.eof, h.done⟩
  rcases h.state with ⟨fresh, first⟩ | synced
  · exact Or.inl ⟨fresh.withOutput _ rfl, first⟩
  · exact Or.inr (synced.withOutput _ rfl)

/-- An error on the stream. -/
theorem Receives.setError (h : Receives S x finSent r) : Receives S x finSent r.setError := by
  refine ⟨h.safe.of_same rfl rfl rfl rfl rfl, h.capacity, ?_, h.eof, h.done⟩
  rcases h.state with ⟨fresh, first⟩ | synced
  · exact Or.inl ⟨fresh.withOutput _ rfl, first⟩
  · exact Or.inr (synced.withOutput _ rfl)

end Push

end TCPReceiver

end Sponge
