import Sponge.Tcp.ReceiverSpec

/-!
# Segments from outside the window

Between the genuine segments of a stream `S`, anyone may send the receiver
segments that lie beyond its window. Their payload is discarded. Their FIN is
not: `push_substring` notes the end of the input before it looks at the window,
and the first FIN noted is the one that counts. So a receiver under attack keeps
the stream exactly as long as no FIN from outside the window comes before the
genuine one.
-/

namespace Sponge

namespace StreamReassembler

variable {S : List UInt8} {c : Nat} {r : StreamReassembler} {taken : List UInt8} {accepted : Set Nat} {eofPushed : Bool}

/-- A substring beyond the window changes nothing, unless it brings the first end of input. -/
theorem Tracks.push_beyond (t : Tracks S c r taken accepted eofPushed) (data : List UInt8) {index : Nat}
    (beyond : r.maxAcindex ≤ index) {eof : Bool} (noEof : eof = false ∨ eofPushed = true) :
    r.pushSubstring? data index eof = some r := by
  by_cases done : r.eofed = true
  · rw [pushSubstring?, if_pos done]
  · have noted : r.noteEof data index eof = r := by
      rw [noteEof, if_neg]
      rw [t.eof]
      rcases noEof with rfl | pushed
      · simp
      · simp [pushed]
    have dropped : r.accept data index = some r := by
      have clipped : r.clip data index = none := if_pos (Or.inr (Or.inl beyond))
      rw [accept, clipped]
    have incomplete : r.endIfComplete = r := by
      rw [endIfComplete, if_neg]
      rw [Bool.and_eq_true, beq_iff_eq, t.eof]
      rintro ⟨pushed, complete⟩
      rw [t.eofIndex pushed] at complete
      exact done (t.eofed.2 ⟨pushed, complete⟩)
    rw [pushSubstring?, if_neg done, noted, dropped, Option.map_some, incomplete]

end StreamReassembler

namespace TCPReceiver

/-- Something reaches the receiver: what belongs to the stream, or a segment that claims to start at index `i`. -/
inductive Event where
  | genuine (a : Arrival)
  | injected (seg : TCPSegment) (i : Nat)
  deriving DecidableEq

/-- An injected segment carries nothing of the stream. -/
def Watched.attackedStep (c : Nat) (w : Watched) : Event → Option Watched
  | .genuine a => w.step c a
  | .injected seg _ => (w.receiver.segmentReceived? seg).map fun receiver => { w with receiver }

/-- The segments of the stream `S` whose SYN is numbered `x`: the SYN with a part of `S` from its start, a slice of `S`
at its number, and a FIN behind the last byte. -/
def Genuine (S : List UInt8) (x : WrappingInt32) : Arrival → Prop
  | .segment seg i =>
    i + seg.payload.length ≤ S.length ∧ seg.payload = (S.drop i).take seg.payload.length ∧
      (seg.header.fin = true → i + seg.payload.length = S.length) ∧
      (seg.header.syn = true → i = 0 ∧ seg.header.seqno = x) ∧
      (seg.header.syn = false → seg.header.seqno = x.add (1 + i))
  | .read _ => True

/-- A segment without SYN whose first index is strictly beyond the window and less than `2 ^ 31` away. -/
def OutOfWindow (x : WrappingInt32) (w : Watched) (seg : TCPSegment) (i : Nat) : Prop :=
  seg.header.syn = false ∧ seg.header.seqno = x.add (1 + i) ∧
    w.receiver.reassembler.firstUnassembled + w.receiver.windowSize < i ∧
    i < w.receiver.reassembler.firstUnassembled + 2 ^ 31

/-- What may reach the receiver. -/
def Attack (S : List UInt8) (x : WrappingInt32) (w : Watched) : Event → Prop
  | .genuine a => Genuine S x a
  | .injected seg i => OutOfWindow x w seg i

/-- Genuine segments arrive while the window's edge is a 64-bit number, and no injected FIN comes between the SYN and
the genuine FIN. -/
def Harmless (c : Nat) (w : Watched) : Event → Prop
  | .genuine a => EdgeFits c w a
  | .injected seg _ => w.synReceived = true → seg.header.fin = true → w.finReceived = true

/-- The stream is unharmed: it does not end before all of `S` is assembled, and it ends with `S` once the FIN and every
byte have arrived in the window. -/
def Unharmed (S : List UInt8) (w : Watched) : Prop :=
  (w.receiver.streamOut.inputEnded = true → S.length ≤ w.receiver.streamOut.writeCount) ∧
    (w.finReceived = true → (∀ p < S.length, p ∈ w.accepted) →
      w.receiver.streamOut.inputEnded = true ∧ w.taken ++ w.receiver.streamOut.pending = S)

section Step

variable {S : List UInt8} {x : WrappingInt32} {c : Nat} {w : Watched}

/-- In a stream this short every genuine segment is near enough to be placed. -/
theorem Sound.admissible (h : Sound S x c w) (short : S.length < 2 ^ 30) {a : Arrival} (genuine : Genuine S x a) :
    Admissible S x w a := by
  cases a with
  | read => trivial
  | segment seg i =>
    obtain ⟨inside, payload, last, first, later⟩ := genuine
    by_cases same : seg.header.syn = w.synReceived
    · exact Or.inl same
    · refine Or.inr ⟨inside, payload, last, fun before => first ?_, fun received => ⟨later ?_, ?_⟩⟩
      · rw [before] at same
        simpa using same
      · rw [received] at same
        simpa using same
      · have written := h.tracks.rep.written
        have assembled := h.tracks.inside
        rw [streamOut, ← written]
        omega

/-- The index an injected segment claims is the one the receiver computes. -/
theorem Sound.injected_place (h : Sound S x c w) (short : S.length < 2 ^ 30) (received : w.synReceived = true)
    {seg : TCPSegment} {i : Nat} (outside : OutOfWindow x w seg i) :
    w.receiver.ignores seg = false ∧ w.receiver.streamIndex seg = i := by
  obtain ⟨noSyn, seqno, -, near⟩ := outside
  have synced := h.after received
  have inside := h.tracks.inside
  simp only [StreamReassembler.firstUnassembled] at near
  have read : ∀ v, v < 2 ^ 32 → unwrap (wrap v x) x w.receiver.lastAbseqno = v := by
    intro v first
    rw [synced.last]
    exact unwrap_wrap_low x first (by omega)
  rw [ignores, streamIndex, synced.syn, noSyn, seqno, ← wrap_eq_add, synced.isn, read (1 + i) (by omega), Nat.add_comm 1 i,
    wrap_succ_sub_one, read i (by omega)]
  simp

/-- **One injected segment** that does not bring the first FIN. -/
theorem Sound.injected (h : Sound S x c w) (short : S.length < 2 ^ 30) {seg : TCPSegment} {i : Nat}
    (outside : OutOfWindow x w seg i)
    (noFin : w.synReceived = true → seg.header.fin = true → w.finReceived = true) :
    ∃ w', w.attackedStep c (.injected seg i) = some w' ∧ Sound S x c w' := by
  cases received : w.synReceived with
  | false =>
    have ignored := h.ignored (outside.1.trans received.symm)
    exact ⟨w, by rw [Watched.attackedStep, ignored]; rfl, h⟩
  | true =>
    obtain ⟨taken, place⟩ := h.injected_place short received outside
    obtain ⟨noSyn, -, beyond, near⟩ := outside
    have inside := h.tracks.inside
    simp only [StreamReassembler.firstUnassembled] at beyond near
    have edge : w.receiver.reassembler.maxAcindex ≤ i := by
      have exact_ : w.receiver.reassembler.maxAcindex = w.receiver.reassembler.firstIndex + w.receiver.windowSize := by
        refine add64_eq ?_
        simp only [windowSize, streamOut, word64] at beyond ⊢
        omega
      omega
    have late : seg.header.fin = false ∨ w.finReceived = true := by
      cases fin : seg.header.fin with
      | false => exact Or.inl rfl
      | true => exact Or.inr (noFin received fin)
    have pushed := h.tracks.push_beyond seg.payload edge late
    have synced := (h.after received).afterPush noSyn pushed (Nat.le_refl _)
    refine ⟨{ w with receiver := w.receiver.afterPush seg.header w.receiver.reassembler }, ?_, ?_, ?_, fun _ => synced⟩
    · simp only [Watched.attackedStep, segmentReceived?, taken, place, pushed, Bool.false_eq_true, if_false, Option.map_some]
    · simp only [afterPush_reassembler _ _ h.tracks.ended]
      exact h.tracks
    · intro before
      rw [show w.synReceived = false from before] at received
      cases received

theorem Sound.attackedStep (h : Sound S x c w) (short : S.length < 2 ^ 30) {a : Event} (attack : Attack S x w a)
    (harmless : Harmless c w a) : ∃ w', w.attackedStep c a = some w' ∧ Sound S x c w' := by
  cases a with
  | genuine a => exact h.step (by omega) (h.admissible short attack) harmless
  | injected seg i => exact h.injected short attack harmless

theorem Sound.unharmed (h : Sound S x c w) : Unharmed S w := by
  obtain ⟨m, least, inside, bytes, -, -, -, ended⟩ := h.correct
  have first : m = w.receiver.reassembler.firstIndex := by
    have missing : IsLeast {p | p ∉ w.accepted} w.receiver.reassembler.firstIndex := by simpa using h.tracks.missing
    exact least.unique missing
  refine ⟨fun isEnded => ?_, fun fin all => ?_⟩
  · rw [streamOut, ← h.tracks.rep.written, ← first, (ended.1 isEnded).2]
  · have whole : m = S.length := by
      by_contra short
      exact least.1 (all m (by omega))
    rw [whole, List.take_length] at bytes
    exact ⟨ended.2 ⟨fin, whole⟩, bytes⟩

end Step

/-- **Out-of-window segments cannot harm the stream** in any run in which no injected FIN comes between the SYN and the
genuine FIN and the window's edge stays a 64-bit number; and no such event makes the receiver throw. -/
theorem injection_unharmed (S : List UInt8) (x : WrappingInt32) (c : Nat) (short : S.length < 2 ^ 30) (w : Watched)
    (run : Reaches (Watched.attackedStep c) (fun w a => Attack S x w a ∧ Harmless c w a) { receiver := .new c } w) :
    Unharmed S w ∧ ∀ a, Attack S x w a → Harmless c w a → ∃ w', w.attackedStep c a = some w' := by
  have sound : Sound S x c w := by
    refine run.invariant (.start S x c) fun w a w' sound ⟨attack, harmless⟩ step => ?_
    obtain ⟨_, step', sound⟩ := sound.attackedStep short attack harmless
    rw [step] at step'
    cases step'
    exact sound
  refine ⟨sound.unharmed, fun a attack harmless => ?_⟩
  obtain ⟨w', step, -⟩ := sound.attackedStep short attack harmless
  exact ⟨w', step⟩

instance (S : List UInt8) (x : WrappingInt32) : DecidablePred (Genuine S x)
  | .segment _ _ => inferInstanceAs (Decidable (_ ∧ _))
  | .read _ => .isTrue trivial

instance (S : List UInt8) (x : WrappingInt32) (w : Watched) : DecidablePred (Attack S x w)
  | .genuine a => inferInstanceAs (Decidable (Genuine S x a))
  | .injected _ _ => inferInstanceAs (Decidable (_ ∧ _))

instance (c : Nat) (w : Watched) : DecidablePred (Harmless c w)
  | .genuine a => inferInstanceAs (Decidable (EdgeFits c w a))
  | .injected _ _ => inferInstanceAs (Decidable (_ → _))

/-- Data from outside the window after the SYN, and a FIN from outside after the genuine one. -/
theorem injection_unharmed_data :
    ∃ w, follow (Watched.attackedStep 2) (fun w a => Attack [7, 8, 9] (.ofNat (2 ^ 32 - 2)) w a ∧ Harmless 2 w a)
        { receiver := .new 2 }
        [.genuine (.segment { header := { seqno := .ofNat (2 ^ 32 - 2), syn := true }, payload := [7] } 0),
          .injected { header := { seqno := .ofNat 2, rst := true }, payload := [1, 2] } 3,
          .genuine (.segment { header := { seqno := .ofNat 1, fin := true }, payload := [9] } 2),
          .injected { header := { seqno := .ofNat 9, fin := true } } 10, .genuine (.read 1),
          .genuine (.segment { header := { seqno := .ofNat 0, fin := true }, payload := [8, 9] } 1), .genuine (.read 2),
          .genuine (.segment { header := { seqno := .ofNat 1, fin := true }, payload := [9] } 2)] = some w ∧
      w.receiver.streamOut.inputEnded = true ∧ Unharmed [7, 8, 9] w := by
  obtain ⟨w, run, ended⟩ := Option.map_eq_some_iff.1 (show (follow (Watched.attackedStep 2)
    (fun w a => Attack [7, 8, 9] (.ofNat (2 ^ 32 - 2)) w a ∧ Harmless 2 w a) { receiver := .new 2 }
    [.genuine (.segment { header := { seqno := .ofNat (2 ^ 32 - 2), syn := true }, payload := [7] } 0),
      .injected { header := { seqno := .ofNat 2, rst := true }, payload := [1, 2] } 3,
      .genuine (.segment { header := { seqno := .ofNat 1, fin := true }, payload := [9] } 2),
      .injected { header := { seqno := .ofNat 9, fin := true } } 10, .genuine (.read 1),
      .genuine (.segment { header := { seqno := .ofNat 0, fin := true }, payload := [8, 9] } 1), .genuine (.read 2),
      .genuine (.segment { header := { seqno := .ofNat 1, fin := true }, payload := [9] } 2)]).map
      (fun w => w.receiver.streamOut.inputEnded) = some true by decide +kernel)
  exact ⟨w, run, ended, (injection_unharmed _ _ _ (by decide) w (Reaches.start.follow run)).1⟩

/-- An empty segment with FIN from beyond the window, between the SYN and the only byte of the stream: the byte and its
FIN arrive in the window and the input never ends. -/
theorem injected_fin_harms :
    ¬ ∀ (S : List UInt8) (x : WrappingInt32) (c : Nat), S.length < 2 ^ 30 → c < 2 ^ 64 →
      ∀ w, Reaches (Watched.attackedStep c) (Attack S x) { receiver := .new c } w → Unharmed S w := by
  intro claim
  have facts : (follow (Watched.attackedStep 1) (Attack [1] (.ofNat 0)) { receiver := .new 1 }
      [.genuine (.segment { header := { syn := true } } 0), .injected { header := { seqno := .ofNat 3, fin := true } } 2,
        .genuine (.segment { header := { seqno := .ofNat 1, fin := true }, payload := [1] } 0)]).map
        (fun w => (w.accepted, w.finReceived, w.receiver.streamOut.inputEnded)) = some ({0}, true, false) := by
    decide +kernel
  obtain ⟨w, run, seen⟩ := Option.map_eq_some_iff.1 facts
  obtain ⟨accepted, fin, open_⟩ : w.accepted = {0} ∧ w.finReceived = true ∧ w.receiver.streamOut.inputEnded = false := by
    simpa using seen
  have unharmed := claim [1] (.ofNat 0) 1 (by decide) (by decide) w (Reaches.start.follow run)
  have ended := (unharmed.2 fin (by rw [accepted]; decide)).1
  rw [open_] at ended
  cases ended

end TCPReceiver

end Sponge
