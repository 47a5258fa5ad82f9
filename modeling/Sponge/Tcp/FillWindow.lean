import Sponge.Tcp.SenderSpec

/-!
# `fill_window` fills the window exactly

The states at the head of the loop are `Heads`, and `Leaves` is how the loop is
left from one of them. Each iteration that goes on puts at least one more number
in flight, so the numbers the window still allows bound the iterations. The
allowance `ex` for probing a closed window is there for the first iteration
only, and after that iteration something is in flight.

All of this holds in every state. The one subtraction that can go below zero is
that of `bytes_in_flight`, once `2 ^ 64` numbers have been sent; its result is
right nevertheless.
-/

namespace Sponge

namespace TCPSender

/-- The states at the head of the loop of one call, with the allowance for a probe. -/
inductive Heads (first : TCPSender) : TCPSender → Nat → Prop where
  | enter : Heads first first (if first.windowSize = 0 then 1 else 0)
  | again {s s' : TCPSender} {ex : Nat} (before : Heads first s ex)
      (room : s.bytesInFlight < s.windowSize.toNat + ex) (more : s.fillBody ex = (s', true)) : Heads first s' 0

/-- The loop is left at a head: its condition fails there, or its body breaks. -/
inductive Leaves (s : TCPSender) (ex : Nat) : TCPSender → Prop where
  | full (full : s.windowSize.toNat + ex ≤ s.bytesInFlight) : Leaves s ex s
  | done {s' : TCPSender} (room : s.bytesInFlight < s.windowSize.toNat + ex) (stop : s.fillBody ex = (s', false)) :
      Leaves s ex s'

/-- No subtraction of an iteration goes below zero: those of `bytes_in_flight` and of `_window_size - bytes_in_flight()`,
the SYN, the payload and the FIN. -/
structure NoUnderflow (s : TCPSender) (ex : Nat) : Prop where
  flight : s.lastAckedAbsSeqno ≤ s.nextAbsSeqno
  window : s.bytesInFlight < s.windowSize.toNat + ex → s.bytesInFlight ≤ s.windowSize.toNat
  syn : s.bytesInFlight < s.windowSize.toNat + ex → s.syned = false →
    1 ≤ s.windowSize.toNat - s.bytesInFlight + ex
  payload : s.bytesInFlight < s.windowSize.toNat + ex → (s.nextSegment ex).payload.length ≤ s.allowSize ex
  fin : s.bytesInFlight < s.windowSize.toNat + ex → s.carriesFin ex = true →
    1 ≤ s.allowSize ex - (s.nextSegment ex).payload.length

/-- The window is filled and not exceeded. -/
structure FillsExactly (s : TCPSender) : Prop where
  terminates : ∃ t ex, Heads s t ex ∧ Leaves t ex s.fillWindow
  within : appended s s.fillWindow ≠ [] → s.fillWindow.bytesInFlight ≤ max s.windowSize.toNat 1
  maximal : max s.windowSize.toNat 1 ≤ s.fillWindow.bytesInFlight ∨ s.fillWindow.fined = true ∨
    s.fillWindow.stream.bufferEmpty = true ∧ (s.fillWindow.stream.inputEnded = true → s.fillWindow.fined = true)
  subtractions : ∀ t ex, Heads s t ex → NoUnderflow t ex

section Loop

variable {s t t' : TCPSender} {n ex : Nat}

/-- The body goes on exactly if it created a segment. -/
theorem fillBody_more (more : s.fillBody ex = (t, true)) :
    s.fined = false ∧ 0 < (s.nextSegment ex).lengthInSequenceSpace ∧ t = s.create ex := by
  by_cases fined : s.fined = true
  · simp [fillBody_fined ex fined] at more
  · have unfinished := Bool.eq_false_iff.2 fined
    rcases Nat.eq_zero_or_pos (s.nextSegment ex).lengthInSequenceSpace with empty | nonempty
    · simp [fillBody_empty unfinished empty] at more
    · rw [fillBody_create unfinished nonempty] at more
      exact ⟨unfinished, nonempty, (Prod.mk.inj more).1.symm⟩

/-- The body breaks after the FIN or when there is nothing to send. -/
theorem fillBody_stop (stop : s.fillBody ex = (t, false)) :
    t = s ∧ (s.fined = true ∨ (s.nextSegment ex).lengthInSequenceSpace = 0) := by
  by_cases fined : s.fined = true
  · rw [fillBody_fined ex fined] at stop
    exact ⟨(Prod.mk.inj stop).1.symm, Or.inl fined⟩
  · have unfinished := Bool.eq_false_iff.2 fined
    rcases Nat.eq_zero_or_pos (s.nextSegment ex).lengthInSequenceSpace with empty | nonempty
    · rw [fillBody_empty unfinished empty] at stop
      exact ⟨(Prod.mk.inj stop).1.symm, Or.inr empty⟩
    · simp [fillBody_create unfinished nonempty] at stop

/-- What holds at every head: the allowance is for a closed window, and if it is used up, something is in flight or the
window is open. -/
structure AtHead (first t : TCPSender) (ex : Nat) : Prop where
  flight : ∃ n, t.InFlight n
  window : t.windowSize = first.windowSize
  probe : ex = 0 ∨ ex = 1 ∧ t.windowSize = 0
  spent : ex = 0 → 0 < t.bytesInFlight ∨ t.windowSize ≠ 0

theorem AtHead.can (h : AtHead s t ex) (room : t.bytesInFlight < t.windowSize.toNat + ex)
    (unfinished : t.fined = false) (nonempty : 0 < (t.nextSegment ex).lengthInSequenceSpace) : t.CanCreate ex :=
  ⟨unfinished, room, h.probe, nonempty⟩

/-- A creation puts its segment's numbers in flight. -/
theorem AtHead.bytesInFlight_create (h : AtHead s t ex) (can : t.CanCreate ex) :
    (t.create ex).bytesInFlight = t.bytesInFlight + (t.nextSegment ex).lengthInSequenceSpace := by
  obtain ⟨n, flight⟩ := h.flight
  have acked := flight.acked
  rw [(flight.create can).bytesInFlight, flight.bytesInFlight, create_lastAckedAbsSeqno]
  omega

theorem AtHead.create (h : AtHead s t ex) (can : t.CanCreate ex) : AtHead s (t.create ex) 0 where
  flight := h.flight.imp' _ fun _ flight => flight.create can
  window := h.window
  probe := Or.inl rfl
  spent := by
    intro
    have nonempty := can.nonempty
    rw [h.bytesInFlight_create can]
    exact Or.inl (by omega)

theorem AtHead.enter (flight : s.InFlight n) : AtHead s s (if s.windowSize = 0 then 1 else 0) := by
  by_cases closed : s.windowSize = 0
  · rw [if_pos closed]
    exact ⟨⟨n, flight⟩, rfl, Or.inr ⟨rfl, closed⟩, by simp⟩
  · rw [if_neg closed]
    exact ⟨⟨n, flight⟩, rfl, Or.inl rfl, fun _ => Or.inr closed⟩

theorem Heads.atHead (heads : Heads s t ex) (flight : s.InFlight n) : AtHead s t ex := by
  induction heads with
  | enter => exact .enter flight
  | again _ room more ih =>
    obtain ⟨unfinished, nonempty, rfl⟩ := fillBody_more more
    exact ih.create (ih.can room unfinished nonempty)

theorem AtHead.noUnderflow (h : AtHead s t ex) (flight : t.lastAckedAbsSeqno ≤ t.nextAbsSeqno) : NoUnderflow t ex where
  flight := flight
  window := by
    intro room
    have probe := h.probe
    omega
  syn := by
    intro room _
    have probe := h.probe
    omega
  payload := fun _ => Nat.le_trans (t.length_payload_le ex) (t.readSize_le ex).1
  fin := by
    intro room fin
    have left := fin_room room h.probe fin
    omega

/-- With fuel for the numbers that the window still allows, the loop is left where the code leaves it. -/
theorem fillLoop_leaves (fuel : Nat) (heads : Heads s t ex) (head : AtHead s t ex)
    (enough : t.windowSize.toNat + ex ≤ fuel + t.bytesInFlight) :
    ∃ t' ex', Heads s t' ex' ∧ Leaves t' ex' (fillLoop fuel t ex) := by
  induction fuel generalizing t ex with
  | zero => exact ⟨t, ex, heads, .full (by omega)⟩
  | succ fuel ih =>
    rw [fillLoop]
    by_cases room : t.bytesInFlight < t.windowSize.toNat + ex
    · rw [if_pos room]
      cases body : t.fillBody ex with
      | mk u more =>
        cases more with
        | false => exact ⟨t, ex, heads, .done room body⟩
        | true =>
          obtain ⟨unfinished, nonempty, rfl⟩ := fillBody_more body
          have can := head.can room unfinished nonempty
          refine ih (heads.again room body) (head.create can) ?_
          rw [create_windowSize, head.bytesInFlight_create can]
          omega
    · rw [if_neg room]
      exact ⟨t, ex, heads, .full (by omega)⟩

/-- Nothing to send although the window has room: the stream is drained, and its input has not ended. -/
theorem AtHead.drained (h : AtHead s t ex) (room : t.bytesInFlight < t.windowSize.toNat + ex)
    (empty : (t.nextSegment ex).lengthInSequenceSpace = 0) :
    t.stream.bufferEmpty = true ∧ t.stream.inputEnded = false := by
  rw [t.length_nextSegment ex] at empty
  have syned : t.syned = true := by
    cases syned : t.syned with
    | true => rfl
    | false => simp [syned] at empty
  have payload : (t.nextSegment ex).payload = [] := List.length_eq_zero_iff.1 (by omega)
  have fin : t.carriesFin ex = false := by
    cases fin : t.carriesFin ex with
    | false => rfl
    | true => simp [nextSegment, fin] at empty
  have allow := allowSize_of_room room h.probe
  have window := t.windowSize_le
  have probe := h.probe
  simp only [syned, if_true] at allow
  have reads : t.readSize ex ≠ 0 := by
    have limit : TCPConfig.maxPayloadSize = 1000 := rfl
    unfold readSize
    split <;> omega
  have pending : t.stream.pending = [] := by
    have nothing : t.stream.pending.take (t.readSize ex) = [] := payload
    exact (List.take_eq_nil_iff.1 nothing).resolve_left reads
  have drained : t.stream.bufferEmpty = true := (ByteStream.bufferEmpty_iff _).2 pending
  refine ⟨drained, ?_⟩
  simp only [nextSegment] at payload
  simp only [carriesFin, payload, ByteStream.popOutput_of_peek_nil payload, drained, List.length_nil, Bool.and_true,
    Bool.and_eq_false_iff, decide_eq_false_iff_not] at fin
  refine fin.resolve_left fun full => full ?_
  simp only [sub64, word64]
  omega

theorem AtHead.leaves (h : AtHead s t ex) (leaves : Leaves t ex t') :
    max s.windowSize.toNat 1 ≤ t'.bytesInFlight ∨ t'.fined = true ∨
      t'.stream.bufferEmpty = true ∧ (t'.stream.inputEnded = true → t'.fined = true) := by
  cases leaves with
  | full full =>
    refine Or.inl ?_
    rw [← h.window]
    rcases h.probe with rfl | ⟨rfl, closed⟩
    · rcases h.spent rfl with some | open_
      · omega
      · have positive : t.windowSize.toNat ≠ 0 := fun zero => open_ (UInt16.toNat_inj.1 zero)
        omega
    · simp only [closed, UInt16.toNat_zero] at full ⊢
      omega
  | done room stop =>
    obtain ⟨rfl, fined | empty⟩ := fillBody_stop stop
    · exact Or.inr (Or.inl fined)
    · obtain ⟨drained, unended⟩ := h.drained room empty
      refine Or.inr (Or.inr ⟨drained, fun ended => ?_⟩)
      rw [unended] at ended
      cases ended

/-- The call goes on from any of its heads. -/
theorem Heads.rest (heads : Heads s t ex) (flight : s.InFlight n) :
    ∃ fuel, s.fillWindow = fillLoop fuel t ex ∧ t.windowSize.toNat + ex ≤ fuel + t.bytesInFlight := by
  induction heads with
  | enter =>
    have probe := (AtHead.enter flight).probe
    exact ⟨_, rfl, by omega⟩
  | @again t _ ex before room more ih =>
    obtain ⟨fuel, same, enough⟩ := ih
    have head := before.atHead flight
    obtain ⟨fuel, rfl⟩ : ∃ k, fuel = k + 1 := Nat.exists_eq_succ_of_ne_zero (by omega)
    refine ⟨fuel, ?_, ?_⟩
    · rw [same, fillLoop, if_pos room, more]
      rfl
    · obtain ⟨unfinished, nonempty, rfl⟩ := fillBody_more more
      rw [create_windowSize, head.bytesInFlight_create (head.can room unfinished nonempty)]
      omega

/-- No head has sent more than the call leaves sent. -/
theorem Heads.few (heads : Heads s t ex) (flight : s.InFlight n)
    (few : s.fillWindow.lastAckedAbsSeqno ≤ s.fillWindow.nextAbsSeqno) : t.lastAckedAbsSeqno ≤ t.nextAbsSeqno := by
  obtain ⟨fuel, same, -⟩ := heads.rest flight
  obtain ⟨sent, head⟩ := (heads.atHead flight).flight
  have fills : Fills t s.fillWindow := by
    rw [same]
    exact fillLoop_fills fuel t (heads.atHead flight).probe
  obtain ⟨all, more, last, -⟩ := head.fills fills
  rw [last.acked_le_iff] at few
  rw [head.acked_le_iff]
  exact Nat.lt_of_le_of_lt more few

/-- The loop is left in the state of its last head. -/
theorem Leaves.same (leaves : Leaves t ex t') : t' = t := by
  cases leaves with
  | full => rfl
  | done _ stop => exact (fillBody_stop stop).1

theorem InFlight.fillsExactly_iff (flight : s.InFlight n) :
    s.FillsExactly ↔ s.fillWindow.lastAckedAbsSeqno ≤ s.fillWindow.nextAbsSeqno := by
  constructor
  · rintro ⟨⟨t, ex, heads, leaves⟩, -, -, subtractions⟩
    rw [leaves.same]
    exact (subtractions t ex heads).flight
  intro few
  have head := AtHead.enter flight
  obtain ⟨t, ex, heads, leaves⟩ : ∃ t ex, Heads s t ex ∧ Leaves t ex s.fillWindow := by
    refine fillLoop_leaves _ .enter head ?_
    have probe := head.probe
    omega
  refine ⟨⟨t, ex, heads, leaves⟩, fun sent => ?_, (heads.atHead flight).leaves leaves,
    fun _ _ heads => (heads.atHead flight).noUnderflow (heads.few flight few)⟩
  obtain ⟨m, -, after, ⟨same, -⟩ | reach⟩ := flight.fills s.fillWindow_fills
  · rw [same, appended_nil rfl] at sent
    exact absurd rfl sent
  · rw [after.bytesInFlight, s.fillWindow_fills.window.1]
    omega

end Loop

end TCPSender

end Sponge
