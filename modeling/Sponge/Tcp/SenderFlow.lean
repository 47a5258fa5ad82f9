import Sponge.Tcp.SenderSpec

/-!
# Flow control

`ack_received` takes over every window it is given, but takes over the
acknowledgment number only if it is new. The window `fill_window` obeys is thus
counted from the largest number acknowledged, whichever acknowledgment it came
with. `Flow` is the sender with the advertisements delivered to it; the numbers
it sends stay below what was advertised as long as no outdated acknowledgment
brings a window that reaches further from the largest number than any
advertisement did.
-/

namespace Sponge

namespace TCPSender

/-- An operation other than `ack_received`, or the delivery of an advertisement with its absolute number. -/
inductive Event where
  | other (op : Op)
  | deliver (ackno : Nat) (windowSize : UInt16)
  deriving DecidableEq

/-- The sender and the advertisements delivered to it so far. -/
structure Flow where
  sender : TCPSender
  delivered : List (Nat × UInt16) := []
  deriving DecidableEq

def Flow.step (f : Flow) : Event → Option Flow
  | .other op => some { f with sender := op.apply f.sender }
  | .deliver ackno windowSize => some {
      sender := f.sender.ackReceived (wrap ackno f.sender.isn) windowSize
      delivered := f.delivered ++ [(ackno, windowSize)] }

/-- A receiver's advertisements in the order it makes them: neither the number nor the right edge goes back. -/
def Advertised (ads : List (Nat × UInt16)) : Prop :=
  ads.Pairwise fun p q => p.1 ≤ q.1 ∧ p.1 + p.2.toNat ≤ q.1 + q.2.toNat

/-- Any of the advertisements may be delivered at any time and any number of times. None acknowledges what was not
sent, and none is so old that its 32 bits stand for another number. -/
def Delivers (ads : List (Nat × UInt16)) (f : Flow) : Event → Prop
  | .other op => ∀ ackno windowSize, op ≠ .ackReceived ackno windowSize
  | .deliver ackno windowSize => (ackno, windowSize) ∈ ads ∧ ackno ≤ f.sender.nextAbsSeqno ∧
      f.sender.lastAckedAbsSeqno < 2 ^ 63 ∧
      ackno < f.sender.lastAckedAbsSeqno + 2 ^ 31 ∧ f.sender.lastAckedAbsSeqno < ackno + 2 ^ 31

/-- Some advertisement delivered so far allows the number `p`. -/
def AllowedBy (delivered : List (Nat × UInt16)) (p : Nat) : Prop :=
  ∃ ad ∈ delivered, p < ad.1 + max ad.2.toNat 1

/-- Every new number that `fill_window` sends is allowed, or is that of the initial SYN. -/
def FlowControlled (f : Flow) : Prop :=
  ∀ p, f.sender.nextAbsSeqno ≤ p → p < f.sender.fillWindow.nextAbsSeqno → p = 0 ∨ AllowedBy f.delivered p

/-- An outdated acknowledgment brings a window that, counted from the largest number acknowledged, ends no further
than an advertisement that was delivered. -/
def Harmless (f : Flow) : Event → Prop
  | .other _ => True
  | .deliver ackno windowSize => ackno < f.sender.lastAckedAbsSeqno →
      ∃ ad ∈ f.delivered ++ [(ackno, windowSize)],
        f.sender.lastAckedAbsSeqno + max windowSize.toNat 1 ≤ ad.1 + max ad.2.toNat 1

section Step

variable {s t : TCPSender} {f f' : Flow}

/-- The invariant: the window held now ends where an advertisement ends, or none was delivered yet. -/
structure Bounded (f : Flow) : Prop where
  flight : ∃ n, f.sender.InFlight n
  edge : (f.sender.lastAckedAbsSeqno = 0 ∧ f.sender.windowSize = 1) ∨
    ∃ ad ∈ f.delivered, f.sender.lastAckedAbsSeqno + max f.sender.windowSize.toNat 1 ≤ ad.1 + max ad.2.toNat 1

theorem Bounded.flowControlled (h : Bounded f) : FlowControlled f := by
  intro p new sent
  have fills : f.sender.fillWindow.nextAbsSeqno ≤ f.sender.lastAckedAbsSeqno + max f.sender.windowSize.toNat 1 := by
    obtain ⟨n, flight⟩ := h.flight
    obtain ⟨m, -, after, ⟨same, -⟩ | reach⟩ := flight.fills f.sender.fillWindow_fills
    · rw [same] at sent
      omega
    · rw [after.next]
      exact Nat.le_trans (Nat.mod_le _ _) reach
  rcases h.edge with ⟨start, window⟩ | ⟨ad, member, edge⟩
  · refine Or.inl ?_
    rw [start, window] at fills
    have one : (1 : UInt16).toNat = 1 := rfl
    omega
  · exact Or.inr ⟨ad, member, by omega⟩

/-- An operation that keeps what the window is counted from. -/
theorem Bounded.of_same (h : Bounded f) (flight : ∃ n, t.InFlight n) (acked : t.lastAckedAbsSeqno = f.sender.lastAckedAbsSeqno)
    (window : t.windowSize = f.sender.windowSize) : Bounded { f with sender := t } := by
  refine ⟨flight, ?_⟩
  simp only [acked, window]
  exact h.edge

theorem Bounded.other (h : Bounded f) {op : Op} (noAck : ∀ ackno windowSize, op ≠ .ackReceived ackno windowSize) :
    Bounded { f with sender := op.apply f.sender } := by
  cases op with
  | write data => exact h.of_same (h.flight.imp fun _ flight => flight.of_same rfl rfl) rfl rfl
  | endInput => exact h.of_same (h.flight.imp fun _ flight => flight.of_same rfl rfl) rfl rfl
  | fillWindow =>
    have fills := f.sender.fillWindow_fills
    obtain ⟨n, flight⟩ := h.flight
    obtain ⟨m, -, after, -⟩ := flight.fills fills
    exact h.of_same ⟨m, after⟩ fills.window.1 fills.window.2
  | ackReceived ackno windowSize => exact absurd rfl (noAck ackno windowSize)
  | tick ms =>
    obtain ⟨same, window, -⟩ := f.sender.tick_spec ms
    exact h.of_same (h.flight.imp fun _ flight => flight.of_same same.next same.acked) same.acked window
  | sendEmptySegment => exact h.of_same (h.flight.imp fun _ flight => flight.of_same rfl rfl) rfl rfl

theorem Bounded.deliver (h : Bounded f) {ackno : Nat} {windowSize : UInt16} (range : f.sender.lastAckedAbsSeqno < 2 ^ 63)
    (above : ackno < f.sender.lastAckedAbsSeqno + 2 ^ 31) (below : f.sender.lastAckedAbsSeqno < ackno + 2 ^ 31)
    (harmless : Harmless f (.deliver ackno windowSize)) :
    Bounded { sender := f.sender.ackReceived (wrap ackno f.sender.isn) windowSize
              delivered := f.delivered ++ [(ackno, windowSize)] } := by
  have spec := f.sender.ackReceived_spec (wrap ackno f.sender.isn) windowSize
  rw [unwrap_wrap f.sender.isn range above below] at spec
  refine ⟨h.flight.imp fun _ flight => flight.ackedBy spec, Or.inr ?_⟩
  by_cases outdated : ackno < f.sender.lastAckedAbsSeqno
  · obtain ⟨ad, member, edge⟩ := harmless outdated
    refine ⟨ad, member, ?_⟩
    rw [spec.window, spec.acked, if_neg (by omega)]
    exact edge
  · -- a number that is not outdated is at least the one the window is counted from
    refine ⟨(ackno, windowSize), by simp, ?_⟩
    have counted : (f.sender.ackReceived (wrap ackno f.sender.isn) windowSize).lastAckedAbsSeqno ≤ ackno := by
      rw [spec.acked]
      split <;> omega
    rw [spec.window]
    dsimp only
    omega

end Step

/-- **Flow control** in every run in which the outdated acknowledgments are harmless. -/
theorem flow_controlled (capacity : Nat) (retxTimeout : UInt16) (isn : WrappingInt32) (ads : List (Nat × UInt16))
    (f : Flow)
    (run : Reaches Flow.step (fun f e => Delivers ads f e ∧ Harmless f e) { sender := .new capacity retxTimeout isn } f) :
    FlowControlled f := by
  have bounded : Bounded f := by
    refine run.invariant ⟨⟨0, (Tiled.new capacity retxTimeout isn).flight⟩, Or.inl ⟨rfl, rfl⟩⟩
      fun f e f' bounded ⟨ok, harmless⟩ step => ?_
    cases e with
    | other op =>
      cases step
      exact bounded.other ok
    | deliver ackno windowSize =>
      cases step
      obtain ⟨-, -, range, above, below⟩ := ok
      exact bounded.deliver range above below harmless
  exact bounded.flowControlled

instance : DecidablePred Advertised := fun _ => inferInstanceAs (Decidable (List.Pairwise _ _))

instance (delivered : List (Nat × UInt16)) : DecidablePred (AllowedBy delivered) :=
  fun _ => inferInstanceAs (Decidable (∃ ad ∈ delivered, _))

instance (ads : List (Nat × UInt16)) (f : Flow) : DecidablePred (Delivers ads f)
  | .other (.ackReceived ackno windowSize) => isFalse fun h => h ackno windowSize rfl
  | .other (.write _) | .other .endInput | .other .fillWindow | .other (.tick _) | .other .sendEmptySegment =>
    isTrue (by simp [Delivers])
  | .deliver _ _ => inferInstanceAs (Decidable (_ ∧ _))

instance (f : Flow) : DecidablePred (Harmless f)
  | .other _ => inferInstanceAs (Decidable True)
  | .deliver _ _ => inferInstanceAs (Decidable (_ → _))

/-- A window of 4 used up, a repeated acknowledgment, and a late one with a smaller window. -/
theorem flow_controlled_repeated :
    ∃ f, follow Flow.step (fun f e => Delivers [(1, 4), (3, 2), (5, 4)] f e ∧ Harmless f e)
        { sender := .new 10 1000 (.ofNat 0) }
        [.other (.write [1, 2, 3, 4, 5, 6, 7, 8]), .other .fillWindow, .deliver 1 4, .deliver 1 4, .other .fillWindow,
          .deliver 5 4, .other .fillWindow, .deliver 3 2] = some f ∧ FlowControlled f := by
  obtain ⟨f, run⟩ := Option.isSome_iff_exists.1 (show (follow Flow.step
    (fun f e => Delivers [(1, 4), (3, 2), (5, 4)] f e ∧ Harmless f e) { sender := .new 10 1000 (.ofNat 0) }
    [.other (.write [1, 2, 3, 4, 5, 6, 7, 8]), .other .fillWindow, .deliver 1 4, .deliver 1 4, .other .fillWindow,
      .deliver 5 4, .other .fillWindow, .deliver 3 2]).isSome = true by decide +kernel)
  exact ⟨f, run, flow_controlled _ _ _ _ f (Reaches.start.follow run)⟩

/-- A receiver advertises a window of 4 at number 1 and, with four bytes unread, a closed window at 5. The first
advertisement, delivered again after the second, opens a window of 4 at 5: numbers 5 to 8 are sent, where only the
probe 5 is allowed. -/
theorem flow_outdated_window :
    ¬ ∀ (capacity : Nat) (retxTimeout : UInt16) (isn : WrappingInt32) (ads : List (Nat × UInt16)), Advertised ads →
      ∀ f, Reaches Flow.step (Delivers ads) { sender := .new capacity retxTimeout isn } f → FlowControlled f := by
  intro claim
  have facts : (follow Flow.step (Delivers [(1, 4), (5, 0)]) { sender := .new 10 1000 (.ofNat 0) }
      [.other (.write [1, 2, 3, 4, 5, 6, 7, 8]), .other .fillWindow, .deliver 1 4, .other .fillWindow, .deliver 5 0,
        .deliver 1 4]).map
        (fun f => (f.delivered, f.sender.nextAbsSeqno, f.sender.fillWindow.nextAbsSeqno)) =
      some ([(1, 4), (5, 0), (1, 4)], 5, 9) := by
    decide +kernel
  obtain ⟨f, run, seen⟩ := Option.map_eq_some_iff.1 facts
  obtain ⟨delivered, next, filled⟩ : f.delivered = [(1, 4), (5, 0), (1, 4)] ∧ f.sender.nextAbsSeqno = 5 ∧
      f.sender.fillWindow.nextAbsSeqno = 9 := by
    simpa using seen
  have controlled := claim 10 1000 (.ofNat 0) [(1, 4), (5, 0)] (by decide) f (Reaches.start.follow run) 6
    (by omega) (by omega)
  rw [delivered] at controlled
  exact absurd controlled (by decide)

end TCPSender

end Sponge
