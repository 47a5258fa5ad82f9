/-!
# Components that answer calls

A component takes a call and gives an answer and its next state, or it fails.
One that, seen through a view of its states, does call by call what another does
gives the same answers on every list of calls (`Refines.answers`): refinement,
where the other is the specification. Facts about the answers are then proved
of the specification alone, from one call.
-/

namespace Component

universe u v w x y

variable {σ : Type u} {τ : Type v} {α : Type w} {β : Type x}

/-- The answers to a list of calls and the state they leave, if no call fails. -/
def answers (call : σ → α → Option (β × σ)) : σ → List α → Option (List β × σ)
  | s, [] => some ([], s)
  | s, a :: rest => (call s a).bind fun (b, s') => (answers call s' rest).map fun (bs, s'') => (b :: bs, s'')

/-- The same for a component that never fails. -/
def replies (call : τ → α → β × τ) : τ → List α → List β × τ
  | t, [] => ([], t)
  | t, a :: rest => ((call t a).1 :: (replies call (call t a).2 rest).1, (replies call (call t a).2 rest).2)

/-- `low` never fails, and seen through `view` it does what `high` does. -/
def Refines (view : σ → τ) (low : σ → α → Option (β × σ)) (high : τ → α → β × τ) : Prop :=
  ∀ s a, ∃ s', low s a = some ((high (view s) a).1, s') ∧ view s' = (high (view s) a).2

/-- **Refinement of one call is refinement of every list of calls.** -/
theorem Refines.answers {view : σ → τ} {low : σ → α → Option (β × σ)} {high : τ → α → β × τ}
    (refines : Refines view low high) (s : σ) (calls : List α) :
    ∃ s', Component.answers low s calls = some ((replies high (view s) calls).1, s') ∧
      view s' = (replies high (view s) calls).2 := by
  induction calls generalizing s with
  | nil => exact ⟨s, rfl, rfl⟩
  | cons a rest ih =>
    obtain ⟨mid, first, same⟩ := refines s a
    obtain ⟨last, run, ends⟩ := ih mid
    rw [same] at run ends
    refine ⟨last, ?_, ends⟩
    rw [Component.answers, first, Option.bind_some]
    dsimp only
    rw [run, Option.map_some, replies]

section Replies

variable {call : τ → α → β × τ}

/-- What one call says of its answer and keeps of the state, all calls do. -/
theorem replies_invariant {inv : τ → Prop} {good : β → Prop}
    (step : ∀ t a, inv t → good (call t a).1 ∧ inv (call t a).2) {t : τ} (start : inv t) (calls : List α) :
    (∀ b ∈ (replies call t calls).1, good b) ∧ inv (replies call t calls).2 := by
  induction calls generalizing t with
  | nil => exact ⟨by simp [replies], start⟩
  | cons a rest ih =>
    obtain ⟨first, next⟩ := step t a start
    obtain ⟨others, last⟩ := ih next
    exact ⟨List.forall_mem_cons.2 ⟨first, others⟩, last⟩

/-- If no call loses, doubles or reorders what the state holds, what left over all calls, followed by what is held, is
what was held, followed by what entered. -/
theorem replies_balance {γ : Type y} {held : τ → List γ} {entered left : β → List γ}
    (step : ∀ t a, held t ++ entered (call t a).1 = left (call t a).1 ++ held (call t a).2) (t : τ) (calls : List α) :
    held t ++ ((replies call t calls).1.map entered).flatten =
      ((replies call t calls).1.map left).flatten ++ held (replies call t calls).2 := by
  induction calls generalizing t with
  | nil => simp [replies]
  | cons a rest ih =>
    rw [replies, List.map_cons, List.map_cons, List.flatten_cons, List.flatten_cons, ← List.append_assoc, step t a,
      List.append_assoc, ih, List.append_assoc]

end Replies

end Component
