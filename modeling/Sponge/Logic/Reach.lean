/-!
# Runs of a partial step function

A component is a step function that may refuse an action. Which actions its
environment may take in a state is a second parameter, so a result about all
runs and the same result about the runs that meet a condition have one form.
-/

namespace Sponge

universe u v u' v'

/-- The states reached from `first` by the actions that `ok` allows. -/
inductive Reaches {σ : Type u} {α : Type v} (step : σ → α → Option σ) (ok : σ → α → Prop) (first : σ) : σ → Prop where
  | start : Reaches step ok first first
  | step {s s' : σ} {a : α} (before : Reaches step ok first s) (allowed : ok s a) (run : step s a = some s') :
      Reaches step ok first s'

section Runs

variable {σ : Type u} {α : Type v} {step : σ → α → Option σ} {ok : σ → α → Prop} {first s : σ}

/-- What holds at the start and is kept by every step holds in every state reached. -/
theorem Reaches.invariant {inv : σ → Prop} (reached : Reaches step ok first s) (start : inv first)
    (keeps : ∀ s a s', inv s → ok s a → step s a = some s' → inv s') : inv s := by
  induction reached with
  | start => exact start
  | step _ allowed run ih => exact keeps _ _ _ ih allowed run

/-- Runs compose. -/
theorem Reaches.trans {mid : σ} (reached : Reaches step ok first mid) (more : Reaches step ok mid s) :
    Reaches step ok first s := by
  induction more with
  | start => exact reached
  | step _ allowed run ih => exact ih.step allowed run

/-- One step is a run. -/
theorem Reaches.single {a : α} (allowed : ok first a) (run : step first a = some s) : Reaches step ok first s :=
  .step .start allowed run

theorem Reaches.mono {ok' : σ → α → Prop} (reached : Reaches step ok first s) (weaker : ∀ s a, ok s a → ok' s a) :
    Reaches step ok' first s := by
  induction reached with
  | start => exact .start
  | step _ allowed run ih => exact ih.step (weaker _ _ allowed) run

/-- A run, with the actions that were taken. -/
inductive Traces (step : σ → α → Option σ) (ok : σ → α → Prop) : σ → List α → σ → Prop where
  | done (s : σ) : Traces step ok s [] s
  | next {s mid s' : σ} {a : α} {rest : List α} (allowed : ok s a) (run : step s a = some mid)
      (more : Traces step ok mid rest s') : Traces step ok s (a :: rest) s'

theorem Traces.append {mid : σ} {before after : List α} (first_ : Traces step ok first before mid)
    (second : Traces step ok mid after s) : Traces step ok first (before ++ after) s := by
  induction first_ with
  | done => exact second
  | next allowed run _ ih => exact .next allowed run (ih second)

theorem Traces.single {a : α} (allowed : ok first a) (run : step first a = some s) : Traces step ok first [a] s :=
  .next allowed run (.done s)

theorem Traces.reaches {actions : List α} (trace : Traces step ok first actions s) : Reaches step ok first s := by
  induction trace with
  | done => exact .start
  | next allowed run _ ih => exact (Reaches.single allowed run).trans ih

/-- The state after a list of actions, if each is allowed and none is refused. -/
def follow (step : σ → α → Option σ) (ok : σ → α → Prop) [∀ s, DecidablePred (ok s)] : σ → List α → Option σ
  | s, [] => some s
  | s, a :: rest => if ok s a then (step s a).bind fun s' => follow step ok s' rest else none

theorem Reaches.follow [∀ s, DecidablePred (ok s)] {s' : σ} {actions : List α} (reached : Reaches step ok first s)
    (run : Sponge.follow step ok s actions = some s') : Reaches step ok first s' := by
  induction actions generalizing s with
  | nil =>
    cases run
    exact reached
  | cons a rest ih =>
    rw [Sponge.follow] at run
    split at run
    · rename_i allowed
      obtain ⟨mid, run, rest⟩ := Option.bind_eq_some_iff.1 run
      exact ih (reached.step allowed run) rest
    · cases run

/-- **A component binds itself once.** While it is free it records free events; one event binds it to a key, and from
then on it stays bound to that key and records events of it. -/
theorem Reaches.binds_once {ε : Type u'} {κ : Type v'} (reached : Reaches step ok first s) (log : σ → List ε)
    (bound : σ → Option κ) (Free : ε → Prop) (Opens Belongs : κ → ε → Prop) (empty : log first = []) (free : bound first = none)
    (unbound : ∀ s a s', Reaches step ok first s → bound s = none → ok s a → step s a = some s' →
      (bound s' = none ∧ ∃ new, log s' = log s ++ new ∧ ∀ e ∈ new, Free e) ∨
        ∃ k e, bound s' = some k ∧ log s' = log s ++ [e] ∧ Opens k e)
    (kept : ∀ s a s' k, bound s = some k → ok s a → step s a = some s' →
      bound s' = some k ∧ ∃ new, log s' = log s ++ new ∧ ∀ e ∈ new, Belongs k e) :
    (bound s = none ∧ ∀ e ∈ log s, Free e) ∨
      ∃ k before e after, bound s = some k ∧ log s = before ++ e :: after ∧ (∀ e ∈ before, Free e) ∧ Opens k e ∧
        ∀ e ∈ after, Belongs k e := by
  induction reached with
  | start => exact Or.inl ⟨free, by simp [empty]⟩
  | @step s s' a before allowed run ih =>
    rcases ih with ⟨none_, events⟩ | ⟨k, earlier, e, after, bound_, shape, free_, opens, belongs⟩
    · rcases unbound s a s' before none_ allowed run with ⟨still, new, more, fresh⟩ | ⟨k, e, now, more, opens⟩
      · refine Or.inl ⟨still, ?_⟩
        rw [more]
        exact List.forall_mem_append.2 ⟨events, fresh⟩
      · exact Or.inr ⟨k, log s, e, [], now, more, events, opens, by simp⟩
    · obtain ⟨still, new, more, fresh⟩ := kept s a s' k bound_ allowed run
      refine Or.inr ⟨k, earlier, e, after ++ new, still, ?_, free_, opens, List.forall_mem_append.2 ⟨belongs, fresh⟩⟩
      rw [more, shape, List.append_assoc, List.cons_append]

end Runs

end Sponge
