/-!
# Computations that keep a log

A computation that may fail, with what it recorded until then: reads of a memory,
calls, messages. The log survives a failure. `Does P x a` says that `x` gives `a`
and that everything it records satisfies `P`; it is carried through `do` blocks
step by step, so that a program's log is read off its text.
-/

universe u v w

/-- A result, unless the computation fails, and the events recorded. -/
structure Logged (ε : Type u) (α : Type v) where
  result : Option α
  log : List ε

namespace Logged

variable {ε : Type u} {α β : Type v}

instance : Monad (Logged ε) where
  pure a := ⟨some a, []⟩
  bind x f := match x.result with
    | none => ⟨none, x.log⟩
    | some a => ⟨(f a).result, x.log ++ (f a).log⟩

/-- One event, and what comes of it. -/
def record (e : ε) (a : Option α) : Logged ε α := ⟨a, [e]⟩

/-- A computation that records nothing. -/
def ofOption (a : Option α) : Logged ε α := ⟨a, []⟩

theorem bind_of_some {x : Logged ε α} {f : α → Logged ε β} {a : α} (first : x.result = some a) :
    x >>= f = ⟨(f a).result, x.log ++ (f a).log⟩ := by
  show (match x.result with | none => _ | some a => _) = _
  rw [first]

theorem bind_of_none {x : Logged ε α} {f : α → Logged ε β} (fails : x.result = none) : x >>= f = ⟨none, x.log⟩ := by
  show (match x.result with | none => _ | some a => _) = _
  rw [fails]

/-- What was recorded stays recorded. -/
theorem mem_bind {x : Logged ε α} {f : α → Logged ε β} {e : ε} (recorded : e ∈ x.log) : e ∈ (x >>= f).log := by
  cases first : x.result with
  | none => rw [bind_of_none first]; exact recorded
  | some a => rw [bind_of_some first]; exact List.mem_append_left _ recorded

/-- The computation gives `a`, and everything it records satisfies `P`. -/
structure Does (P : ε → Prop) (x : Logged ε α) (a : Option α) : Prop where
  result : x.result = a
  log : ∀ e ∈ x.log, P e

namespace Does

variable {P : ε → Prop} {x : Logged ε α} {f : α → Logged ε β}

theorem pure (a : α) : Does P (Pure.pure a) (some a) := ⟨rfl, by simp [Pure.pure]⟩

theorem record {e : ε} (a : Option α) (holds : P e) : Does P (Logged.record e a) a :=
  ⟨rfl, by simpa [Logged.record] using holds⟩

theorem ofOption (a : Option α) : Does P (Logged.ofOption a) a := ⟨rfl, by simp [Logged.ofOption]⟩

theorem bind {a : α} {b : Option β} (first : Does P x (some a)) (second : Does P (f a) b) : Does P (x >>= f) b := by
  rw [bind_of_some first.result]
  exact ⟨second.result, List.forall_mem_append.2 ⟨first.log, second.log⟩⟩

theorem bind_none (first : Does P x none) : Does P (x >>= f) none := by
  rw [bind_of_none first.result]
  exact ⟨rfl, first.log⟩

/-- The two cases in one. -/
theorem bind_option {a : Option α} {b : α → Option β} (first : Does P x a) (second : ∀ v, a = some v → Does P (f v) (b v)) :
    Does P (x >>= f) (a.bind b) := by
  cases a with
  | none => exact first.bind_none
  | some v => exact first.bind (second v rfl)

/-- A loop whose rounds do what those of another do. -/
theorem foldlM {γ : Type w} {f : α → γ → Logged ε α} {g : α → γ → Option α} {l : List γ}
    (round : ∀ a, ∀ c ∈ l, Does P (f a c) (g a c)) (a : α) : Does P (l.foldlM f a) (l.foldlM g a) := by
  induction l generalizing a with
  | nil => exact .pure a
  | cons c rest ih =>
    rw [List.foldlM_cons, List.foldlM_cons]
    refine (round a c List.mem_cons_self).bind_option fun a' _ => ?_
    exact ih (fun a c member => round a c (List.mem_cons_of_mem _ member)) a'

end Does

end Logged
