import Mathlib.Data.Set.Card
import Mathlib.Data.List.Basic
import Mathlib.Order.Interval.Set.Basic
import Mathlib.Order.Interval.Finset.Nat

/-!
# Separated runs of positions, and pieces of a list

A set of positions kept as a list of runs `[start, start + size)` with a gap
between any two of them. `ncard_covered` counts such a set by adding the sizes.
The second half is about pieces of a list `S` at their positions: `a` is a piece
at `i` when `a <+: S.drop i`, and two pieces that touch glue to one.
-/

namespace Sponge

/-- The positions `[start, start + size)`. -/
structure Run where
  start : Nat
  size : Nat

/-- The positions of a list of runs. -/
def covered (runs : List Run) : Set Nat :=
  {p | ∃ r ∈ runs, r.start ≤ p ∧ p < r.start + r.size}

/-- Sorted, with at least one free position between two runs. -/
def Separated (runs : List Run) : Prop :=
  runs.Pairwise fun a b => a.start + a.size < b.start

@[simp] theorem mem_covered_cons {r : Run} {runs : List Run} {p : Nat} :
    p ∈ covered (r :: runs) ↔ (r.start ≤ p ∧ p < r.start + r.size) ∨ p ∈ covered runs := by
  simp [covered]

@[simp] theorem covered_nil : covered [] = ∅ := by
  simp [covered]

@[simp] theorem mem_covered_append {a b : List Run} {p : Nat} :
    p ∈ covered (a ++ b) ↔ p ∈ covered a ∨ p ∈ covered b := by
  simp only [covered, List.mem_append, Set.mem_ofPred_eq]
  constructor
  · rintro ⟨r, hr | hr, h⟩
    · exact Or.inl ⟨r, hr, h⟩
    · exact Or.inr ⟨r, hr, h⟩
  · rintro (⟨r, hr, h⟩ | ⟨r, hr, h⟩)
    · exact ⟨r, Or.inl hr, h⟩
    · exact ⟨r, Or.inr hr, h⟩

theorem covered_cons (r : Run) (runs : List Run) :
    covered (r :: runs) = Set.Ico r.start (r.start + r.size) ∪ covered runs := by
  ext p
  simp

theorem finite_covered (runs : List Run) : (covered runs).Finite := by
  induction runs with
  | nil => simp
  | cons r runs ih =>
    rw [covered_cons]
    exact (Set.finite_Ico _ _).union ih

/-- Every position of a separated list lies past the runs before it. -/
theorem Separated.after {r : Run} {runs : List Run} (sep : Separated (r :: runs)) {p : Nat}
    (h : p ∈ covered runs) : r.start + r.size < p := by
  obtain ⟨q, hq, lower, _⟩ := h
  have gap := List.rel_of_pairwise_cons sep hq
  omega

/-- The number of positions of a separated list is the sum of the sizes. -/
theorem ncard_covered {runs : List Run} (sep : Separated runs) :
    (covered runs).ncard = (runs.map Run.size).sum := by
  induction runs with
  | nil => simp
  | cons r runs ih =>
    have apart : Disjoint (Set.Ico r.start (r.start + r.size)) (covered runs) := by
      rw [Set.disjoint_left]
      intro p here there
      have past := sep.after there
      have inside := here.2
      omega
    rw [covered_cons, Set.ncard_union_eq apart (Set.finite_Ico _ _) (finite_covered runs),
      ih (List.Pairwise.of_cons sep), List.map_cons, List.sum_cons, Set.ncard_eq_toFinset_card']
    simp

section Pieces

variable {α : Type*} {S a b : List α} {i j : Nat}

/-- A piece of `S` is a piece of every extension of `S`. -/
theorem piece_mono {S' : List α} (piece : a <+: S.drop i) (grows : S <+: S') : a <+: S'.drop i :=
  piece.trans (grows.drop i)

theorem piece_length (piece : a <+: S.drop i) : a.length ≤ S.length - i := by
  simpa using piece.length_le

/-- Dropping from a piece moves it to the right. -/
theorem piece_drop (piece : a <+: S.drop i) (k : Nat) : a.drop k <+: S.drop (i + k) := by
  simpa [List.drop_drop] using piece.drop k

/-- A piece that starts inside or right after another one extends it. -/
theorem piece_glue (left : a <+: S.drop i) (right : b <+: S.drop j)
    (touch : j ≤ i + a.length) : a ++ b.drop (i + a.length - j) <+: S.drop i := by
  obtain ⟨rest, whole⟩ := left
  have tail : S.drop (i + a.length) = rest := by
    rw [← List.drop_drop, ← whole, List.drop_left]
  have moved := piece_drop right (i + a.length - j)
  rw [show j + (i + a.length - j) = i + a.length by omega, tail] at moved
  rw [← whole]
  exact (List.prefix_append_right_inj a).2 moved

/-- A piece at the end of a known prefix extends it. -/
theorem take_append_piece (piece : a <+: S.drop i) :
    S.take i ++ a = S.take (i + a.length) := by
  rw [List.take_add, List.prefix_iff_eq_take.1 piece, List.length_take]
  have bound := piece_length piece
  simp only [List.length_drop]
  congr 2
  omega

/-- The slice `S[i .. i + n)` is a piece at `i`. -/
theorem piece_slice (n : Nat) : (S.drop i).take n <+: S.drop i := List.take_prefix _ _

end Pieces

end Sponge
