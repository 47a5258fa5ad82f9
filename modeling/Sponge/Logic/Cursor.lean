import Mathlib.Data.List.Basic

/-!
# Positions in a sorted list

A container with a comparison is walked by positions: the first element that is
not before a bound, the next one, the last one before a position. On a sorted
list these are the least and the greatest element with a property.
-/

namespace Sponge

universe u

section Cursor

variable {α : Type u} {r : α → α → Prop} {l : List α} {p : α → Bool} {x : α}

/-- The first element with a property is the least. -/
theorem find?_least (sorted : l.Pairwise r) (found : l.find? p = some x) :
    x ∈ l ∧ p x = true ∧ ∀ y ∈ l, p y = true → y = x ∨ r x y := by
  obtain ⟨holds, before, after, rfl, none⟩ := List.find?_eq_some_iff_append.1 found
  refine ⟨by simp, holds, fun y member has => ?_⟩
  rcases List.mem_append.1 member with early | late
  · have lacks := none y early
    rw [has] at lacks
    cases lacks
  · rcases List.mem_cons.1 late with same | late
    · exact Or.inl same
    · have tail := (List.pairwise_append.1 sorted).2.1
      exact Or.inr ((List.pairwise_cons.1 tail).1 y late)

theorem head?_least (sorted : l.Pairwise r) (first : l.head? = some x) : ∀ y ∈ l, y = x ∨ r x y := by
  obtain ⟨rest, rfl⟩ := List.head?_eq_some_iff.1 first
  intro y member
  exact (List.mem_cons.1 member).imp_right ((List.pairwise_cons.1 sorted).1 y)

/-- The last element with a property is the greatest. -/
theorem getLast?_filter_greatest (sorted : l.Pairwise r) (found : (l.filter p).getLast? = some x) :
    x ∈ l ∧ p x = true ∧ ∀ y ∈ l, p y = true → y = x ∨ r y x := by
  obtain ⟨before, split⟩ := List.getLast?_eq_some_iff.1 found
  have member : x ∈ l.filter p := by rw [split]; simp
  rw [List.mem_filter] at member
  refine ⟨member.1, member.2, fun y inside has => ?_⟩
  have kept : y ∈ before ++ [x] := by
    rw [← split]
    exact List.mem_filter.2 ⟨inside, has⟩
  have ordered := sorted.filter p
  rw [split, List.pairwise_append] at ordered
  rcases List.mem_append.1 kept with early | last
  · exact Or.inr (ordered.2.2 y early x (by simp))
  · exact Or.inl (List.mem_singleton.1 last)

theorem getLast?_filter_eq_none : (l.filter p).getLast? = none ↔ ∀ y ∈ l, p y = false := by
  rw [List.getLast?_eq_none_iff, List.filter_eq_nil_iff]
  simp

/-- Elements of a sorted list are found in their order. -/
theorem index_lt_of_rel (irrefl : ∀ a, ¬ r a a) (trans : ∀ a b c, r a b → r b c → r a c) (sorted : l.Pairwise r)
    {i j : Nat} {y : α} (left : l[i]? = some x) (right : l[j]? = some y) (rel : r x y) : i < j := by
  obtain ⟨hi, rfl⟩ := List.getElem?_eq_some_iff.1 left
  obtain ⟨hj, rfl⟩ := List.getElem?_eq_some_iff.1 right
  by_contra order
  rcases Nat.lt_or_eq_of_le (Nat.le_of_not_lt order) with less | same
  · exact irrefl _ (trans _ _ _ rel (List.pairwise_iff_getElem.1 sorted j i hj hi less))
  · subst same
    exact irrefl _ rel

end Cursor

end Sponge
