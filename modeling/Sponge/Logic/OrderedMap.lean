import Mathlib.Data.List.Basic
import Mathlib.Order.Lattice

/-!
# Ordered maps with iterators

A map whose elements are kept in the order of their keys, as a sorted list. An
iterator is the key of the element it points at, or `none` past the last one; it
stays what it is when the map changes, and whether it points at anything is a
question to the map of the moment (`get`). The lemmas say what each operation
does where the list is split at the element.
-/

namespace OrderedMap

universe u v

variable {α : Type u} {κ : Type v} [LinearOrder κ] (key : α → κ)

/-- The elements are in the order of their keys. -/
def Sorted (m : List α) : Prop := m.Pairwise fun a b => key a < key b

/-- The iterator to the first element. -/
def first (m : List α) : Option κ := m.head?.map key

/-- The first element whose key is not less than `k`. -/
def lowerBound (m : List α) (k : κ) : Option κ := (m.find? fun a => decide (k ≤ key a)).map key

/-- The element after the one with key `k`. -/
def next (m : List α) (k : κ) : Option κ := (m.find? fun a => decide (k < key a)).map key

/-- The element before the position of an iterator. -/
def prev (m : List α) : Option κ → Option κ
  | some k => (m.filter fun a => decide (key a < k)).getLast?.map key
  | none => m.getLast?.map key

/-- The element an iterator points at. -/
def get (m : List α) (it : Option κ) : Option α := it.bind fun k => m.find? fun a => decide (key a = k)

/-- The map without the element with key `k`. -/
def erase (m : List α) (k : κ) : List α := m.filter fun a => decide (key a ≠ k)

/-- The map with the element of the same key replaced. -/
def set (m : List α) (a : α) : List α := m.map fun b => if key b = key a then a else b

/-- The map with a new element, unless its key is taken. -/
def insert (m : List α) (a : α) : List α :=
  if m.any fun b => decide (key b = key a) then m
  else (m.filter fun b => decide (key b < key a)) ++ a :: m.filter fun b => decide (key a < key b)

variable {key} {m left right : List α} {a b : α} {k : κ}

theorem sorted_split : Sorted key (left ++ a :: right) ↔ Sorted key left ∧ Sorted key right ∧
    (∀ b ∈ left, key b < key a) ∧ (∀ b ∈ right, key a < key b) ∧ ∀ b ∈ left, ∀ c ∈ right, key b < key c := by
  simp only [Sorted, List.pairwise_append, List.pairwise_cons, List.forall_mem_cons]
  constructor
  · rintro ⟨before, ⟨above, after⟩, across⟩
    exact ⟨before, after, fun b hb => (across b hb).1, above, fun b hb => (across b hb).2⟩
  · rintro ⟨before, after, below, above, across⟩
    exact ⟨before, ⟨above, after⟩, fun b hb => ⟨below b hb, across b hb⟩⟩

/-- Only the key of the element at the split counts, and what is kept of its right side. -/
theorem Sorted.replace (sorted : Sorted key (left ++ a :: right)) (same : key b = key a) {right' : List α}
    (kept : right'.Sublist right) : Sorted key (left ++ b :: right') := by
  obtain ⟨before, after, below, above, across⟩ := sorted_split.1 sorted
  refine sorted_split.2 ⟨before, after.sublist kept, fun c hc => ?_, fun c hc => ?_, fun c hc d hd => ?_⟩
  · rw [same]
    exact below c hc
  · rw [same]
    exact above c (kept.subset hc)
  · exact across c hc d (kept.subset hd)

/-- The first element is not after the one at the split. -/
theorem first_split (sorted : Sorted key (left ++ a :: right)) :
    ∃ k, first key (left ++ a :: right) = some k ∧ k ≤ key a := by
  cases left with
  | nil => exact ⟨key a, rfl, le_refl _⟩
  | cons b left =>
    obtain ⟨-, -, below, -⟩ := sorted_split.1 sorted
    exact ⟨key b, rfl, (below b List.mem_cons_self).le⟩

section Split

variable (sorted : Sorted key (left ++ a :: right))

include sorted

theorem get_split : get key (left ++ a :: right) (some (key a)) = some a := by
  obtain ⟨-, -, below, -⟩ := sorted_split.1 sorted
  have none : left.find? (fun b => decide (key b = key a)) = none :=
    List.find?_eq_none.2 fun b hb => by simpa using (below b hb).ne
  show (left ++ a :: right).find? _ = _
  rw [List.find?_append, none, Option.none_or, List.find?_cons_of_pos (by simp)]

theorem next_split : next key (left ++ a :: right) (key a) = first key right := by
  obtain ⟨-, -, below, above, -⟩ := sorted_split.1 sorted
  have none : left.find? (fun b => decide (key a < key b)) = none :=
    List.find?_eq_none.2 fun b hb => by simpa using (below b hb).le
  rw [next, List.find?_append, none, Option.none_or, List.find?_cons_of_neg (by simp), first]
  cases right with
  | nil => rfl
  | cons b right => rw [List.find?_cons_of_pos (by simpa using above b List.mem_cons_self)]; rfl

theorem erase_split : erase key (left ++ a :: right) (key a) = left ++ right := by
  obtain ⟨-, -, below, above, -⟩ := sorted_split.1 sorted
  rw [erase, List.filter_append, List.filter_cons_of_neg (by simp),
    List.filter_eq_self.2 fun b hb => by simpa using (below b hb).ne,
    List.filter_eq_self.2 fun b hb => by simpa using (above b hb).ne']

theorem set_split (same : key b = key a) : set key (left ++ a :: right) b = left ++ b :: right := by
  obtain ⟨-, -, below, above, -⟩ := sorted_split.1 sorted
  have keepLeft : left.map (fun c => if key c = key b then b else c) = left :=
    (List.map_congr_left fun c hc => if_neg (by rw [same]; exact (below c hc).ne)).trans (List.map_id _)
  have keepRight : right.map (fun c => if key c = key b then b else c) = right :=
    (List.map_congr_left fun c hc => if_neg (by rw [same]; exact (above c hc).ne')).trans (List.map_id _)
  rw [set, List.map_append, List.map_cons, keepLeft, keepRight, if_pos same.symm]

end Split

/-! ### The element after the split -/

section Next

variable (sorted : Sorted key (left ++ a :: b :: right))

include sorted

theorem sorted_next : Sorted key ((left ++ [a]) ++ b :: right) := by rwa [← List.append_cons]

theorem get_next : get key (left ++ a :: b :: right) (some (key b)) = some b := by
  rw [List.append_cons, get_split (sorted_next sorted)]

theorem next_next : next key (left ++ a :: b :: right) (key b) = first key right := by
  rw [List.append_cons, next_split (sorted_next sorted)]

theorem erase_next : erase key (left ++ a :: b :: right) (key b) = left ++ a :: right := by
  rw [List.append_cons, erase_split (sorted_next sorted), ← List.append_cons]

theorem set_next {c : α} (same : key c = key b) : set key (left ++ a :: b :: right) c = left ++ a :: c :: right := by
  rw [List.append_cons, set_split (sorted_next sorted) same, ← List.append_cons]

theorem Sorted.replace_next {c : α} (same : key c = key b) : Sorted key (left ++ a :: c :: right) := by
  rw [List.append_cons]
  exact (sorted_next sorted).replace same (List.Sublist.refl _)

end Next

theorem insert_taken (member : a ∈ m) (same : key b = key a) : insert key m b = m :=
  if_pos (List.any_eq_true.2 ⟨a, member, by simpa using same.symm⟩)

/-- A new key goes between the smaller and the larger ones. -/
theorem insert_between (below : ∀ b ∈ left, key b < key a) (above : ∀ b ∈ right, key a < key b) :
    insert key (left ++ right) a = left ++ a :: right := by
  have free : ¬ (left ++ right).any (fun b => decide (key b = key a)) = true := by
    simp only [List.any_eq_true, decide_eq_true_eq, not_exists, not_and]
    intro b hb
    rcases List.mem_append.1 hb with hb | hb
    · exact (below b hb).ne
    · exact (above b hb).ne'
  rw [insert, if_neg free, List.filter_append, List.filter_append,
    List.filter_eq_self.2 fun b hb => by simpa using below b hb,
    List.filter_eq_nil_iff.2 fun b hb => by simpa using (above b hb).le,
    List.filter_eq_nil_iff.2 fun b hb => by simpa using (below b hb).le,
    List.filter_eq_self.2 fun b hb => by simpa using above b hb, List.append_nil, List.nil_append]

theorem sorted_insert (sorted : Sorted key (left ++ right)) (below : ∀ b ∈ left, key b < key a)
    (above : ∀ b ∈ right, key a < key b) : Sorted key (left ++ a :: right) := by
  obtain ⟨before, after, across⟩ := List.pairwise_append.1 sorted
  exact sorted_split.2 ⟨before, after, below, above, across⟩

theorem lowerBound_eq_none : lowerBound key m k = none ↔ ∀ a ∈ m, key a < k := by
  rw [lowerBound, Option.map_eq_none_iff, List.find?_eq_none]
  simp

/-- Where the bound is the key of the element at the split. -/
theorem lowerBound_split (below : ∀ b ∈ left, key b < k) (here : k ≤ key a) :
    lowerBound key (left ++ a :: right) k = some (key a) := by
  have none : left.find? (fun b => decide (k ≤ key b)) = none :=
    List.find?_eq_none.2 fun b hb => by simpa using below b hb
  rw [lowerBound, List.find?_append, none, Option.none_or, List.find?_cons_of_pos (by simpa using here)]
  rfl

/-- Before the first element of the right side stands the one at the split. -/
theorem prev_split (sorted : Sorted key (left ++ a :: right)) :
    prev key (left ++ a :: right) (first key right) = some (key a) := by
  have last : (left ++ [a]).getLast?.map key = some (key a) := by
    rw [List.getLast?_append]
    rfl
  cases right with
  | nil => exact last
  | cons b right =>
    obtain ⟨-, after, -, above, across⟩ := sorted_split.1 sorted
    have smaller : (left ++ a :: b :: right).filter (fun c => decide (key c < key b)) = left ++ [a] := by
      rw [List.filter_append, List.filter_cons_of_pos (by simpa using above b List.mem_cons_self),
        List.filter_cons_of_neg (by simp),
        List.filter_eq_self.2 fun c hc => by simpa using across c hc b List.mem_cons_self,
        List.filter_eq_nil_iff.2 fun c hc => by simpa using (List.rel_of_pairwise_cons after hc).le]
    show (List.getLast? ((left ++ a :: b :: right).filter fun c => decide (key c < key b))).map key = _
    rw [smaller, last]

end OrderedMap
