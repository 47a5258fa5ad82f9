import Mathlib.Data.List.TakeWhile
import Sponge.Logic.Logged
import Sponge.Logic.OrderedMap
import Sponge.Stream.ReassemblerInvariant
import Sponge.Stream.ReassemblerSafety

/-!
# The iterators of `push_substring`

`StreamReassembler.store` works on a list split at an entry. This module writes
the same block with the iterators of the source: positions in an ordered map that
are compared, moved, erased and read through `->`, each read recorded with the map
of that moment. Without the records it is `push_substring` (`walk_result`); with
them, a read is sound when its iterator points at an element of the map
(`Access.Sound`).

One read is not: when every stored entry starts before `index_c`, `lower_bound`
returns the end of the map, and `index_c != it->first` reads through it. All
others are (`dereferences_iff`).
-/

namespace Sponge

open OrderedMap (Sorted)

/-- A read `it->` and the map at the time. -/
structure Access where
  map : List Entry
  iter : Option Nat
  deriving DecidableEq

/-- The iterator points at an element of the map. -/
def Access.Sound (a : Access) : Prop := ∃ e ∈ a.map, a.iter = some e.start

namespace StreamReassembler

/-- `it->first`. The end node holds the number of elements at its place. -/
def keyAt (m : List Entry) (it : Option Nat) : Logged Access Nat := .record ⟨m, it⟩ (some (it.getD m.length))

/-- `it->second`. -/
def valueAt (m : List Entry) (it : Option Nat) : Logged Access Entry := .record ⟨m, it⟩ (OrderedMap.get Entry.start m it)

/-- `it != cbegin() || (it != cend() && it->first == index_c)`. -/
def entersBlock (m : List Entry) (it : Option Nat) (indexC : Nat) : Logged Access Bool :=
  if it ≠ OrderedMap.first Entry.start m then pure true
  else if it ≠ none then do
    let first ← keyAt m it
    pure (decide (first = indexC))
  else pure false

/-- The entry the first block works on; `none` when the block is passed over. -/
def locate (m : List Entry) (indexC : Nat) : Logged Access (Option (Option Nat)) := do
  let it := OrderedMap.lowerBound Entry.start m indexC
  let enters ← entersBlock m it indexC
  if enters then do
    let first ← keyAt m it
    if indexC ≠ first then pure (some (OrderedMap.prev Entry.start m it)) else pure (some it)
  else pure none

/-- The second branch of the loop: `it` is cut and joined to `insert`. -/
def joinNext (insert : Option Nat) (m : List Entry) (it : Nat) (bytes : Nat) : Logged Access (List Entry × Nat) := do
  let i ← valueAt m insert
  let first ← keyAt m (some it)
  let olapLen := add64 (sub64 i.last first) 1
  let e ← valueAt m (some it)
  let tail ← Logged.ofOption (e.bytes.removePrefix olapLen)
  let m := OrderedMap.set Entry.start m { e with bytes := tail }
  let i ← valueAt m insert
  let e ← valueAt m (some it)
  let m := OrderedMap.set Entry.start m { i with bytes := i.bytes.append e.bytes }
  let i ← valueAt m insert
  let e ← valueAt m (some it)
  let m := OrderedMap.set Entry.start m { i with last := e.last }
  pure (OrderedMap.erase Entry.start m it, sub64 bytes olapLen)

/-- The loop over the entries after `insert`; every round but the last erases one. -/
def joinLoop (insert : Option Nat) : (fuel : Nat) → List Entry → (it : Option Nat) → (bytes : Nat) →
    Logged Access (List Entry × Nat)
  | 0, m, _, bytes => pure (m, bytes)
  | _ + 1, m, none, bytes => pure (m, bytes)
  | fuel + 1, m, some it, bytes => do
    let i ← valueAt m insert
    let e ← valueAt m (some it)
    if e.last ≤ i.last then do
      let e ← valueAt m (some it)
      joinLoop insert fuel (OrderedMap.erase Entry.start m it) (OrderedMap.next Entry.start m it)
        (sub64 bytes e.bytes.size)
    else do
      let i ← valueAt m insert
      let first ← keyAt m (some it)
      if first ≤ add64 i.last 1 then joinNext insert m it bytes else pure (m, bytes)

/-- `insert = it++`, then the loop. -/
def joinFrom (m : List Entry) (it : Option Nat) (bytes : Nat) : Logged Access (List Entry × Option Nat × Nat) := do
  let (m', bytes) ← joinLoop it m.length m (it.bind (OrderedMap.next Entry.start m)) bytes
  pure (m', it, bytes)

/-- The new substring as an entry of its own. -/
def insertAt (m : List Entry) (bytes : Nat) (p : Piece) : Logged Access (List Entry × Option Nat × Nat) :=
  joinFrom (OrderedMap.insert Entry.start m p.entry) (some p.start) (add64 bytes p.bytes.size)

/-- The new substring joined to the entry at `it`, which it touches and passes. -/
def mergeAt (m : List Entry) (it : Option Nat) (bytes : Nat) (p : Piece) :
    Logged Access (List Entry × Option Nat × Nat) := do
  let e ← valueAt m it
  let buf ← Logged.ofOption (p.bytes.removePrefix (add64 (sub64 e.last p.start) 1))
  let e ← valueAt m it
  let m := OrderedMap.set Entry.start m { e with bytes := e.bytes.append buf }
  let e ← valueAt m it
  let m := OrderedMap.set Entry.start m { e with last := p.last }
  joinFrom m it (add64 bytes buf.size)

/-- From the search of the place to the end of the loop: the map, `insert` and `_unassembled_bytes`. -/
def storeAt (m : List Entry) (bytes : Nat) (p : Piece) : Logged Access (List Entry × Option Nat × Nat) := do
  match ← locate m p.start with
  | none => insertAt m bytes p
  | some it => do
    let e ← valueAt m it
    if p.start ≤ add64 e.last 1 then do
      let e ← valueAt m it
      if p.length ≤ add64 (sub64 e.last p.start) 1 then pure (m, it, bytes) else mergeAt m it bytes p
    else insertAt m bytes p

/-- `if (insert->first == _first_index) { ... }`. -/
def flushAt (r : StreamReassembler) (m : List Entry) (insert : Option Nat) (bytes : Nat) :
    Logged Access StreamReassembler := do
  let first ← keyAt m insert
  if first = r.firstIndex then do
    let e ← valueAt m insert
    let segLen := e.bytes.size
    let e ← valueAt m insert
    pure { r with
      firstIndex := add64 r.firstIndex segLen
      unassembledBytes := sub64 bytes segLen
      output := r.output.write e.bytes.concatenate
      unassembled := OrderedMap.erase Entry.start m first }
  else pure { r with unassembledBytes := bytes, unassembled := m }

/-- `push_substring` with its iterators. -/
def walk (r : StreamReassembler) (data : List UInt8) (index : Nat) (eof : Bool) : Logged Access StreamReassembler :=
  if r.eofed then pure r
  else
    let r := r.noteEof data index eof
    match r.clip data index with
    | none => pure r.endIfComplete
    | some p => do
      let (m, insert, bytes) ← storeAt r.unassembled r.unassembledBytes p
      let r ← flushAt r m insert bytes
      pure r.endIfComplete

/-- With every entry before `indexC`, the search ends at the end node. -/
theorem target_past {m : List Entry} {indexC : Nat} (some : m ≠ []) (below : ∀ e ∈ m, e.start < indexC) :
    target m indexC = if indexC = m.length then none else Option.some (Option.some ⟨m.dropLast, m.getLast some, []⟩) := by
  have all : ∀ e ∈ m, decide (e.start < indexC) = true := fun e he => by simpa using below e he
  have before : m.takeWhile (fun e => decide (e.start < indexC)) = m := List.takeWhile_eq_self_iff.2 all
  have after : m.dropWhile (fun e => decide (e.start < indexC)) = [] := List.dropWhile_eq_nil_iff.2 all
  rw [target, before, after, List.getLast?_eq_some_getLast some]

section Reads

variable {P : Access → Prop} (good : ∀ a : Access, a.Sound → P a)

include good

theorem keyAt_does {m : List Entry} {e : Entry} (member : e ∈ m) :
    (keyAt m (some e.start)).Does P (some e.start) := .record _ (good _ ⟨e, member, rfl⟩)

variable {left right : List Entry} {focus e : Entry}

theorem valueAt_does (sorted : Sorted Entry.start (left ++ e :: right)) :
    (valueAt (left ++ e :: right) (some e.start)).Does P (some e) := by
  rw [← OrderedMap.get_split sorted]
  exact .record _ (good _ ⟨e, by simp, rfl⟩)

theorem valueAt_next_does (sorted : Sorted Entry.start (left ++ focus :: e :: right)) :
    (valueAt (left ++ focus :: e :: right) (some e.start)).Does P (some e) := by
  rw [← OrderedMap.get_next sorted]
  exact .record _ (good _ ⟨e, by simp, rfl⟩)

/-- The second branch of the loop: after each write the map has the same keys. -/
theorem joinNext_does (bytes : Nat) (sorted : Sorted Entry.start (left ++ focus :: e :: right)) :
    (joinNext (some focus.start) (left ++ focus :: e :: right) e.start bytes).Does P
      ((e.bytes.removePrefix (add64 (sub64 focus.last e.start) 1)).map fun tail =>
        (left ++ focus.join e tail :: right, sub64 bytes (add64 (sub64 focus.last e.start) 1))) := by
  have key := keyAt_does good (m := left ++ focus :: e :: right) (e := e) (by simp)
  rw [joinNext, Option.map_eq_bind]
  refine (valueAt_does good sorted).bind (key.bind ((valueAt_next_does good sorted).bind ?_))
  refine (Logged.Does.ofOption _).bind_option fun tail _ => ?_
  -- `it` loses the overlap
  have sorted₁ := sorted.replace_next (c := { e with bytes := tail }) rfl
  rw [OrderedMap.set_next sorted (c := { e with bytes := tail }) rfl]
  refine (valueAt_does good sorted₁).bind ((valueAt_next_does good sorted₁).bind ?_)
  -- `insert` gets its bytes
  have sorted₂ := sorted₁.replace (b := { focus with bytes := focus.bytes.append tail }) rfl (List.Sublist.refl _)
  rw [OrderedMap.set_split sorted₁ (b := { focus with bytes := focus.bytes.append tail }) rfl]
  refine (valueAt_does good sorted₂).bind ((valueAt_next_does good sorted₂).bind ?_)
  -- and its end index
  have sorted₃ := sorted₂.replace (b := focus.join e tail) rfl (List.Sublist.refl _)
  show Logged.Does P (pure (OrderedMap.erase Entry.start (OrderedMap.set Entry.start _ (focus.join e tail)) e.start, _)) _
  have erased := OrderedMap.erase_next sorted₃
  dsimp only at erased
  rw [OrderedMap.set_split sorted₂ (b := focus.join e tail) rfl, erased]
  exact .pure _

/-- **The loop** reads through iterators to the entry at `insert` and to the one after it. -/
theorem joinLoop_does (fuel : Nat) (bytes : Nat) (sorted : Sorted Entry.start (left ++ focus :: right))
    (enough : right.length ≤ fuel) :
    (joinLoop (some focus.start) fuel (left ++ focus :: right) (OrderedMap.first Entry.start right) bytes).Does P
      ((absorb focus bytes right).map fun (focus, right, bytes) => (left ++ focus :: right, bytes)) := by
  induction right generalizing fuel bytes with
  | nil =>
    cases fuel with
    | zero => exact .pure _
    | succ fuel => exact .pure _
  | cons e right ih =>
    obtain ⟨fuel, rfl⟩ : ∃ n, fuel = n + 1 := ⟨fuel - 1, by simp only [List.length_cons] at enough; omega⟩
    have readFocus := valueAt_does good sorted
    have readNext := valueAt_next_does good sorted
    show (joinLoop (some focus.start) (fuel + 1) _ (some e.start) bytes).Does P _
    rw [joinLoop, absorb]
    refine readFocus.bind (readNext.bind ?_)
    by_cases inside : e.last ≤ focus.last
    · rw [if_pos inside, if_pos inside, OrderedMap.erase_next sorted, OrderedMap.next_next sorted]
      refine readNext.bind ?_
      exact ih _ _ (sorted.replace rfl (List.sublist_cons_self _ _)) (Nat.le_of_succ_le_succ enough)
    · rw [if_neg inside, if_neg inside]
      refine readFocus.bind ((keyAt_does good (by simp)).bind ?_)
      by_cases touch : e.start ≤ add64 focus.last 1
      · rw [if_pos touch, if_pos touch, Option.map_map]
        exact joinNext_does good bytes sorted
      · rw [if_neg touch, if_neg touch]
        exact .pure _

/-- The map, the iterator `insert` and the counter of a result of `store`. -/
def positions (found : Cursor × Nat) : List Entry × Option Nat × Nat :=
  (found.1.entries, some found.1.focus.start, found.2)

theorem joinFrom_does (bytes : Nat) (sorted : Sorted Entry.start (left ++ focus :: right)) :
    (joinFrom (left ++ focus :: right) (some focus.start) bytes).Does P
      ((absorbAt left focus right bytes).map positions) := by
  have loop := joinLoop_does good (left ++ focus :: right).length bytes sorted (by simp; omega)
  rw [joinFrom, Option.bind_some, OrderedMap.next_split sorted, absorbAt]
  cases absorbed : absorb focus bytes right with
  | none =>
    rw [absorbed] at loop
    exact loop.bind_none
  | some v =>
    obtain ⟨focus', right', bytes'⟩ := v
    rw [absorbed] at loop
    refine loop.bind ?_
    rw [← (absorb_keys absorbed).1]
    exact .pure _

theorem insertAt_fresh (left right : List Entry) (bytes : Nat) {p : Piece} (sorted : Sorted Entry.start (left ++ right))
    (below : ∀ e ∈ left, e.start < p.start) (above : ∀ e ∈ right, p.start < e.start) :
    (insertAt (left ++ right) bytes p).Does P ((insertFresh left p right bytes).map positions) := by
  have sorted₁ : Sorted Entry.start (left ++ p.entry :: right) := OrderedMap.sorted_insert sorted below above
  rw [insertAt, OrderedMap.insert_between below above]
  exact joinFrom_does good _ sorted₁

theorem insertAt_taken (bytes : Nat) {p : Piece} (sorted : Sorted Entry.start (left ++ focus :: right))
    (taken : focus.start = p.start) : (insertAt (left ++ focus :: right) bytes p).Does P
      ((absorbAt left focus right (add64 bytes p.bytes.size)).map positions) := by
  rw [insertAt, OrderedMap.insert_taken (a := focus) (by simp) taken.symm, ← taken]
  exact joinFrom_does good _ sorted

theorem mergeAt_does (bytes : Nat) (p : Piece) (sorted : Sorted Entry.start (left ++ focus :: right)) :
    (mergeAt (left ++ focus :: right) (some focus.start) bytes p).Does P
      (((p.bytes.removePrefix (add64 (sub64 focus.last p.start) 1)).bind fun buf =>
        absorbAt left (focus.join p.entry buf) right (add64 bytes buf.size)).map positions) := by
  have read := valueAt_does good sorted
  rw [mergeAt, Option.map_bind]
  refine read.bind ((Logged.Does.ofOption _).bind_option fun buf _ => read.bind ?_)
  have sorted₁ := sorted.replace (b := { focus with bytes := focus.bytes.append buf }) rfl (List.Sublist.refl _)
  rw [OrderedMap.set_split sorted (b := { focus with bytes := focus.bytes.append buf }) rfl]
  refine (valueAt_does good sorted₁).bind ?_
  have sorted₂ := sorted₁.replace (b := focus.join p.entry buf) rfl (List.Sublist.refl _)
  show (joinFrom (OrderedMap.set Entry.start _ (focus.join p.entry buf)) _ _).Does P _
  rw [OrderedMap.set_split sorted₁ (b := focus.join p.entry buf) rfl]
  exact joinFrom_does good _ sorted₂

omit good in
theorem entersBlock_first {m : List Entry} {it : Option Nat} (other : it ≠ OrderedMap.first Entry.start m) (i : Nat) :
    (entersBlock m it i).Does P (some true) := by
  rw [entersBlock, if_pos other]
  exact .pure _

theorem entersBlock_key {m : List Entry} (member : e ∈ m) :
    (entersBlock m (some e.start) e.start).Does P (some true) := by
  unfold entersBlock
  split
  · exact .pure _
  · rw [if_pos (by simp)]
    exact (keyAt_does good member).bind (by simpa using .pure _)

section Before

variable {c : Cursor} {i : Nat} (sorted : Sorted Entry.start c.entries) (before : c.focus.start < i)
  (above : ∀ e ∈ c.right, i < e.start)

include sorted before above

omit good in
/-- Between the entry before `i` and those after it, the bound is the first of these. -/
theorem lowerBound_between :
    OrderedMap.lowerBound Entry.start c.entries i = OrderedMap.first Entry.start c.right := by
  have early := early_between sorted before
  rw [Cursor.entries, List.append_cons]
  cases after : c.right with
  | nil =>
    rw [List.append_nil]
    exact OrderedMap.lowerBound_eq_none.2 early
  | cons e rest =>
    have later : i < e.start := above e (by simp [after])
    exact OrderedMap.lowerBound_split early (Nat.le_of_lt later)

omit good in
theorem first_between : OrderedMap.first Entry.start c.right ≠ OrderedMap.first Entry.start c.entries := by
  obtain ⟨k, first, le⟩ := OrderedMap.first_split sorted
  intro same
  obtain ⟨e, head, rfl⟩ := Option.map_eq_some_iff.1 (same.trans first)
  have := above e (List.mem_of_mem_head? head)
  omega

omit sorted before in
/-- The comparison with the bound's key, which is read also at the end of the map. -/
theorem keyAt_between (count : c.right = [] → i ≠ c.entries.length) (beyond : c.right = [] → P ⟨c.entries, none⟩) :
    ∃ k, (keyAt c.entries (OrderedMap.first Entry.start c.right)).Does P (some k) ∧ i ≠ k := by
  cases after : c.right with
  | nil => exact ⟨c.entries.length, .record _ (beyond after), count after⟩
  | cons e rest =>
    have later : i < e.start := above e (by simp [after])
    exact ⟨e.start, keyAt_does good (by simp [Cursor.entries, after]), Nat.ne_of_lt later⟩

theorem locate_between (count : c.right = [] → i ≠ c.entries.length) (beyond : c.right = [] → P ⟨c.entries, none⟩) :
    (locate c.entries i).Does P (some (some (some c.focus.start))) := by
  obtain ⟨k, read, other⟩ := keyAt_between good above count beyond
  have previous : OrderedMap.prev Entry.start c.entries (OrderedMap.first Entry.start c.right) = some c.focus.start :=
    OrderedMap.prev_split sorted
  rw [locate, lowerBound_between sorted before above]
  refine (entersBlock_first (first_between sorted before above) i).bind (read.bind ?_)
  rw [if_pos other, previous]
  exact .pure _

end Before

/-- **The first block** reads through the bound and its predecessor, and through the end of the map in one case. -/
theorem locate_does {m : List Entry} (sorted : Sorted Entry.start m) (i : Nat)
    (beyond : m ≠ [] → (∀ e ∈ m, e.start < i) → P ⟨m, none⟩) :
    (locate m i).Does P (some (match target m i with
      | none => some none
      | some none => none
      | some (some c) => some (some c.focus.start))) := by
  rcases target_cases sorted i with ⟨found, some, count, below⟩ | ⟨found, above⟩ | ⟨c, found, rfl, start, right⟩
  · -- the end node's element count is the index
    have read : (keyAt m none).Does P (Option.some i) := by
      rw [← count]
      exact .record _ (beyond some below)
    rw [locate, OrderedMap.lowerBound_eq_none.2 below, found]
    refine (entersBlock_first (Ne.symm (by simpa [OrderedMap.first] using some)) i).bind (read.bind ?_)
    rw [if_neg (by simp)]
    exact .pure _
  · rw [found]
    cases m with
    | nil => exact .pure _
    | cons e rest =>
      have later := above e List.mem_cons_self
      have bound : OrderedMap.lowerBound Entry.start (e :: rest) i = some e.start := by
        rw [← List.nil_append (e :: rest)]
        exact OrderedMap.lowerBound_split (by simp) (Nat.le_of_lt later)
      have passes : (entersBlock (e :: rest) (some e.start) i).Does P (some false) := by
        rw [entersBlock, if_neg (by simp [OrderedMap.first]), if_pos (by simp)]
        exact (keyAt_does good List.mem_cons_self).bind (by simpa [Nat.ne_of_gt later] using .pure _)
      rw [locate, bound]
      exact passes.bind (.pure _)
  · have member : c.focus ∈ c.entries := by simp [Cursor.entries]
    obtain ⟨-, -, below, -⟩ := OrderedMap.sorted_split.1 sorted
    rcases Nat.lt_or_eq_of_le start with before | rfl
    · have all : c.right = [] → ∀ e ∈ c.entries, e.start < i := by
        intro last
        apply OrderedMap.lowerBound_eq_none.1
        rw [lowerBound_between sorted before right, last]
        rfl
      have some : c.entries ≠ [] := List.ne_nil_of_mem member
      rw [found]
      refine locate_between good sorted before right (fun last same => ?_) fun last => beyond some (all last)
      rw [target_past some (all last), if_pos same] at found
      cases found
    · have bound : OrderedMap.lowerBound Entry.start c.entries c.focus.start = some c.focus.start :=
        OrderedMap.lowerBound_split below (Nat.le_refl _)
      rw [locate, bound, found]
      refine (entersBlock_key good member).bind ((keyAt_does good member).bind ?_)
      rw [if_neg (by simp)]
      exact .pure _

/-- **From the search of the place to the end of the loop.** -/
theorem storeAt_does {m : List Entry} (sorted : Sorted Entry.start m) (bytes : Nat) (p : Piece)
    (beyond : m ≠ [] → (∀ e ∈ m, e.start < p.start) → P ⟨m, none⟩) :
    (storeAt m bytes p).Does P ((store m bytes p).map positions) := by
  have located := locate_does good sorted p.start beyond
  rcases target_cases sorted p.start with ⟨found, some, -, below⟩ | ⟨found, above⟩ | ⟨c, found, rfl, start, above⟩
  · -- the block goes on with the end node
    rw [found] at located
    rw [storeAt, store, found]
    exact located.bind (Logged.Does.bind_none (.record _ (beyond some below)))
  · rw [found] at located
    rw [storeAt, store, found]
    exact located.bind (insertAt_fresh good [] m bytes sorted (by simp) above)
  · rw [found] at located
    have read : (valueAt c.entries (some c.focus.start)).Does P (some c.focus) := valueAt_does good sorted
    rw [storeAt, store, found]
    refine located.bind (read.bind ?_)
    simp only
    split
    · refine read.bind ?_
      split
      · exact .pure _
      · exact mergeAt_does good bytes p sorted
    · split
      · exact insertAt_taken good bytes sorted ‹_›
      · rename_i other
        have whole : c.entries = c.left ++ [c.focus] ++ c.right := List.append_cons _ _ _
        have before : c.focus.start < p.start := Nat.lt_of_le_of_ne start other
        rw [whole]
        exact insertAt_fresh good _ _ bytes (whole ▸ sorted) (early_between sorted before) above

theorem flushAt_does (r : StreamReassembler) {c : Cursor} (sorted : Sorted Entry.start c.entries) (bytes : Nat) :
    (flushAt r c.entries (some c.focus.start) bytes).Does P (some (r.flush c bytes)) := by
  have read := valueAt_does good sorted
  rw [flushAt, flush]
  refine (keyAt_does good (by simp [Cursor.entries])).bind ?_
  split
  · refine read.bind (read.bind ?_)
    rw [Cursor.entries, OrderedMap.erase_split sorted]
    exact .pure _
  · exact .pure _

end Reads

/-! ### The whole push -/

section Push

/-- The early exit of `push_substring`. -/
def Dropped (r : StreamReassembler) (data : List UInt8) (index : Nat) : Prop :=
  sub64 (add64 index data.length) 1 < r.firstIndex ∨ r.maxAcindex ≤ index ∨ data.length = 0

/-- A substring that is not dropped, and every stored entry starts before what is kept of it. -/
def PastEnd (r : StreamReassembler) (data : List UInt8) (index : Nat) : Prop :=
  r.eofed = false ∧ ¬ r.Dropped data index ∧ r.unassembled ≠ [] ∧
    ∀ e ∈ r.unassembled, e.start < max r.firstIndex index

instance (r : StreamReassembler) (data : List UInt8) (index : Nat) : Decidable (r.Dropped data index) :=
  inferInstanceAs (Decidable (_ ∨ _ ∨ _))

instance (r : StreamReassembler) (data : List UInt8) (index : Nat) : Decidable (r.PastEnd data index) :=
  inferInstanceAs (Decidable (_ ∧ _ ∧ _ ∧ _))

variable {P : Access → Prop} {r r' : StreamReassembler} {data : List UInt8} {index : Nat} {eof : Bool}

theorem noteEof_clip : (r.noteEof data index eof).clip data index = r.clip data index := by
  unfold noteEof
  split <;> rfl

theorem clip_dropped (dropped : r.Dropped data index) : r.clip data index = none := if_pos dropped

theorem clip_start (taken : ¬ r.Dropped data index) :
    ∃ p, r.clip data index = some p ∧ p.start = max r.firstIndex index := by
  have start : (if index < r.firstIndex then r.firstIndex else index) = max r.firstIndex index := by
    split <;> omega
  unfold Dropped at taken
  simp only [clip, if_neg taken, start]
  -- the substring is cut at the window's edge, or not
  rw [← apply_ite some]
  refine ⟨_, rfl, ?_⟩
  rw [apply_ite Piece.start]
  exact ite_self _

theorem store_sorted {m : List Entry} (sorted : Sorted Entry.start m) {bytes bytes' : Nat} {p : Piece} {c : Cursor}
    (run : store m bytes p = some (c, bytes')) : Sorted Entry.start c.entries := by
  rcases target_cases sorted p.start with ⟨found, -⟩ | ⟨found, above⟩ | ⟨c₀, found, rfl, start, above⟩
  · rw [store, found] at run
    cases run
  · rw [store, found] at run
    exact absorbAt_sorted run (List.pairwise_cons.2 ⟨above, sorted⟩)
  · simp only [store, found] at run
    split at run
    · split at run
      · cases run
        exact sorted
      · obtain ⟨buf, -, run⟩ := Option.bind_eq_some_iff.1 run
        exact absorbAt_sorted run (sorted.replace (b := c₀.focus.join p.entry buf) rfl (List.Sublist.refl _))
    · split at run
      · exact absorbAt_sorted run sorted
      · rename_i other
        have before : c₀.focus.start < p.start := Nat.lt_of_le_of_ne start other
        have whole : c₀.entries = c₀.left ++ [c₀.focus] ++ c₀.right := List.append_cons _ _ _
        exact absorbAt_sorted run (OrderedMap.sorted_insert (whole ▸ sorted) (early_between sorted before) above)

theorem flush_sorted {c : Cursor} (sorted : Sorted Entry.start c.entries) (bytes : Nat) :
    Sorted Entry.start (r.flush c bytes).unassembled := by
  unfold flush
  split
  · exact sorted.sublist (List.Sublist.append_left (List.sublist_cons_self _ _) _)
  · exact sorted

theorem pushSubstring?_sorted (sorted : Sorted Entry.start r.unassembled)
    (run : r.pushSubstring? data index eof = some r') : Sorted Entry.start r'.unassembled := by
  unfold pushSubstring? accept at run
  split at run
  · cases run
    exact sorted
  · obtain ⟨mid, accepted, rfl⟩ := Option.map_eq_some_iff.1 run
    rw [endIfComplete_unassembled]
    split at accepted
    · cases accepted
      rwa [noteEof_unassembled]
    · obtain ⟨⟨c, bytes⟩, stored, rfl⟩ := Option.map_eq_some_iff.1 accepted
      rw [noteEof_unassembled] at stored
      exact flush_sorted (store_sorted sorted stored) bytes

/-- **The push with its iterators** gives what `pushSubstring?` gives, and reads through entries of the map, or once
through its end. -/
theorem walk_does (good : ∀ a : Access, a.Sound → P a) (sorted : Sorted Entry.start r.unassembled)
    (beyond : r.PastEnd data index → P ⟨r.unassembled, none⟩) :
    (r.walk data index eof).Does P (r.pushSubstring? data index eof) := by
  unfold walk pushSubstring? accept
  by_cases ended : r.eofed = true
  · rw [if_pos ended, if_pos ended]
    exact .pure _
  rw [if_neg ended, if_neg ended]
  simp only [noteEof_clip, noteEof_unassembled, noteEof_unassembledBytes]
  by_cases dropped : r.Dropped data index
  · rw [clip_dropped dropped]
    exact .pure _
  · obtain ⟨p, kept, start⟩ := clip_start dropped
    rw [kept]
    have stored := storeAt_does good sorted r.unassembledBytes p fun some below =>
      beyond ⟨by simpa using ended, dropped, some, start ▸ below⟩
    simp only
    cases result : store r.unassembled r.unassembledBytes p with
    | none =>
      rw [result] at stored
      exact stored.bind_none
    | some v =>
      obtain ⟨c, bytes⟩ := v
      rw [result] at stored
      exact stored.bind ((flushAt_does good _ (store_sorted sorted result) bytes).bind (.pure _))

theorem walk_result (sorted : Sorted Entry.start r.unassembled) :
    (r.walk data index eof).result = r.pushSubstring? data index eof :=
  (walk_does (P := fun _ => True) (fun _ _ => trivial) sorted fun _ => trivial).result

/-- When every entry starts before `index_c`, the end of the map is read through. -/
theorem locate_past {m : List Entry} {i : Nat} (some : m ≠ []) (below : ∀ e ∈ m, e.start < i) :
    (⟨m, none⟩ : Access) ∈ (locate m i).log := by
  have enters : entersBlock m none i = pure true := if_pos (Ne.symm (by simpa [OrderedMap.first] using some))
  have bound := OrderedMap.lowerBound_eq_none.2 below
  rw [locate, bound, enters, Logged.bind_of_some rfl]
  exact List.mem_append_right _ (Logged.mem_bind (by simp [keyAt, Logged.record]))

theorem walk_past (past : r.PastEnd data index) : (⟨r.unassembled, none⟩ : Access) ∈ (r.walk data index eof).log := by
  obtain ⟨more, taken, some, below⟩ := past
  obtain ⟨p, kept, start⟩ := clip_start taken
  rw [walk, if_neg (by simp [more])]
  simp only [noteEof_clip, kept, noteEof_unassembled]
  rw [← start] at below
  exact Logged.mem_bind (Logged.mem_bind (locate_past some below))

end Push

theorem sorted_of_reaches {capacity : Nat} {w : Fed}
    (run : Reaches Fed.step (fun _ _ => True) { reassembler := .new capacity } w) :
    Sorted Entry.start w.reassembler.unassembled := by
  induction run with
  | start => exact List.Pairwise.nil
  | @step _ _ op _ _ step sorted =>
    cases op with
    | push data index eof =>
      obtain ⟨r, pushed, rfl⟩ := Option.map_eq_some_iff.1 step
      exact pushSubstring?_sorted sorted pushed
    | pop len =>
      cases step
      exact sorted

/-- **The iterators of `push_substring`.** In every state that is reached by pushes and reads, every `it->` and
`insert->` of a further push points at an entry that is in the map at the time, unless every stored entry starts before
what is kept of the substring: then one of them is made on `end()`. -/
theorem dereferences_iff {capacity : Nat} {w : Fed}
    (run : Reaches Fed.step (fun _ _ => True) { reassembler := .new capacity } w) (data : List UInt8) (index : Nat)
    (eof : Bool) :
    (∀ a ∈ (w.reassembler.walk data index eof).log, a.Sound) ↔ ¬ w.reassembler.PastEnd data index := by
  constructor
  · intro sound past
    obtain ⟨e, -, iter⟩ := sound _ (walk_past past)
    cases iter
  · intro inside
    exact (walk_does (fun _ sound => sound) (sorted_of_reaches run) fun past => absurd past inside).log

/-- A substring between two entries that joins both: eighteen reads. -/
theorem dereferences_between :
    ∃ w, follow Fed.step (fun _ _ => True) { reassembler := .new 8 } [.push [5, 6] 5 false, .push [1] 1 false] = some w ∧
      (w.reassembler.walk [2, 3, 4, 5] 2 false).log.length = 18 ∧
      ∀ a ∈ (w.reassembler.walk [2, 3, 4, 5] 2 false).log, a.Sound := by
  obtain ⟨w, run, seen⟩ := Option.map_eq_some_iff.1 (show
    (follow Fed.step (fun _ _ => True) { reassembler := .new 8 } [.push [5, 6] 5 false, .push [1] 1 false]).map
      (fun w => ((w.reassembler.walk [2, 3, 4, 5] 2 false).log.length,
        decide (w.reassembler.PastEnd [2, 3, 4, 5] 2))) = some (18, false) by decide +kernel)
  obtain ⟨reads, inside⟩ := Prod.mk.inj seen
  exact ⟨w, run, reads, (dereferences_iff (Reaches.start.follow run) _ _ _).2 (of_decide_eq_false inside)⟩

/-- A byte stored at 1 and one pushed at 3: `lower_bound(3)` is `end()`, and `index_c != it->first` reads through it. -/
theorem dereferences_end : ¬ ∀ (capacity : Nat) (w : Fed),
    Reaches Fed.step (fun _ _ => True) { reassembler := .new capacity } w → ∀ data index eof,
      ∀ a ∈ (w.reassembler.walk data index eof).log, a.Sound := by
  intro sound
  obtain ⟨w, run, seen⟩ := Option.map_eq_some_iff.1 (show
    (follow Fed.step (fun _ _ => True) { reassembler := .new 8 } [.push [1] 1 false]).map
      (fun w => (w.reassembler.walk [3] 3 false).log.map Access.iter) = some [none, some 1, some 3] by decide +kernel)
  obtain ⟨a, read, past⟩ := List.mem_map.1 (show none ∈ (w.reassembler.walk [3] 3 false).log.map Access.iter by simp [seen])
  obtain ⟨e, -, iter⟩ := sound 8 w (Reaches.start.follow run) [3] 3 false a read
  rw [past] at iter
  cases iter

end StreamReassembler

end Sponge
