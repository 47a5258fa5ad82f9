import Sponge.Logic.Runs
import Sponge.Stream.StreamReassembler

/-!
# Storing a substring in the map

What the map manipulation of `push_substring` does to the stored entries. An
entry is `WF` when its end index agrees with its bytes, and the entries of a map
are the separated runs of `Sponge.Logic.Runs`. Joining two entries that touch
(`join_spec`) is the only step that changes an entry; the loop over the
successors (`absorb_spec`) and the whole block (`store_spec`) follow from it:
the result is again separated, covers the old positions and those of the new
piece, and `_unassembled_bytes` follows the sum of the sizes.
-/

namespace Sponge

/-- The positions of an entry. -/
def Entry.run (e : Entry) : Run := ⟨e.start, e.bytes.size⟩

/-- The runs of the stored entries. -/
def runs (entries : List Entry) : List Run := entries.map Entry.run

/-- The number of bytes stored. -/
def stored (entries : List Entry) : Nat := (entries.map fun e => e.bytes.size).sum

/-- A nonempty entry whose end index agrees with its bytes, up to `limit`. -/
structure Entry.WF (limit : Nat) (e : Entry) : Prop where
  nonempty : 0 < e.bytes.size
  last : e.last + 1 = e.start + e.bytes.size
  within : e.start + e.bytes.size ≤ limit

/-- The bytes of an entry are those of the stream `S` at its place. -/
def Entry.PieceOf (S : List UInt8) (e : Entry) : Prop := e.bytes.concatenate <+: S.drop e.start

/-- A clipped substring, as the entry it would be. -/
def Piece.entry (p : Piece) : Entry := ⟨p.start, p.last, p.bytes⟩

@[simp] theorem run_start (e : Entry) : e.run.start = e.start := rfl

@[simp] theorem run_size (e : Entry) : e.run.size = e.bytes.size := rfl

@[simp] theorem runs_nil : runs [] = [] := rfl

@[simp] theorem runs_cons (e : Entry) (es : List Entry) : runs (e :: es) = e.run :: runs es := rfl

@[simp] theorem runs_append (a b : List Entry) : runs (a ++ b) = runs a ++ runs b := List.map_append

@[simp] theorem stored_nil : stored [] = 0 := rfl

@[simp] theorem stored_cons (e : Entry) (es : List Entry) : stored (e :: es) = e.bytes.size + stored es := rfl

@[simp] theorem stored_append (a b : List Entry) : stored (a ++ b) = stored a + stored b := by
  simp [stored]

theorem stored_eq_sum (es : List Entry) : stored es = ((runs es).map Run.size).sum := by
  simp [stored, runs, Function.comp_def]

theorem separated_runs_cons {e : Entry} {es : List Entry} :
    Separated (runs (e :: es)) ↔ (∀ o ∈ es, e.start + e.bytes.size < o.start) ∧ Separated (runs es) := by
  simp [Separated, runs]

/-- Two maps side by side are separated when the sides are and every left entry
ends before every right one. -/
theorem separated_runs_append {a b : List Entry} :
    Separated (runs (a ++ b)) ↔ Separated (runs a) ∧ Separated (runs b) ∧
      ∀ e ∈ a, ∀ o ∈ b, e.start + e.bytes.size < o.start := by
  simp only [Separated, runs_append, List.pairwise_append]
  simp [runs]

/-- A property of all entries, side by side. -/
theorem forall_mem_split {P : Entry → Prop} {left right : List Entry} {focus : Entry} :
    (∀ e ∈ left ++ focus :: right, P e) ↔ (∀ e ∈ left, P e) ∧ P focus ∧ ∀ e ∈ right, P e := by
  rw [List.forall_mem_append, List.forall_mem_cons]

theorem or_insert {a b c : Prop} : (a ∨ b ∨ c) ↔ ((a ∨ c) ∨ b) := by tauto

theorem or_join {a b c d : Prop} : (a ∨ (b ∨ d) ∨ c) ↔ ((a ∨ b ∨ c) ∨ d) := by tauto

/-- `a` extended by the bytes of `b` after `a`'s end. -/
def Entry.join (a b : Entry) (tail : BufferList) : Entry :=
  { a with bytes := a.bytes.append tail, last := b.last }

/-- Joining with an entry that touches and reaches further: the overlap is there
to be removed, and the union of the two ranges is covered. -/
theorem join_spec {a b : Entry} {limit : Nat} (fits : limit < word64) (ha : a.WF limit) (hb : b.WF limit)
    (touch : b.start ≤ a.last + 1) (further : a.last < b.last) :
    ∃ tail, b.bytes.removePrefix (add64 (sub64 a.last b.start) 1) = some tail ∧
      tail.concatenate = b.bytes.concatenate.drop (a.last + 1 - b.start) ∧
      tail.size = b.last - a.last := by
  have lastA := ha.last
  have lastB := hb.last
  have withinB := hb.within
  rw [add64_sub64_one touch (by omega)]
  obtain ⟨tail, removed, bytes⟩ := BufferList.removePrefix_spec b.bytes (a.last + 1 - b.start) (by omega)
  refine ⟨tail, removed, bytes, ?_⟩
  rw [← BufferList.length_concatenate, bytes, List.length_drop, BufferList.length_concatenate]
  omega

section Join

variable {a b : Entry} {limit : Nat} {tail : BufferList}

theorem join_wf (ha : a.WF limit) (hb : b.WF limit) (further : a.last < b.last)
    (size : tail.size = b.last - a.last) : (a.join b tail).WF limit := by
  have lastA := ha.last
  have lastB := hb.last
  have within := hb.within
  constructor <;> simp only [Entry.join, BufferList.size_append, size] <;> omega

theorem join_piece {S : List UInt8} (ha : a.WF limit) (touch : b.start ≤ a.last + 1)
    (bytes : tail.concatenate = b.bytes.concatenate.drop (a.last + 1 - b.start))
    (pa : a.PieceOf S) (pb : b.PieceOf S) : (a.join b tail).PieceOf S := by
  have last := ha.last
  simp only [Entry.PieceOf, Entry.join, BufferList.concatenate_append, bytes]
  rw [show a.last + 1 - b.start = a.start + a.bytes.concatenate.length - b.start by
    rw [BufferList.length_concatenate]; omega]
  exact piece_glue pa pb (by rw [BufferList.length_concatenate]; omega)

theorem join_covers (ha : a.WF limit) (hb : b.WF limit) (order : a.start ≤ b.start) (touch : b.start ≤ a.last + 1)
    (further : a.last < b.last) (size : tail.size = b.last - a.last) (p : Nat) :
    ((a.join b tail).start ≤ p ∧ p < (a.join b tail).start + (a.join b tail).bytes.size) ↔
      (a.start ≤ p ∧ p < a.start + a.bytes.size) ∨ (b.start ≤ p ∧ p < b.start + b.bytes.size) := by
  have lastA := ha.last
  have lastB := hb.last
  simp only [Entry.join, BufferList.size_append, size]
  omega

end Join

/-- The state of the loop over the successors, after it: what `focus` and
`rest` became, and the counter. -/
structure Absorbed (limit : Nat) (focus : Entry) (rest : List Entry) (bytes : Nat)
    (focus' : Entry) (rest' : List Entry) (bytes' : Nat) : Prop where
  start : focus'.start = focus.start
  wf : focus'.WF limit
  reach : focus.last ≤ focus'.last
  suffix : rest' <:+ rest
  separated : Separated (runs (focus' :: rest'))
  covers : ∀ p, p ∈ covered (runs (focus' :: rest')) ↔ p ∈ covered (runs (focus :: rest))
  counter : ∀ base, bytes = (base + stored (focus :: rest)) % word64 →
    bytes' = (base + stored (focus' :: rest')) % word64
  piece : ∀ S, focus.PieceOf S → (∀ e ∈ rest, e.PieceOf S) → focus'.PieceOf S

section Absorbed

variable {limit : Nat} {focus e : Entry} {rest : List Entry} {bytes : Nat}

/-- Nothing is left to absorb. -/
theorem Absorbed.stop (wf : focus.WF limit) (separated : Separated (runs (focus :: rest))) :
    Absorbed limit focus rest bytes focus rest bytes where
  start := rfl
  wf := wf
  reach := Nat.le_refl _
  suffix := List.suffix_refl _
  separated := separated
  covers := fun _ => Iff.rfl
  counter := fun _ counted => counted
  piece := fun _ piece _ => piece

/-- An entry that `focus` covers is erased. -/
theorem Absorbed.erase {focus' : Entry} {rest' : List Entry} {bytes' : Nat} (wf : focus.WF limit) (wfe : e.WF limit)
    (before : focus.start < e.start) (inside : e.last ≤ focus.last)
    (post : Absorbed limit focus rest (sub64 bytes e.bytes.size) focus' rest' bytes') :
    Absorbed limit focus (e :: rest) bytes focus' rest' bytes' where
  start := post.start
  wf := post.wf
  reach := post.reach
  suffix := post.suffix.trans (List.suffix_cons _ _)
  separated := post.separated
  covers := by
    intro p
    have last := wf.last
    have lastE := wfe.last
    rw [post.covers]
    simp only [runs_cons, mem_covered_cons, run_start, run_size]
    constructor
    · rintro (h | h)
      · exact Or.inl h
      · exact Or.inr (Or.inr h)
    · rintro (h | h | h)
      · exact Or.inl h
      · exact Or.inl (by omega)
      · exact Or.inr h
  counter := by
    intro base counted
    apply post.counter base
    rw [counted, ← sub64_mod (base + stored (focus :: rest)) e.bytes.size]
    congr 2
    simp only [stored_cons]
    omega
  piece := fun S pf pr => post.piece S pf (fun o ho => pr o (List.mem_cons_of_mem _ ho))

/-- An entry that `focus` touches and does not cover is joined to it; by the gap after it, the loop can stop. -/
theorem Absorbed.join {tail : BufferList} (wf : focus.WF limit) (wfe : e.WF limit)
    (before : focus.start < e.start) (touch : e.start ≤ focus.last + 1) (further : focus.last < e.last)
    (cut : tail.concatenate = e.bytes.concatenate.drop (focus.last + 1 - e.start)) (size : tail.size = e.last - focus.last)
    (separated : Separated (runs (e :: rest))) :
    Absorbed limit focus (e :: rest) bytes (focus.join e tail) rest (sub64 bytes (focus.last + 1 - e.start)) where
  start := rfl
  wf := join_wf wf wfe further size
  reach := Nat.le_of_lt further
  suffix := List.suffix_cons _ _
  separated := by
    obtain ⟨gap, separated⟩ := separated_runs_cons.1 separated
    refine separated_runs_cons.2 ⟨fun o ho => ?_, separated⟩
    have past := gap o ho
    have last := wf.last
    have lastE := wfe.last
    simp only [Entry.join, BufferList.size_append, size]
    omega
  covers := by
    intro p
    simp only [runs_cons, mem_covered_cons, run_start, run_size]
    rw [join_covers wf wfe (Nat.le_of_lt before) touch further size p, or_assoc]
  counter := by
    intro base counted
    have last := wf.last
    have lastE := wfe.last
    rw [counted, ← sub64_mod (base + stored (focus.join e tail :: rest)) (focus.last + 1 - e.start)]
    congr 2
    simp only [stored_cons, Entry.join, BufferList.size_append, size]
    omega
  piece := fun S pf pr => join_piece wf touch cut pf (pr e List.mem_cons_self)

end Absorbed

namespace StreamReassembler

/-- The loop over the successors never throws, and keeps the positions. -/
theorem absorb_spec {limit : Nat} (fits : limit < word64) {focus : Entry} {rest : List Entry} (bytes : Nat)
    (wf : focus.WF limit) (wfRest : ∀ e ∈ rest, e.WF limit) (separated : Separated (runs rest))
    (order : ∀ e ∈ rest, focus.start < e.start) :
    ∃ focus' rest' bytes', absorb focus bytes rest = some (focus', rest', bytes') ∧
      Absorbed limit focus rest bytes focus' rest' bytes' := by
  induction rest generalizing bytes with
  | nil => exact ⟨focus, [], bytes, rfl, .stop wf (by simp [Separated])⟩
  | cons e rest ih =>
    have last := wf.last
    have within := wf.within
    have wfe := wfRest e List.mem_cons_self
    have before := order e List.mem_cons_self
    obtain ⟨gap, separatedRest⟩ := separated_runs_cons.1 separated
    simp only [absorb]
    by_cases inside : e.last ≤ focus.last
    · obtain ⟨focus', rest', bytes', run, post⟩ := ih (sub64 bytes e.bytes.size)
        (fun o ho => wfRest o (List.mem_cons_of_mem _ ho)) separatedRest
        (fun o ho => order o (List.mem_cons_of_mem _ ho))
      exact ⟨focus', rest', bytes', by rw [if_pos inside, run], post.erase wf wfe before inside⟩
    · rw [if_neg inside, add64_eq (by omega : focus.last + 1 < word64)]
      by_cases touch : e.start ≤ focus.last + 1
      · obtain ⟨tail, removed, cut, size⟩ := join_spec fits wf wfe touch (by omega)
        refine ⟨focus.join e tail, rest, sub64 bytes (focus.last + 1 - e.start), ?_,
          .join wf wfe before touch (by omega) cut size separated⟩
        rw [if_pos touch, removed, add64_sub64_one touch (by omega)]
        rfl
      · refine ⟨focus, e :: rest, bytes, by rw [if_neg touch], .stop wf ?_⟩
        refine separated_runs_cons.2 ⟨fun o ho => ?_, separated⟩
        rcases List.mem_cons.1 ho with rfl | later
        · omega
        · have := gap o later
          omega

/-- Where the search of the place ends: it fails, it finds that every entry lies
to the right, or it finds the last entry that does not. -/
theorem target_cases {entries : List Entry} (sorted : entries.Pairwise fun a b => a.start < b.start) (i : Nat) :
    (target entries i = none ∧ entries ≠ [] ∧ entries.length = i ∧ ∀ e ∈ entries, e.start < i) ∨
    (target entries i = some none ∧ ∀ e ∈ entries, i < e.start) ∨
    ∃ c, target entries i = some (some c) ∧ c.entries = entries ∧ c.focus.start ≤ i ∧ ∀ e ∈ c.right, i < e.start := by
  have split := List.takeWhile_append_dropWhile (p := fun e : Entry => decide (e.start < i)) (l := entries)
  have below : ∀ e ∈ entries.takeWhile (fun e => decide (e.start < i)), e.start < i := by
    intro e he
    simpa using List.all_eq_true.1 (List.all_takeWhile) e he
  have head : ∀ e right, entries.dropWhile (fun e => decide (e.start < i)) = e :: right → i ≤ e.start := by
    intro e right h
    have := List.head?_dropWhile_not (fun e : Entry => decide (e.start < i)) entries
    rw [h] at this
    simpa using this
  unfold target
  simp only
  generalize entries.takeWhile (fun e => decide (e.start < i)) = before at *
  generalize entries.dropWhile (fun e => decide (e.start < i)) = after at *
  subst split
  obtain ⟨_, sortedAfter, _⟩ := List.pairwise_append.1 sorted
  cases after with
  | nil =>
    cases h : before.getLast? with
    | none =>
      rw [List.getLast?_eq_none_iff.1 h]
      exact Or.inr (Or.inl ⟨rfl, by simp⟩)
    | some pred =>
      obtain ⟨init, rfl⟩ := List.getLast?_eq_some_iff.1 h
      by_cases ends : i = (init ++ [pred] ++ []).length
      · exact Or.inl ⟨by simp [ends], by simp, ends.symm, by simpa using below⟩
      · refine Or.inr (Or.inr ⟨⟨init, pred, []⟩, by simp_all, by simp [Cursor.entries], ?_, by simp⟩)
        exact Nat.le_of_lt (below pred (by simp))
  | cons e right =>
    have lower := head e right rfl
    have past : ∀ o ∈ right, e.start < o.start := fun o ho => List.rel_of_pairwise_cons sortedAfter ho
    by_cases same : e.start = i
    · refine Or.inr (Or.inr ⟨⟨before, e, right⟩, by cases before.getLast? <;> simp [same], rfl, by simp [same], ?_⟩)
      intro o ho
      have := past o ho
      omega
    · cases h : before.getLast? with
      | none =>
        rw [List.getLast?_eq_none_iff.1 h]
        refine Or.inr (Or.inl ⟨by simp [same], fun o ho => ?_⟩)
        rcases List.mem_cons.1 ho with rfl | later
        · omega
        · have := past o later
          omega
      | some pred =>
        obtain ⟨init, rfl⟩ := List.getLast?_eq_some_iff.1 h
        refine Or.inr (Or.inr ⟨⟨init, pred, e :: right⟩, by simp [same], by simp [Cursor.entries], ?_, ?_⟩)
        · exact Nat.le_of_lt (below pred (by simp))
        · intro o ho
          rcases List.mem_cons.1 ho with rfl | later
          · omega
          · have := past o later
            omega

/-- Entries with gaps between them take up at least every other position. -/
theorem length_le_of_separated {entries : List Entry} {b i : Nat} (room : b ≤ i)
    (nonempty : ∀ e ∈ entries, 0 < e.bytes.size) (separated : Separated (runs entries))
    (inside : ∀ e ∈ entries, b < e.start ∧ e.start < i) : b + 2 * entries.length ≤ i := by
  induction entries generalizing b with
  | nil => simpa using room
  | cons e entries ih =>
    obtain ⟨gap, separated⟩ := separated_runs_cons.1 separated
    have here := inside e List.mem_cons_self
    have size := nonempty e List.mem_cons_self
    have rest := ih (b := e.start + 1) (by omega) (fun o ho => nonempty o (List.mem_cons_of_mem _ ho)) separated
      (fun o ho => ⟨by have := gap o ho; omega, (inside o (List.mem_cons_of_mem _ ho)).2⟩)
    simp only [List.length_cons]
    omega

end StreamReassembler

/-- The map after a substring `new` is stored in `entries`, with the iterator
`insert` at the focus. -/
structure Stored (limit : Nat) (entries : List Entry) (new : Entry) (bytes : Nat) (c : Cursor) (bytes' : Nat) :
    Prop where
  wf : ∀ e ∈ c.entries, e.WF limit
  separated : Separated (runs c.entries)
  covers : ∀ p, p ∈ covered (runs c.entries) ↔
    p ∈ covered (runs entries) ∨ (new.start ≤ p ∧ p < new.start + new.bytes.size)
  starts : ∀ e ∈ c.entries, e.start = new.start ∨ ∃ o ∈ entries, o.start = e.start
  holds : c.focus.start ≤ new.start
  counter : bytes = stored entries % word64 → bytes' = stored c.entries % word64
  piece : ∀ S, new.PieceOf S → (∀ e ∈ entries, e.PieceOf S) → ∀ e ∈ c.entries, e.PieceOf S

/-- A substring that lies inside the entry found is discarded. -/
theorem Stored.discard {limit bytes : Nat} {c : Cursor} {new : Entry} (wf : ∀ e ∈ c.entries, e.WF limit)
    (separated : Separated (runs c.entries)) (start : c.focus.start ≤ new.start)
    (inside : new.start + new.bytes.size ≤ c.focus.start + c.focus.bytes.size) :
    Stored limit c.entries new bytes c bytes where
  wf := wf
  separated := separated
  covers := by
    intro q
    refine ⟨Or.inl, ?_⟩
    rintro (h | h)
    · exact h
    · simp only [Cursor.entries, runs_append, runs_cons, mem_covered_append, mem_covered_cons, run_start, run_size]
      exact Or.inr (Or.inl (by omega))
  starts := fun e he => Or.inr ⟨e, he, rfl⟩
  holds := start
  counter := id
  piece := fun _ _ pieces => pieces

namespace StreamReassembler

/-- There are fewer entries than indices before them, so the end node's count is no index behind all of them. -/
theorem length_ne_of_past {limit b i : Nat} {entries : List Entry} (some : entries ≠ []) (wf : ∀ e ∈ entries, e.WF limit)
    (separated : Separated (runs entries)) (after : ∀ e ∈ entries, b < e.start) (past : ∀ e ∈ entries, e.start < i) :
    entries.length ≠ i := by
  obtain ⟨e, he⟩ := List.exists_mem_of_ne_nil _ some
  have room : b ≤ i := Nat.le_of_lt (Nat.lt_trans (after e he) (past e he))
  have bound := length_le_of_separated room (fun o ho => (wf o ho).nonempty) separated
    (fun o ho => ⟨after o ho, past o ho⟩)
  have := List.length_pos_of_mem he
  omega

/-- The loop at a cursor whose left side ends before the focus. -/
theorem absorbAt_spec {limit : Nat} (fits : limit < word64) {left right : List Entry} {focus : Entry} (bytes : Nat)
    (wf : ∀ e ∈ left ++ focus :: right, e.WF limit) (sepLeft : Separated (runs left))
    (sepRight : Separated (runs right)) (order : ∀ e ∈ right, focus.start < e.start)
    (apart : ∀ e ∈ left, e.start + e.bytes.size < focus.start) :
    ∃ c bytes', absorbAt left focus right bytes = some (c, bytes') ∧ c.left = left ∧ c.focus.start = focus.start ∧
      (∀ e ∈ c.entries, e.WF limit) ∧ Separated (runs c.entries) ∧
      (∀ p, p ∈ covered (runs c.entries) ↔ p ∈ covered (runs (left ++ focus :: right))) ∧
      (∀ e ∈ c.right, e ∈ right) ∧
      (bytes = stored (left ++ focus :: right) % word64 → bytes' = stored c.entries % word64) ∧
      ∀ S, (∀ e ∈ left ++ focus :: right, e.PieceOf S) → ∀ e ∈ c.entries, e.PieceOf S := by
  obtain ⟨wfLeft, wfFocus, wfRight⟩ := forall_mem_split.1 wf
  obtain ⟨focus', right', bytes', run, post⟩ := absorb_spec fits bytes wfFocus wfRight sepRight order
  have kept : ∀ e ∈ right', e ∈ right := fun e he => post.suffix.subset he
  refine ⟨⟨left, focus', right'⟩, bytes', by rw [absorbAt, run]; rfl, rfl, post.start, ?_, ?_, ?_, kept, ?_, ?_⟩
  · exact forall_mem_split.2 ⟨wfLeft, post.wf, fun e he => wfRight e (kept e he)⟩
  · refine separated_runs_append.2 ⟨sepLeft, post.separated, fun e he o ho => ?_⟩
    have gap := apart e he
    rcases List.mem_cons.1 ho with rfl | ho
    · rw [post.start]
      exact gap
    · have := order o (kept o ho)
      omega
  · intro p
    have same := post.covers p
    simp only [Cursor.entries, runs_append, mem_covered_append]
    rw [same]
  · intro counted
    have := post.counter (stored left) (by rw [counted, stored_append])
    rw [this, Cursor.entries, stored_append]
  · intro S pieces
    obtain ⟨pLeft, pFocus, pRight⟩ := forall_mem_split.1 pieces
    exact forall_mem_split.2 ⟨pLeft, post.piece S pFocus pRight, fun e he => pRight e (kept e he)⟩

/-- A new entry put between its neighbours. -/
theorem insertFresh_spec {limit : Nat} (fits : limit < word64) (left right : List Entry) {p : Piece} (bytes : Nat)
    (wf : ∀ e ∈ left ++ right, e.WF limit) (new : p.entry.WF limit) (separated : Separated (runs (left ++ right)))
    (order : ∀ e ∈ right, p.start < e.start) (apart : ∀ e ∈ left, e.start + e.bytes.size < p.start) :
    ∃ c bytes', insertFresh left p right bytes = some (c, bytes') ∧
      Stored limit (left ++ right) p.entry bytes c bytes' := by
  obtain ⟨sepLeft, sepRight, _⟩ := separated_runs_append.1 separated
  obtain ⟨wfLeft, wfRight⟩ := List.forall_mem_append.1 wf
  obtain ⟨c, bytes', run, leftSame, startSame, wfc, sepc, covers, kept, counter, piece⟩ :=
    absorbAt_spec fits (add64 bytes p.bytes.size) (forall_mem_split.2 ⟨wfLeft, new, wfRight⟩) sepLeft sepRight order apart
  refine ⟨c, bytes', run, wfc, sepc, ?_, ?_, by rw [startSame], ?_, ?_⟩
  · intro q
    rw [covers]
    simp only [runs_append, runs_cons, mem_covered_append, mem_covered_cons, run_start, run_size]
    exact or_insert
  · refine forall_mem_split.2 ⟨fun e he => Or.inr ⟨e, ?_, rfl⟩, Or.inl startSame,
      fun e he => Or.inr ⟨e, List.mem_append_right _ (kept e he), rfl⟩⟩
    rw [leftSame] at he
    exact List.mem_append_left _ he
  · intro counted
    apply counter
    rw [counted, add64_mod]
    congr 1
    simp only [stored_append, stored_cons, Piece.entry]
    omega
  · intro S pn pe
    obtain ⟨pLeft, pRight⟩ := List.forall_mem_append.1 pe
    exact piece S (forall_mem_split.2 ⟨pLeft, pn, pRight⟩)

/-- The focus of a cursor extended by a substring that touches it, then the loop. -/
theorem joinAt_spec {limit : Nat} (fits : limit < word64) {c : Cursor} {p : Piece} (bytes : Nat)
    (wf : ∀ e ∈ c.entries, e.WF limit) (separated : Separated (runs c.entries)) (new : p.entry.WF limit)
    (start : c.focus.start ≤ p.start) (touch : p.start ≤ c.focus.last + 1) (further : c.focus.last < p.entry.last)
    (right : ∀ e ∈ c.right, p.start < e.start) :
    ∃ tail c' bytes', p.bytes.removePrefix (c.focus.last + 1 - p.start) = some tail ∧
      absorbAt c.left (c.focus.join p.entry tail) c.right (add64 bytes tail.size) = some (c', bytes') ∧
      Stored limit c.entries p.entry bytes c' bytes' := by
  obtain ⟨wfLeft, wff, wfRight⟩ := forall_mem_split.1 wf
  obtain ⟨sepLeft, sepFocus, apart⟩ := separated_runs_append.1 separated
  obtain ⟨_, sepRight⟩ := separated_runs_cons.1 sepFocus
  obtain ⟨tail, removed, cut, size⟩ := join_spec fits wff new touch further
  have within := wff.within
  have last := wff.last
  rw [add64_sub64_one (b := p.entry.start) touch (by omega)] at removed
  obtain ⟨c', bytes', run, leftSame, startSame, wfc, sepc, covers, kept, counter, piece⟩ :=
    absorbAt_spec fits (add64 bytes tail.size)
      (forall_mem_split.2 ⟨wfLeft, join_wf wff new further size, wfRight⟩) sepLeft sepRight
      (fun e he => Nat.lt_of_le_of_lt start (right e he)) (fun e he => apart e he c.focus List.mem_cons_self)
  refine ⟨tail, c', bytes', removed, run, wfc, sepc, fun q => ?_, ?_, by rw [startSame]; exact start, ?_, ?_⟩
  · rw [covers]
    simp only [Cursor.entries, runs_append, runs_cons, mem_covered_append, mem_covered_cons, run_start, run_size]
    rw [join_covers wff new start touch further size q]
    exact or_join
  · refine forall_mem_split.2 ⟨fun e he => Or.inr ⟨e, ?_, rfl⟩,
      Or.inr ⟨c.focus, by simp [Cursor.entries], startSame.symm⟩,
      fun e he => Or.inr ⟨e, by simp [Cursor.entries, kept e he], rfl⟩⟩
    rw [leftSame] at he
    exact List.mem_append_left _ he
  · intro counted
    apply counter
    rw [counted, add64_mod]
    congr 1
    simp only [Cursor.entries, stored_append, stored_cons, Entry.join, BufferList.size_append]
    omega
  · intro S pn pe
    obtain ⟨pLeft, pFocus, pRight⟩ := forall_mem_split.1 pe
    exact piece S (forall_mem_split.2 ⟨pLeft, join_piece wff touch cut pFocus pn, pRight⟩)

/-- **Storing a substring** that starts at or after `b`, in a map whose entries
start after `b`: the block never throws and never uses the end node. -/
theorem store_spec {limit b : Nat} (fits : limit < word64) {entries : List Entry} {p : Piece} (bytes : Nat)
    (wf : ∀ e ∈ entries, e.WF limit) (separated : Separated (runs entries)) (new : p.entry.WF limit)
    (length : p.length = p.bytes.size) (after : ∀ e ∈ entries, b < e.start) :
    ∃ c bytes', store entries bytes p = some (c, bytes') ∧ Stored limit entries p.entry bytes c bytes' := by
  have sorted : entries.Pairwise fun a b => a.start < b.start := by
    refine List.Pairwise.imp ?_ (List.pairwise_map.1 separated)
    intro x y gap
    exact Nat.lt_of_le_of_lt (Nat.le_add_right _ _) gap
  have newLast := new.last
  simp only [Piece.entry] at newLast
  rcases target_cases sorted p.start with ⟨_, some, count, inside⟩ | ⟨found, right⟩ | ⟨c, found, rfl, start, right⟩
  · exact absurd count (length_ne_of_past some wf separated after inside)
  · obtain ⟨c, bytes', run, post⟩ := insertFresh_spec fits [] entries bytes wf new separated right (by simp)
    exact ⟨c, bytes', by rw [store, found]; exact run, post⟩
  · simp only [store, found]
    obtain ⟨wfLeft, wff, wfRight⟩ := forall_mem_split.1 wf
    have lastF := wff.last
    have withinF := wff.within
    obtain ⟨sepLeft, sepFocus, apart⟩ := separated_runs_append.1 separated
    obtain ⟨gap, sepRight⟩ := separated_runs_cons.1 sepFocus
    rw [add64_eq (by omega : c.focus.last + 1 < word64)]
    by_cases touch : p.start ≤ c.focus.last + 1
    · rw [if_pos touch, add64_sub64_one touch (by omega)]
      by_cases inside : p.length ≤ c.focus.last + 1 - p.start
      · exact ⟨c, bytes, by rw [if_pos inside], .discard wf separated start (by simp only [Piece.entry]; omega)⟩
      · -- joined to the entry, then the loop
        obtain ⟨tail, c', bytes', removed, run, post⟩ := joinAt_spec fits bytes wf separated new start touch
          (by simp only [Piece.entry]; omega) right
        refine ⟨c', bytes', ?_, post⟩
        rw [if_neg inside, removed]
        exact run
    · have apartNew : ∀ e ∈ c.left ++ [c.focus], e.start + e.bytes.size < p.start := by
        intro e he
        rcases List.mem_append.1 he with he | he
        · have := apart e he c.focus List.mem_cons_self
          omega
        · rw [List.mem_singleton.1 he]
          omega
      have whole : c.entries = c.left ++ [c.focus] ++ c.right := by simp [Cursor.entries]
      rw [whole] at wf separated ⊢
      obtain ⟨c', bytes', run, post⟩ := insertFresh_spec fits _ _ bytes wf new separated right apartNew
      exact ⟨c', bytes', by rw [if_neg touch, if_neg (by omega)]; exact run, post⟩

end StreamReassembler

end Sponge
