import Sponge.Logic.OrderedMap
import Sponge.Stream.ReassemblerRep

/-!
# What is written out is what was sent

`ReassemblerRep` describes the reassembler exactly while the window's edge, the
bytes read plus the capacity, is a 64-bit number. Past that the edge wraps: the
clipped substring gets an end index before its start, and entries the stream has
passed stay in the map. This module shows the part that survives for every
capacity: the entries at or after the first unassembled index hold bytes of the
stream at their place, so whatever is written out is the next part of it.
-/

namespace Sponge

/-- Bytes of the stream `S` at their place, inside the window's edge. -/
structure Entry.Slice (S : List UInt8) (edge : Nat) (e : Entry) : Prop where
  piece : e.PieceOf S
  inside : e.start + e.bytes.size ≤ S.length
  within : e.start + e.bytes.size ≤ edge

/-- A slice whose end index agrees with its bytes. -/
structure Entry.Genuine (S : List UInt8) (edge : Nat) (e : Entry) : Prop extends Entry.Slice S edge e where
  last : e.last + 1 = e.start + e.bytes.size

theorem Entry.Genuine.mono {S S' : List UInt8} {edge edge' : Nat} {e : Entry} (h : e.Genuine S edge) (more : S <+: S')
    (further : edge ≤ edge') : e.Genuine S' edge' := by
  refine ⟨⟨piece_mono h.piece more, ?_, ?_⟩, h.last⟩
  · exact Nat.le_trans h.inside more.length_le
  · exact Nat.le_trans h.within further

namespace BufferList

/-- `remove_prefix` returns only when the bytes are there. -/
theorem removePrefix_some {l rest : BufferList} {n : Nat} (run : l.removePrefix n = some rest) :
    n ≤ l.size ∧ rest.concatenate = l.concatenate.drop n := by
  have enough : ∀ (bs : List Buffer) (n : Nat) rest, dropBytes bs n = some rest → n ≤ bs.flatten.length := by
    intro bs
    induction bs with
    | nil =>
      intro n rest run
      cases n with
      | zero => exact Nat.zero_le _
      | succ n => cases run
    | cons b bs ih =>
      intro n rest run
      cases n with
      | zero => exact Nat.zero_le _
      | succ n =>
        rw [List.flatten_cons, List.length_append]
        rw [dropBytes] at run
        split at run
        · omega
        · have := ih _ _ run
          omega
  obtain ⟨bs, popped, -⟩ := Option.map_eq_some_iff.1 run
  have there : n ≤ l.size := by
    rw [← length_concatenate]
    exact enough l.buffers n bs popped
  obtain ⟨rest', run', bytes⟩ := removePrefix_spec l n there
  rw [run] at run'
  cases run'
  exact ⟨there, bytes⟩

end BufferList

namespace StreamReassembler

section Join

variable {S : List UInt8} {edge : Nat} {a b : Entry} {tail : BufferList}

/-- Joining to a genuine entry the bytes of a slice after its end. -/
theorem join_slice (short : S.length < word64) (ha : a.Genuine S edge) (hb : b.Slice S edge)
    (touch : b.start ≤ a.last + 1) (removed : b.bytes.removePrefix (add64 (sub64 a.last b.start) 1) = some tail) :
    (a.join b tail).Slice S edge ∧ (a.join b tail).start + (a.join b tail).bytes.size = b.start + b.bytes.size := by
  have last := ha.last
  have insideA := ha.inside
  have insideB := hb.inside
  have withinB := hb.within
  rw [add64_sub64_one touch (by omega)] at removed
  obtain ⟨enough, bytes⟩ := BufferList.removePrefix_some removed
  have size : tail.size = b.bytes.size - (a.last + 1 - b.start) := by
    rw [← BufferList.length_concatenate, bytes, List.length_drop, BufferList.length_concatenate]
  have reach : (a.join b tail).start + (a.join b tail).bytes.size = b.start + b.bytes.size := by
    simp only [Entry.join, BufferList.size_append, size]
    omega
  refine ⟨⟨?_, by omega, by omega⟩, reach⟩
  have piece := piece_glue ha.piece hb.piece (by rw [BufferList.length_concatenate]; omega)
  simp only [Entry.PieceOf, Entry.join, BufferList.concatenate_append, bytes]
  rw [show a.last + 1 - b.start = a.start + a.bytes.concatenate.length - b.start by
    rw [BufferList.length_concatenate]; omega]
  exact piece

theorem join_genuine (short : S.length < word64) (ha : a.Genuine S edge) (hb : b.Genuine S edge)
    (touch : b.start ≤ a.last + 1) (removed : b.bytes.removePrefix (add64 (sub64 a.last b.start) 1) = some tail) :
    (a.join b tail).Genuine S edge := by
  obtain ⟨slice, reach⟩ := join_slice short ha hb.toSlice touch removed
  exact ⟨slice, by rw [reach]; exact hb.last⟩

end Join

section Absorb

variable {S : List UInt8} {edge : Nat} {focus focus' : Entry} {rest rest' : List Entry} {bytes bytes' : Nat}

/-- The loop over the successors keeps the key and only erases. -/
theorem absorb_keys (run : absorb focus bytes rest = some (focus', rest', bytes')) :
    focus'.start = focus.start ∧ rest' <:+ rest := by
  induction rest generalizing bytes with
  | nil =>
    cases run
    exact ⟨rfl, List.suffix_refl _⟩
  | cons e rest ih =>
    rw [absorb] at run
    split at run
    · obtain ⟨start, suffix⟩ := ih run
      exact ⟨start, suffix.trans (List.suffix_cons _ _)⟩
    · split at run
      · obtain ⟨tail, -, joined⟩ := Option.map_eq_some_iff.1 run
        cases joined
        exact ⟨rfl, List.suffix_cons _ _⟩
      · cases run
        exact ⟨rfl, List.suffix_refl _⟩

theorem absorb_genuine (short : S.length < word64) (genuine : focus.Genuine S edge)
    (others : ∀ e ∈ rest, e.Genuine S edge) (run : absorb focus bytes rest = some (focus', rest', bytes')) :
    focus'.Genuine S edge := by
  induction rest generalizing bytes with
  | nil =>
    cases run
    exact genuine
  | cons e rest ih =>
    have first := others e List.mem_cons_self
    rw [absorb] at run
    split at run
    · exact ih (fun o ho => others o (List.mem_cons_of_mem _ ho)) run
    · split at run
      · rename_i touch
        obtain ⟨tail, removed, joined⟩ := Option.map_eq_some_iff.1 run
        cases joined
        have last := genuine.last
        have inside := genuine.inside
        by_cases small : focus.last + 1 < word64
        · rw [add64_eq small] at touch
          exact join_genuine short genuine first touch removed
        · omega
      · cases run
        exact genuine

/-- An entry that ends before all others is left alone. -/
theorem absorb_apart (fits : focus.last + 1 < word64) (apart : ∀ e ∈ rest, focus.last + 1 < e.start ∧ focus.last < e.last) :
    absorb focus bytes rest = some (focus, rest, bytes) := by
  cases rest with
  | nil => rfl
  | cons e rest =>
    obtain ⟨start, last⟩ := apart e List.mem_cons_self
    rw [absorb, if_neg (by omega), add64_eq fits, if_neg (by omega)]

end Absorb

/-! ### The keys -/

open OrderedMap (Sorted)

/-- The loop leaves the map in key order. -/
theorem absorbAt_sorted {left right : List Entry} {focus : Entry} {bytes bytes' : Nat} {c : Cursor}
    (run : absorbAt left focus right bytes = some (c, bytes')) (sorted : Sorted Entry.start (left ++ focus :: right)) :
    Sorted Entry.start c.entries := by
  obtain ⟨⟨focus', right', _⟩, absorbed, made⟩ := Option.map_eq_some_iff.1 run
  cases made
  obtain ⟨start, suffix⟩ := absorb_keys absorbed
  exact sorted.replace start suffix.sublist

/-- Before a key past the focus stand the focus and all to its left. -/
theorem early_between {c : Cursor} {i : Nat} (sorted : Sorted Entry.start c.entries) (before : c.focus.start < i) :
    ∀ e ∈ c.left ++ [c.focus], e.start < i := by
  obtain ⟨-, -, below, -⟩ := OrderedMap.sorted_split.1 sorted
  intro e he
  rcases List.mem_append.1 he with he | he
  · exact Nat.lt_trans (below e he) before
  · rw [List.mem_singleton.1 he]
    exact before

/-! ### What the map holds -/

/-- An entry the window let in: genuine, or, with a wrapped edge, a slice at the first unassembled index whose end
index lies before it. -/
def LetIn (S : List UInt8) (edge first : Nat) (e : Entry) : Prop :=
  e.Genuine S edge ∨ (e.Slice S edge ∧ e.start = first ∧ e.last + 1 < first)

theorem LetIn.slice {S : List UInt8} {edge first : Nat} {e : Entry} (h : LetIn S edge first e) : e.Slice S edge := by
  rcases h with genuine | ⟨slice, -⟩
  · exact genuine.toSlice
  · exact slice

/-- The map with an iterator at the entry just stored: what is at or after `first` holds bytes of the stream. -/
structure Landed (S : List UInt8) (edge first : Nat) (c : Cursor) : Prop where
  sorted : c.entries.Pairwise fun a b => a.start < b.start
  focus : first ≤ c.focus.start → LetIn S edge first c.focus
  left : ∀ e ∈ c.left, first ≤ e.start → e.Genuine S edge
  right : ∀ e ∈ c.right, first ≤ e.start → e.Genuine S edge

section Store

variable {S : List UInt8} {edge first : Nat} {bytes bytes' : Nat} {c c' : Cursor}

theorem absorbAt_landed (short : S.length < word64) (h : Landed S edge first c)
    (run : absorbAt c.left c.focus c.right bytes = some (c', bytes')) : Landed S edge first c' := by
  have sorted : Sorted Entry.start c.entries := h.sorted
  have sorted' := absorbAt_sorted run sorted
  obtain ⟨⟨focus', right', _⟩, absorbed, made⟩ := Option.map_eq_some_iff.1 run
  cases made
  obtain ⟨start, suffix⟩ := absorb_keys absorbed
  obtain ⟨-, -, -, after, -⟩ := OrderedMap.sorted_split.1 sorted
  refine ⟨sorted', fun current => ?_, h.left, fun e he => h.right e (suffix.subset he)⟩
  rw [start] at current
  have genuineRight : ∀ e ∈ c.right, e.Genuine S edge := by
    intro e he
    have := after e he
    exact h.right e he (by omega)
  rcases h.focus current with genuine | ⟨slice, atFirst, early⟩
  · exact Or.inl (absorb_genuine short genuine genuineRight absorbed)
  · -- the end index lies before every other entry, so the loop stops at once
    have inside := slice.inside
    rw [absorb_apart (by omega) fun e he => ?_] at absorbed
    · cases absorbed
      exact Or.inr ⟨slice, atFirst, early⟩
    · have := after e he
      have := (genuineRight e he).last
      omega

/-- The new substring joined to the entry before it, which keeps its key. -/
theorem join_landed (short : S.length < word64) {p : Piece} {buf : BufferList} (new : LetIn S edge first p.entry)
    (h : Landed S edge first c) (genuine : first ≤ c.focus.start → c.focus.Genuine S edge)
    (order : c.focus.start ≤ p.start) (touch : p.start ≤ add64 c.focus.last 1)
    (removed : p.bytes.removePrefix (add64 (sub64 c.focus.last p.start) 1) = some buf) :
    Landed S edge first ⟨c.left, c.focus.join p.entry buf, c.right⟩ := by
  have sorted : Sorted Entry.start c.entries := h.sorted
  have joined := sorted.replace (b := c.focus.join p.entry buf) rfl (List.Sublist.refl _)
  refine ⟨joined, fun current => ?_, h.left, h.right⟩
  have focus := genuine current
  have last := focus.last
  have inside := focus.inside
  rw [add64_eq (by omega)] at touch
  rcases new with whole | ⟨slice, atFirst, early⟩
  · exact Or.inl (join_genuine short focus whole touch removed)
  · have same : c.focus.start = first := Nat.le_antisymm (Nat.le_trans order (Nat.le_of_eq atFirst)) current
    exact Or.inr ⟨(join_slice short focus slice touch removed).1, same, early⟩

/-- The new substring as an entry of its own after `left`. -/
theorem insert_landed (left right : List Entry) {p : Piece} (new : LetIn S edge first p.entry)
    (sorted : (left ++ right).Pairwise fun a b => a.start < b.start)
    (genuine : ∀ e ∈ left ++ right, first ≤ e.start → e.Genuine S edge)
    (before : ∀ e ∈ left, e.start < p.start) (after : ∀ e ∈ right, p.start < e.start) :
    Landed S edge first ⟨left, p.entry, right⟩ := by
  obtain ⟨genuineLeft, genuineRight⟩ := List.forall_mem_append.1 genuine
  exact ⟨OrderedMap.sorted_insert (a := p.entry) sorted before after, fun _ => new, genuineLeft, genuineRight⟩

/-- Storing a substring that the window let in. -/
theorem store_landed (short : S.length < word64) {entries : List Entry}
    (sorted : entries.Pairwise fun a b => a.start < b.start)
    (genuine : ∀ e ∈ entries, first ≤ e.start → e.Genuine S edge) {p : Piece} (new : LetIn S edge first p.entry)
    (run : store entries bytes p = some (c, bytes')) : Landed S edge first c := by
  rcases target_cases sorted p.start with ⟨none, -⟩ | ⟨found, right⟩ | ⟨c₀, found, rfl, start, right⟩
  · rw [store, none] at run
    cases run
  · rw [store, found] at run
    exact absorbAt_landed short (insert_landed [] entries new sorted genuine (by simp) right) run
  · simp only [store, found] at run
    obtain ⟨genuineLeft, genuineFocus, genuineRight⟩ := forall_mem_split.1 genuine
    have landed : Landed S edge first c₀ := ⟨sorted, fun current => Or.inl (genuineFocus current), genuineLeft, genuineRight⟩
    split at run
    · rename_i touch
      split at run
      · cases run
        exact landed
      · obtain ⟨buf, removed, run⟩ := Option.bind_eq_some_iff.1 run
        exact absorbAt_landed short (join_landed short new landed genuineFocus start touch removed) run
    · split at run
      · exact absorbAt_landed short landed run
      · rename_i other
        have whole : c₀.entries = c₀.left ++ [c₀.focus] ++ c₀.right := List.append_cons _ _ _
        have before := early_between sorted (Nat.lt_of_le_of_ne start other)
        rw [whole] at sorted genuine
        exact absorbAt_landed short (insert_landed _ _ new sorted genuine before right) run

end Store

/-! ### The whole push -/

/-- What holds for every capacity: the map is in key order, its entries at or after the first unassembled index hold
bytes of `S`, and as much has been written out as the index says. -/
structure Safe (S : List UInt8) (r : StreamReassembler) : Prop where
  sorted : r.unassembled.Pairwise fun a b => a.start < b.start
  genuine : ∀ e ∈ r.unassembled, r.firstIndex ≤ e.start → e.Genuine S r.edge
  written : r.firstIndex = r.output.writeCount
  inside : r.firstIndex ≤ S.length

section Push

variable {S : List UInt8} {r r' : StreamReassembler} {data : List UInt8} {index : Nat}

theorem Safe.new (S : List UInt8) (capacity : Nat) : Safe S (.new capacity) where
  sorted := List.Pairwise.nil
  genuine := by simp [StreamReassembler.new]
  written := rfl
  inside := Nat.zero_le _

/-- The window's edge in 64 bits, for a capacity that is one. -/
theorem Safe.maxAcindex (h : Safe S r) (capacity : r.output.capacity < word64) (short : S.length < word64) :
    (r.maxAcindex = r.edge ∧ r.firstIndex ≤ r.edge) ∨
      (r.maxAcindex + word64 = r.edge ∧ r.maxAcindex < r.firstIndex) := by
  have room := r.output.writeCount_add_remaining
  have counted := r.output.counted
  have written := h.written
  have inside := h.inside
  simp only [StreamReassembler.maxAcindex, edge, add64, word64] at *
  omega

theorem kept_slice {n last : Nat} (piece : data <+: S.drop index) (inside : index + data.length ≤ S.length)
    (reaches : r.firstIndex < index + data.length)
    (within : max r.firstIndex index + min n (data.length - (r.firstIndex - index)) ≤ r.edge) :
    (r.kept data index n last).entry.Slice S r.edge := by
  have size : (r.kept data index n last).entry.bytes.size = _ := size_kept n last
  have start : (r.kept data index n last).entry.start = max r.firstIndex index := rfl
  refine ⟨kept_pieceOf piece n last, ?_, ?_⟩
  · rw [size, start]
    omega
  · rw [size, start]
    exact within

/-- What is kept of a substring of `S` is let in. -/
theorem clip_letIn (h : Safe S r) (capacity : r.output.capacity < word64) (short : S.length < word64)
    (piece : data <+: S.drop index) (inside : index + data.length ≤ S.length) {p : Piece}
    (run : r.clip data index = some p) : LetIn S r.edge r.firstIndex p.entry := by
  have edge := h.maxAcindex capacity short
  have whole : index + data.length < word64 := Nat.lt_of_le_of_lt inside short
  by_cases none : data.length = 0
  · rw [clip, if_pos (Or.inr (Or.inr none))] at run
    cases run
  rcases Nat.lt_or_ge r.firstIndex (index + data.length) with reaches | old
  · have last : ∀ n last, (r.kept data index n last).entry.last = last := fun _ _ => rfl
    have start : ∀ n last, (r.kept data index n last).entry.start = max r.firstIndex index := fun _ _ => rfl
    have size : ∀ n last, (r.kept data index n last).entry.bytes.size = _ := size_kept
    rw [clip_eq whole none reaches] at run
    split at run
    · cases run
    split at run
    · cases run
      rcases edge with ⟨edge, room⟩ | ⟨edge, early⟩
      · -- cut at the edge
        rw [sub64_eq (by omega) (by omega), add64_eq (by omega), sub64_eq (by omega) (by omega)]
        refine Or.inl ⟨kept_slice piece inside reaches (by omega), ?_⟩
        rw [last, start, size]
        omega
      · -- the edge has wrapped: the substring is cut to the room left, its end index is the wrapped edge's
        have atFirst : max r.firstIndex index = r.firstIndex := by omega
        have cut : sub64 r.maxAcindex (max r.firstIndex index) = r.edge - r.firstIndex := by
          rw [atFirst]
          simp only [sub64, word64] at edge short ⊢
          omega
        rw [cut]
        refine Or.inr ⟨kept_slice piece inside reaches (by omega), atFirst, ?_⟩
        rw [last, atFirst]
        simp only [add64, sub64, word64] at edge short ⊢
        omega
    · cases run
      rcases edge with ⟨edge, -⟩ | ⟨edge, early⟩
      · refine Or.inl ⟨kept_slice piece inside reaches (by omega), ?_⟩
        rw [last, start, size]
        omega
      · omega
  · rw [clip_none whole old] at run
    cases run

/-- A push only appends to the output, and what it appends is the next part of `S`. -/
structure Advances (S : List UInt8) (r r' : StreamReassembler) : Prop where
  safe : Safe S r'
  readCount : r'.output.readCount = r.output.readCount
  capacity : r'.output.capacity = r.output.capacity
  appends : ∃ new, r'.output.pending = r.output.pending ++ new ∧ new <+: S.drop r.firstIndex ∧
    r'.firstIndex = r.firstIndex + new.length

theorem Advances.refl (h : Safe S r) : Advances S r r :=
  ⟨h, rfl, rfl, [], by simp, List.nil_prefix, rfl⟩

theorem Advances.grows (h : Advances S r r') : r.firstIndex ≤ r'.firstIndex := by
  obtain ⟨new, -, -, first⟩ := h.appends
  omega

theorem flush_advances (h : Safe S r) (short : S.length < word64) {c : Cursor} {bytes : Nat}
    (landed : Landed S r.edge r.firstIndex c) : Advances S r (r.flush c bytes) := by
  have sorted := landed.sorted
  unfold flush
  by_cases current : c.focus.start = r.firstIndex
  · rw [if_pos current]
    have slice := (landed.focus (Nat.le_of_eq current.symm)).slice
    have inside := slice.inside
    have within := slice.within
    have room := r.output.writeCount_add_remaining
    have written := h.written
    simp only [edge] at within
    have whole : r.output.writeLength c.focus.bytes.concatenate = c.focus.bytes.size := by
      rw [ByteStream.writeLength_of_le, BufferList.length_concatenate]
      rw [BufferList.length_concatenate]
      omega
    have next : add64 r.firstIndex c.focus.bytes.size = r.firstIndex + c.focus.bytes.size := add64_eq (by omega)
    refine ⟨⟨?_, fun e he later => ?_, ?_, ?_⟩, rfl, rfl, c.focus.bytes.concatenate, ?_, ?_, ?_⟩
    · rw [Cursor.entries] at sorted
      exact sorted.sublist (List.Sublist.append_left (List.sublist_cons_self _ _) _)
    · have later : r.firstIndex ≤ e.start := by
        simp only [next] at later
        omega
      rcases List.mem_append.1 he with he | he
      · exact landed.left e he later
      · exact landed.right e he later
    · simp only [ByteStream.write, whole, next]
      omega
    · simp only [next]
      omega
    · rw [ByteStream.pending_write, whole, ← BufferList.length_concatenate, List.take_length]
    · rw [← current]
      exact slice.piece
    · rw [BufferList.length_concatenate]
      exact next
  · rw [if_neg current]
    refine ⟨⟨sorted, fun e he later => ?_, h.written, h.inside⟩, rfl, rfl, [], by simp, List.nil_prefix, rfl⟩
    rcases List.mem_append.1 he with he | he
    · exact landed.left e he later
    · rcases List.mem_cons.1 he with rfl | he
      · -- only the entry at the first index may have a wrong end index
        rcases landed.focus later with genuine | ⟨-, same, -⟩
        · exact genuine
        · exact absurd same current
      · exact landed.right e he later

theorem accept_advances (h : Safe S r) (capacity : r.output.capacity < word64) (short : S.length < word64)
    (piece : data <+: S.drop index) (inside : index + data.length ≤ S.length)
    (run : r.accept data index = some r') : Advances S r r' := by
  unfold accept at run
  split at run
  · cases run
    exact .refl h
  · rename_i p clipped
    obtain ⟨⟨c, bytes⟩, stored, rfl⟩ := Option.map_eq_some_iff.1 run
    exact flush_advances h short
      (store_landed short h.sorted h.genuine (clip_letIn h capacity short piece inside clipped) stored)

/-- An empty substring is neither stored nor written. -/
theorem accept_nil (r : StreamReassembler) (index : Nat) : r.accept [] index = some r := by
  simp [accept, clip]

/-- Safety does not depend on what is known of the end of the input. -/
theorem Safe.of_same (h : Safe S r) (output : r'.output.writeCount = r.output.writeCount)
    (read : r'.output.readCount = r.output.readCount) (capacity : r'.output.capacity = r.output.capacity)
    (entries : r'.unassembled = r.unassembled) (first : r'.firstIndex = r.firstIndex) : Safe S r' := by
  have edge : r'.edge = r.edge := by simp only [StreamReassembler.edge, read, capacity]
  refine ⟨?_, ?_, ?_, ?_⟩
  · rw [entries]
    exact h.sorted
  · rw [entries, first, edge]
    exact h.genuine
  · rw [first, output]
    exact h.written
  · rw [first]
    exact h.inside

/-- **A push of a substring of `S`**, or of nothing: if it returns, the output has grown by the next part of `S`. -/
theorem push_advances (h : Safe S r) (capacity : r.output.capacity < word64) (short : S.length < word64) {eof : Bool}
    (slice : data = [] ∨ data <+: S.drop index ∧ index + data.length ≤ S.length)
    (run : r.pushSubstring? data index eof = some r') : Advances S r r' := by
  unfold pushSubstring? at run
  split at run
  · cases run
    exact .refl h
  · obtain ⟨mid, accepted, rfl⟩ := Option.map_eq_some_iff.1 run
    have noted : Safe S (r.noteEof data index eof) := by
      apply h.of_same <;> simp
    have advanced : Advances S (r.noteEof data index eof) mid := by
      rcases slice with rfl | ⟨piece, inside⟩
      · rw [accept_nil] at accepted
        cases accepted
        exact .refl noted
      · exact accept_advances noted (by simpa using capacity) short piece inside accepted
    obtain ⟨safe, read, cap, new, pending, piece, first⟩ := advanced
    simp only [noteEof_output, noteEof_firstIndex] at read cap pending piece first
    refine ⟨?_, by simpa using read, by simpa using cap, new, by simpa using pending, piece, by simpa using first⟩
    apply safe.of_same <;> simp

/-- More of the stream becomes known. -/
theorem Safe.mono {S' : List UInt8} (h : Safe S r) (more : S <+: S') : Safe S' r :=
  ⟨h.sorted, fun e he later => (h.genuine e he later).mono more (Nat.le_refl _), h.written,
    Nat.le_trans h.inside more.length_le⟩

/-- The reader takes bytes, which moves the edge. -/
theorem Safe.pop (h : Safe S r) (len : Nat) : Safe S (r.popOutput len) := by
  have further : r.edge ≤ (r.popOutput len).edge := by
    simp only [edge, popOutput, ByteStream.popOutput]
    omega
  exact ⟨h.sorted, fun e he later => (h.genuine e he later).mono (List.prefix_refl S) further, h.written, h.inside⟩

end Push

end StreamReassembler

end Sponge
