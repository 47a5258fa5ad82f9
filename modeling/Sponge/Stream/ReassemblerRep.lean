import Sponge.Stream.ReassemblerStore

/-!
# The representation invariant of the reassembler

`Rep r` says that the map is a separated list of well-formed entries between the
first unassembled index and the window's edge and that the two counters agree
with the stream and the map. `accept_spec` is the one statement about
`push_substring` the rest uses: from `Rep`, when no index passes `2 ^ 64`, the
function returns, and the positions it holds are the old ones and those of the
substring that lie in the window.
-/

namespace Sponge

namespace StreamReassembler

/-- The window's edge: the bytes read plus the capacity. -/
def edge (r : StreamReassembler) : Nat := r.output.readCount + r.output.capacity

/-- The positions held: assembled or stored. -/
def held (r : StreamReassembler) : Set Nat := {p | p < r.firstIndex} ∪ covered (runs r.unassembled)

/-- Every stored entry is a piece of `S`. -/
def PiecesOf (r : StreamReassembler) (S : List UInt8) : Prop := ∀ e ∈ r.unassembled, e.PieceOf S

/-- The representation invariant. -/
structure Rep (r : StreamReassembler) : Prop where
  written : r.firstIndex = r.output.writeCount
  wf : ∀ e ∈ r.unassembled, e.WF r.edge
  separated : Separated (runs r.unassembled)
  after : ∀ e ∈ r.unassembled, r.firstIndex < e.start
  counter : r.unassembledBytes = stored r.unassembled

theorem mem_held {r : StreamReassembler} {p : Nat} :
    p ∈ r.held ↔ p < r.firstIndex ∨ p ∈ covered (runs r.unassembled) := Iff.rfl

theorem Rep.maxAcindex {r : StreamReassembler} (rep : r.Rep) (fits : r.edge < word64) : r.maxAcindex = r.edge := by
  have room := r.output.writeCount_add_remaining
  rw [StreamReassembler.maxAcindex, rep.written, add64_eq (by rw [room]; exact fits), room]
  rfl

theorem Rep.firstIndex_le {r : StreamReassembler} (rep : r.Rep) : r.firstIndex ≤ r.edge := by
  have room := r.output.writeCount_add_remaining
  rw [rep.written]
  simp only [edge]
  omega

/-- Separated entries past `first` and below `edge` hold few bytes. -/
theorem stored_le {entries : List Entry} {first limit : Nat} (room : first ≤ limit) (wf : ∀ e ∈ entries, e.WF limit)
    (separated : Separated (runs entries)) (after : ∀ e ∈ entries, first ≤ e.start) :
    first + stored entries ≤ limit := by
  induction entries generalizing first with
  | nil => simpa using room
  | cons e entries ih =>
    obtain ⟨gap, separated⟩ := separated_runs_cons.1 separated
    have here := after e List.mem_cons_self
    have rest := ih (wf e List.mem_cons_self).within (fun o ho => wf o (List.mem_cons_of_mem _ ho)) separated
      (fun o ho => Nat.le_of_lt (gap o ho))
    simp only [stored_cons]
    omega

/-- The positions of the substring that the window lets in. -/
def InWindow (r : StreamReassembler) (data : List UInt8) (index p : Nat) : Prop :=
  index ≤ p ∧ p < index + data.length ∧ p < r.edge

/-! ### The clipped substring -/

/-- `n` bytes of a substring, from the first unassembled index on. -/
def kept (r : StreamReassembler) (data : List UInt8) (index n last : Nat) : Piece :=
  ⟨max r.firstIndex index, n, last, .ofString ((data.drop (r.firstIndex - index)).take n)⟩

section Clip

variable {r : StreamReassembler} {data : List UInt8} {index : Nat}

theorem clip_none (whole : index + data.length < word64) (old : index + data.length ≤ r.firstIndex) :
    r.clip data index = none := by
  rw [clip]
  refine if_pos ?_
  by_cases none : data.length = 0
  · exact Or.inr (Or.inr none)
  · rw [add64_eq whole, sub64_eq (by omega) (by omega)]
    exact Or.inl (by omega)

/-- A substring that reaches past the assembled bytes, with the clipped start and length as differences. -/
theorem clip_eq (whole : index + data.length < word64) (nonempty : data.length ≠ 0)
    (reaches : r.firstIndex < index + data.length) : r.clip data index =
      if r.maxAcindex ≤ index then none
      else if r.maxAcindex < index + data.length then
        some (r.kept data index (sub64 r.maxAcindex (max r.firstIndex index))
          (sub64 (add64 (max r.firstIndex index) (sub64 r.maxAcindex (max r.firstIndex index))) 1))
      else some (r.kept data index (data.length - (r.firstIndex - index)) (index + data.length - 1)) := by
  have offset : (if index < r.firstIndex then r.firstIndex - index else 0) = r.firstIndex - index := by
    split <;> omega
  have start : (if index < r.firstIndex then r.firstIndex else index) = max r.firstIndex index := by
    split <;> omega
  have length : (if index < r.firstIndex then sub64 data.length (r.firstIndex - index) else data.length) =
      data.length - (r.firstIndex - index) := by
    split
    · rw [sub64_eq (by omega) (by omega)]
    · omega
  have ends : add64 (max r.firstIndex index) (data.length - (r.firstIndex - index)) = index + data.length := by
    rw [add64_eq (by omega)]
    omega
  have exit : (index + data.length - 1 < r.firstIndex ∨ index ≥ r.maxAcindex ∨ data.length = 0) ↔ r.maxAcindex ≤ index := by
    omega
  simp only [clip]
  rw [add64_eq whole, sub64_eq (by omega) (by omega), offset, start, length, ends, if_congr exit rfl rfl]
  rfl

theorem size_kept (n last : Nat) : (r.kept data index n last).bytes.size = min n (data.length - (r.firstIndex - index)) := by
  rw [kept, BufferList.size_ofString, List.length_take, List.length_drop]

theorem kept_pieceOf {S : List UInt8} (piece : data <+: S.drop index) (n last : Nat) :
    (r.kept data index n last).entry.PieceOf S := by
  rw [Entry.PieceOf, kept, Piece.entry, BufferList.concatenate_ofString,
    show max r.firstIndex index = index + (r.firstIndex - index) by omega]
  exact (List.take_prefix _ _).trans (piece_drop piece _)

end Clip

/-- With the window closed, an old substring that reaches past the assembled
bytes passes the early exit and is clipped to nothing. -/
theorem clip_closed {r : StreamReassembler} (rep : r.Rep) (fits : r.edge < word64) (closed : r.firstIndex = r.edge)
    {data : List UInt8} {index : Nat} (indexFits : index + data.length < word64 ∨ r.edge ≤ index) :
    r.clip data index = none ∨ ∃ last, r.clip data index = some ⟨r.firstIndex, 0, last, .ofString []⟩ := by
  have edge := rep.maxAcindex fits
  by_cases beyond : r.edge ≤ index
  · rw [clip, if_pos (Or.inr (Or.inl (edge ▸ beyond)))]
    exact Or.inl rfl
  have whole : index + data.length < word64 := indexFits.resolve_right beyond
  rcases Nat.lt_or_ge r.firstIndex (index + data.length) with reaches | old
  · refine Or.inr ⟨sub64 r.firstIndex 1, ?_⟩
    have start : max r.firstIndex index = r.firstIndex := by omega
    rw [clip_eq whole (by omega) reaches, edge, if_neg beyond, if_pos (by omega), kept, start, ← closed,
      sub64_eq (Nat.le_refl _) (by omega), Nat.sub_self, add64_eq (by omega)]
    rfl
  · exact Or.inl (clip_none whole old)

/-- What is kept up to the end of the substring or to the edge. -/
theorem kept_spec {r : StreamReassembler} {data : List UInt8} {index n last : Nat} (positive : 0 < n)
    (reach : max r.firstIndex index + n = min (index + data.length) r.edge)
    (lastEq : last + 1 = max r.firstIndex index + n) :
    let p := r.kept data index n last
    p.entry.WF r.edge ∧ p.length = p.bytes.size ∧ r.firstIndex ≤ p.start ∧
      (∀ q, r.InWindow data index q ∧ r.firstIndex ≤ q ↔ p.start ≤ q ∧ q < p.start + p.bytes.size) ∧
      ∀ S, data <+: S.drop index → p.entry.PieceOf S := by
  intro p
  have size : p.bytes.size = n := by
    rw [size_kept]
    omega
  have size' : p.entry.bytes.size = n := size
  have start : p.start = max r.firstIndex index := rfl
  have start' : p.entry.start = max r.firstIndex index := rfl
  have ends : p.entry.last = last := rfl
  refine ⟨⟨?_, ?_, ?_⟩, size.symm, Nat.le_max_left _ _, fun q => ?_, fun S piece => kept_pieceOf piece n last⟩
  · rw [size']
    exact positive
  · rw [size', start', ends]
    omega
  · rw [size', start']
    omega
  · rw [size, start]
    simp only [InWindow]
    omega

/-- The clipped substring covers what the window lets in and is not assembled. -/
theorem clip_spec {r : StreamReassembler} (rep : r.Rep) (fits : r.edge < word64) (room : r.firstIndex < r.edge)
    {data : List UInt8} {index : Nat} (indexFits : index + data.length < word64 ∨ r.edge ≤ index) :
    (r.clip data index = none ∧ ∀ p, r.InWindow data index p → p < r.firstIndex) ∨
    ∃ p, r.clip data index = some p ∧ p.entry.WF r.edge ∧ p.length = p.bytes.size ∧ r.firstIndex ≤ p.start ∧
      (∀ q, r.InWindow data index q ∧ r.firstIndex ≤ q ↔ p.start ≤ q ∧ q < p.start + p.bytes.size) ∧
      ∀ S, data <+: S.drop index → p.entry.PieceOf S := by
  have edge := rep.maxAcindex fits
  by_cases beyond : r.edge ≤ index
  · refine Or.inl ⟨by rw [clip, if_pos (Or.inr (Or.inl (edge ▸ beyond)))], fun p h => ?_⟩
    have := h.1
    have := h.2.2
    omega
  have whole : index + data.length < word64 := indexFits.resolve_right beyond
  rcases Nat.lt_or_ge r.firstIndex (index + data.length) with reaches | old
  · by_cases none : data.length = 0
    · refine Or.inl ⟨by rw [clip, if_pos (Or.inr (Or.inr none))], fun p h => ?_⟩
      have := h.1
      have := h.2.1
      omega
    rw [clip_eq whole none reaches, edge, if_neg beyond]
    refine Or.inr ?_
    split
    · rw [sub64_eq (by omega) fits, add64_eq (by omega), sub64_eq (by omega) (by omega)]
      exact ⟨_, rfl, kept_spec (by omega) (by omega) (by omega)⟩
    · exact ⟨_, rfl, kept_spec (by omega) (by omega) (by omega)⟩
  · refine Or.inl ⟨clip_none whole old, fun p h => ?_⟩
    have := h.2.1
    omega

/-- What `accept` does to the reassembler `r`. -/
structure Accepted (r : StreamReassembler) (data : List UInt8) (index : Nat) (r' : StreamReassembler) : Prop where
  rep : r'.Rep
  reads : r'.output.readCount = r.output.readCount
  capacity : r'.output.capacity = r.output.capacity
  ended : r'.output.inputEnded = r.output.inputEnded
  eof : r'.eof = r.eof ∧ r'.eofIndex = r.eofIndex ∧ r'.eofed = r.eofed
  held : ∀ p, p ∈ r'.held ↔ p ∈ r.held ∨ r.InWindow data index p
  stream : ∀ S, data <+: S.drop index → r.PiecesOf S → r'.PiecesOf S ∧
    ∃ new, r'.output.pending = r.output.pending ++ new ∧ new <+: S.drop r.firstIndex ∧
      r'.firstIndex = r.firstIndex + new.length

/-- Nothing to do: the window's part of the substring is assembled already. -/
theorem Accepted.same {r : StreamReassembler} (rep : r.Rep) {data : List UInt8} {index : Nat}
    (old : ∀ p, r.InWindow data index p → p < r.firstIndex) : Accepted r data index r where
  rep := rep
  reads := rfl
  capacity := rfl
  ended := rfl
  eof := ⟨rfl, rfl, rfl⟩
  held := fun p => ⟨Or.inl, fun h => h.elim id fun h => Or.inl (old p h)⟩
  stream := fun S _ pieces => ⟨pieces, [], by simp, List.nil_prefix, rfl⟩

section First

variable {r : StreamReassembler} {data : List UInt8} {index bytes : Nat} {p : Piece} {c : Cursor}
  (post : Stored r.edge r.unassembled p.entry r.unassembledBytes c bytes)

include post

/-- Nothing is stored before an entry at the first unassembled index. -/
theorem left_eq_nil (rep : r.Rep) (lower : r.firstIndex ≤ p.start) (first : c.focus.start = r.firstIndex) : c.left = [] := by
  obtain ⟨_, _, apart⟩ := separated_runs_append.1 post.separated
  refine List.eq_nil_iff_forall_not_mem.2 fun e he => ?_
  have ends := apart e he c.focus List.mem_cons_self
  rcases post.starts e (List.mem_append_left _ he) with same | ⟨o, ho, same⟩
  · simp only [Piece.entry] at same
    omega
  · have := rep.after o ho
    omega

/-- The positions held once that entry is written out. -/
theorem held_first (noLeft : c.left = [])
    (window : ∀ q, r.InWindow data index q ∧ r.firstIndex ≤ q ↔ p.start ≤ q ∧ q < p.start + p.bytes.size)
    (first : c.focus.start = r.firstIndex) (q : Nat) :
    q < r.firstIndex + c.focus.bytes.size ∨ q ∈ covered (runs c.right) ↔ q ∈ r.held ∨ r.InWindow data index q := by
  have covers := post.covers q
  simp only [Cursor.entries, noLeft, List.nil_append, runs_cons, mem_covered_cons, run_start, run_size, first,
    Piece.entry] at covers
  rw [mem_held]
  have inside := window q
  by_cases below : q < r.firstIndex
  · exact ⟨fun _ => Or.inl (Or.inl below), fun _ => Or.inl (by omega)⟩
  · have same : (q < r.firstIndex + c.focus.bytes.size ∨ q ∈ covered (runs c.right)) ↔
        q ∈ covered (runs r.unassembled) ∨ r.InWindow data index q := by
      rw [← and_iff_left (a := r.InWindow data index q) (Nat.le_of_not_lt below), inside, ← covers]
      exact or_congr ⟨fun h => ⟨Nat.le_of_not_lt below, h⟩, fun h => h.2⟩ Iff.rfl
    rw [same]
    exact or_congr ⟨Or.inr, fun h => h.resolve_left below⟩ Iff.rfl

end First

/-- The entry at the first unassembled index is written out. -/
theorem flush_first {r : StreamReassembler} (rep : r.Rep) (fits : r.edge < word64) {data : List UInt8} {index : Nat}
    {p : Piece} {c : Cursor} {bytes : Nat} (post : Stored r.edge r.unassembled p.entry r.unassembledBytes c bytes)
    (lower : r.firstIndex ≤ p.start)
    (window : ∀ q, r.InWindow data index q ∧ r.firstIndex ≤ q ↔ p.start ≤ q ∧ q < p.start + p.bytes.size)
    (piece : ∀ S, data <+: S.drop index → p.entry.PieceOf S) (first : c.focus.start = r.firstIndex) :
    Accepted r data index (r.flush c bytes) := by
  obtain ⟨wfLeft, wff, wfRight⟩ := forall_mem_split.1 post.wf
  obtain ⟨_, sepFocus, _⟩ := separated_runs_append.1 post.separated
  obtain ⟨gap, sepRight⟩ := separated_runs_cons.1 sepFocus
  have noLeft := left_eq_nil post rep lower first
  have within := wff.within
  have room := r.output.writeCount_add_remaining
  have written := rep.written
  simp only [edge] at within fits
  have accepted : r.output.writeLength c.focus.bytes.concatenate = c.focus.bytes.size := by
    rw [ByteStream.writeLength_of_le, BufferList.length_concatenate]
    rw [BufferList.length_concatenate]
    omega
  have firstEq : add64 r.firstIndex c.focus.bytes.size = r.firstIndex + c.focus.bytes.size := add64_eq (by omega)
  have count := post.counter (by
    rw [← rep.counter, Nat.mod_eq_of_lt]
    have := stored_le rep.firstIndex_le rep.wf rep.separated (fun e he => Nat.le_of_lt (rep.after e he))
    simp only [edge] at this
    rw [rep.counter]
    omega)
  have within : r.firstIndex + c.focus.bytes.size ≤ r.edge := by rw [← first]; exact wff.within
  have countRight := stored_le within wfRight sepRight (fun o ho => by have := gap o ho; omega)
  have whole : stored c.entries = stored c.right + c.focus.bytes.size := by
    simp only [Cursor.entries, noLeft, List.nil_append, stored_cons]
    omega
  rw [flush, if_pos first, noLeft, List.nil_append]
  refine ⟨⟨?_, wfRight, sepRight, ?_, ?_⟩, rfl, rfl, rfl, ⟨rfl, rfl, rfl⟩, ?_, ?_⟩
  · simp only [ByteStream.write, accepted]
    rw [firstEq, written]
  · intro o ho
    have := gap o ho
    simp only [firstEq]
    omega
  · simp only
    rw [count, whole, sub64_mod, Nat.mod_eq_of_lt]
    simp only [edge] at countRight
    omega
  · intro q
    rw [mem_held, firstEq]
    exact held_first post noLeft window first q
  · intro S data pieces
    obtain ⟨_, pFocus, pRight⟩ := forall_mem_split.1 (post.piece S (piece S data) pieces)
    refine ⟨pRight, c.focus.bytes.concatenate, ?_, ?_, ?_⟩
    · simp only [ByteStream.pending_write, accepted]
      rw [List.take_of_length_le (by rw [BufferList.length_concatenate])]
    · rw [← first]
      exact pFocus
    · simp only [firstEq, BufferList.length_concatenate]

/-- The new map starts after the first unassembled index: nothing is written. -/
theorem flush_later {r : StreamReassembler} (rep : r.Rep) (fits : r.edge < word64) {data : List UInt8} {index : Nat}
    {p : Piece} {c : Cursor} {bytes : Nat} (post : Stored r.edge r.unassembled p.entry r.unassembledBytes c bytes)
    (lower : r.firstIndex ≤ p.start)
    (window : ∀ q, r.InWindow data index q ∧ r.firstIndex ≤ q ↔ p.start ≤ q ∧ q < p.start + p.bytes.size)
    (piece : ∀ S, data <+: S.drop index → p.entry.PieceOf S) (later : c.focus.start ≠ r.firstIndex) :
    Accepted r data index (r.flush c bytes) := by
  have startOf : ∀ e ∈ c.entries, e.start = p.start ∨ r.firstIndex < e.start := by
    intro e he
    rcases post.starts e he with same | ⟨o, ho, same⟩
    · exact Or.inl same
    · exact Or.inr (same ▸ rep.after o ho)
  have focusIn : c.focus ∈ c.entries := by simp [Cursor.entries]
  have holds := post.holds
  simp only [Piece.entry] at holds
  have past : r.firstIndex < p.start := by
    rcases startOf c.focus focusIn with same | after <;> omega
  have after : ∀ e ∈ c.entries, r.firstIndex < e.start := by
    intro e he
    rcases startOf e he with same | after <;> omega
  have small := stored_le rep.firstIndex_le post.wf post.separated (fun e he => Nat.le_of_lt (after e he))
  have smallOld := stored_le rep.firstIndex_le rep.wf rep.separated (fun e he => Nat.le_of_lt (rep.after e he))
  have count := post.counter (by rw [Nat.mod_eq_of_lt (by omega), rep.counter])
  rw [Nat.mod_eq_of_lt (by omega)] at count
  rw [flush, if_neg later]
  refine ⟨⟨rep.written, post.wf, post.separated, after, count⟩, rfl, rfl, rfl, ⟨rfl, rfl, rfl⟩, ?_, ?_⟩
  · intro q
    simp only [mem_held]
    rw [post.covers, or_assoc]
    have inside := window q
    by_cases below : q < r.firstIndex
    · exact ⟨fun _ => Or.inl below, fun _ => Or.inl below⟩
    · rw [← and_iff_left (a := r.InWindow data index q) (Nat.le_of_not_lt below), inside]
      rfl
  · exact fun S data pieces => ⟨post.piece S (piece S data) pieces, [], by simp, List.nil_prefix, rfl⟩

/-- In an empty map the substring becomes the only entry. -/
theorem store_nil (bytes : Nat) (p : Piece) :
    store [] bytes p = some (⟨[], p.entry, []⟩, add64 bytes p.bytes.size) := rfl

/-- **`push_substring` on a well-formed reassembler** returns, and holds the old
positions and those of the substring inside the window. -/
theorem accept_spec {r : StreamReassembler} (rep : r.Rep) (fits : r.edge < word64) (data : List UInt8) (index : Nat)
    (indexFits : index + data.length < word64 ∨ r.edge ≤ index) :
    ∃ r', r.accept data index = some r' ∧ Accepted r data index r' := by
  rcases Nat.lt_or_eq_of_le rep.firstIndex_le with room | closed
  · rcases clip_spec rep fits room indexFits with ⟨none, old⟩ | ⟨p, some, wf, length, lower, window, piece⟩
    · exact ⟨r, by rw [accept, none], .same rep old⟩
    · obtain ⟨c, bytes, run, post⟩ := store_spec fits r.unassembledBytes rep.wf rep.separated wf length rep.after
      refine ⟨r.flush c bytes, by simp only [accept, some, run, Option.map_some], ?_⟩
      by_cases first : c.focus.start = r.firstIndex
      · exact flush_first rep fits post lower window piece first
      · exact flush_later rep fits post lower window piece first
  · -- a closed window: the map is empty, and at most an empty entry goes through it
    have empty : r.unassembled = [] := by
      refine List.eq_nil_iff_forall_not_mem.2 fun e he => ?_
      have after := rep.after e he
      have within := (rep.wf e he).within
      omega
    have old : ∀ p, r.InWindow data index p → p < r.firstIndex := fun p h => by rw [closed]; exact h.2.2
    refine ⟨r, ?_, .same rep old⟩
    rcases clip_closed rep fits closed indexFits with none | ⟨last, some⟩
    · rw [accept, none]
    · have zero : r.unassembledBytes = 0 := by rw [rep.counter, empty, stored_nil]
      simp only [accept, some, empty, store_nil, Option.map_some, Option.some.injEq]
      simp only [flush, Piece.entry, if_true, BufferList.size_ofString, BufferList.concatenate_ofString,
        List.length_nil, ByteStream.write_nil, List.append_nil, zero]
      have first : add64 r.firstIndex 0 = r.firstIndex := add64_eq (by omega)
      have none : sub64 (add64 0 0) 0 = 0 := rfl
      rw [first, none]
      exact StreamReassembler.ext rfl rfl empty.symm zero.symm rfl rfl rfl rfl

end StreamReassembler

end Sponge
