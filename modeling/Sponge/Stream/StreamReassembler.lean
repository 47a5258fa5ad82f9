import Sponge.Stream.ByteStream

/-!
# The stream reassembler (`stream_reassembler.hh`, `stream_reassembler.cc`)

`_unassembled` is a `std::map` from the first index of a stored substring to its
last index and its bytes: here a list of entries, read in key order. An iterator
is a position in that list, written as the entries on its left, the entry it
points at and the entries on its right.

`pushSubstring?` is the source function with its exceptions: it is `none` when
`BufferList::remove_prefix` throws, and when the function goes on to use an
iterator to the end of the map as if it pointed at an entry. The functions that
call it let the exception pass and are `none` as well.
-/

namespace Sponge

/-- A stored substring: `first` of the map's key, its inclusive end index and
its `BufferList`. -/
structure Entry where
  start : Nat
  last : Nat
  bytes : BufferList
  deriving DecidableEq, Repr

/-- An incoming substring once it is clipped to the window: `index_c`,
`length_c`, `end_index` and the bytes kept. -/
structure Piece where
  start : Nat
  length : Nat
  last : Nat
  bytes : BufferList
  deriving DecidableEq, Repr

/-- An iterator to a stored entry, with the entries before and after it. -/
structure Cursor where
  left : List Entry
  focus : Entry
  right : List Entry
  deriving DecidableEq, Repr

/-- `StreamReassembler`. -/
@[ext] structure StreamReassembler where
  output : ByteStream
  capacity : Nat
  unassembled : List Entry := []
  unassembledBytes : Nat := 0
  firstIndex : Nat := 0
  eofIndex : Nat := 0
  eof : Bool := false
  eofed : Bool := false
  deriving DecidableEq

/-- The map in key order. -/
def Cursor.entries (c : Cursor) : List Entry := c.left ++ c.focus :: c.right

namespace StreamReassembler

/-- `StreamReassembler(capacity)`. -/
def new (capacity : Nat) : StreamReassembler where
  output := .new capacity
  capacity := capacity

/-- `if (eof && not _eof) { ... }`. -/
def noteEof (r : StreamReassembler) (data : List UInt8) (index : Nat) (eof : Bool) : StreamReassembler :=
  if eof && !r.eof then { r with eof := true, eofIndex := add64 index data.length } else r

/-- `if (_eof && _first_index == _eof_index) { ... }`. -/
def endIfComplete (r : StreamReassembler) : StreamReassembler :=
  if r.eof && r.firstIndex == r.eofIndex then { r with output := r.output.endInput, eofed := true } else r

/-- `max_acindex`, the first index past the window. -/
def maxAcindex (r : StreamReassembler) : Nat := add64 r.firstIndex r.output.remainingCapacity

/-- The states, the early exit and the preprocessing: `none` when nothing of the
substring is in the window. -/
def clip (r : StreamReassembler) (data : List UInt8) (index : Nat) : Option Piece :=
  let endIndex := sub64 (add64 index data.length) 1
  if endIndex < r.firstIndex ∨ index ≥ r.maxAcindex ∨ data.length = 0 then none
  else
    let offset := if index < r.firstIndex then r.firstIndex - index else 0
    let indexC := if index < r.firstIndex then r.firstIndex else index
    let lengthC := if index < r.firstIndex then sub64 data.length offset else data.length
    if add64 indexC lengthC > r.maxAcindex then
      let lengthC := sub64 r.maxAcindex indexC
      some ⟨indexC, lengthC, sub64 (add64 indexC lengthC) 1, .ofString ((data.drop offset).take lengthC)⟩
    else some ⟨indexC, lengthC, endIndex, .ofString ((data.drop offset).take lengthC)⟩

/-- The entry the first block works on: one with the same start, or else the one
before `lower_bound`; `some none` when there is neither. The comparison
`index_c != it->first` is made also when `lower_bound` returned the end of the
map. The end node of the map holds the number of its elements where a node holds
its key; if that number is `index_c`, the block goes on with the end node. -/
def target (entries : List Entry) (indexC : Nat) : Option (Option Cursor) :=
  let before := entries.takeWhile (fun e => decide (e.start < indexC))
  match entries.dropWhile (fun e => decide (e.start < indexC)), before.getLast? with
  | e :: right, none => if e.start = indexC then some (some ⟨before, e, right⟩) else some none
  | e :: right, some pred =>
    if e.start = indexC then some (some ⟨before, e, right⟩) else some (some ⟨before.dropLast, pred, e :: right⟩)
  | [], some pred => if indexC = entries.length then none else some (some ⟨before.dropLast, pred, []⟩)
  | [], none => some none

/-- The loop over the entries after `insert`: the covered ones are erased, the
first one that reaches further is joined when it overlaps or is adjacent. -/
def absorb (focus : Entry) (bytes : Nat) : List Entry → Option (Entry × List Entry × Nat)
  | [] => some (focus, [], bytes)
  | e :: rest =>
    if e.last ≤ focus.last then absorb focus (sub64 bytes e.bytes.size) rest
    else if e.start ≤ add64 focus.last 1 then
      let olapLen := add64 (sub64 focus.last e.start) 1
      (e.bytes.removePrefix olapLen).map fun tail =>
        ({ focus with bytes := focus.bytes.append tail, last := e.last }, rest, sub64 bytes olapLen)
    else some (focus, e :: rest, bytes)

/-- `absorb` at a cursor. -/
def absorbAt (left : List Entry) (focus : Entry) (right : List Entry) (bytes : Nat) : Option (Cursor × Nat) :=
  (absorb focus bytes right).map fun (focus, right, bytes) => (⟨left, focus, right⟩, bytes)

/-- The map insertion of the new substring, then the loop. -/
def insertFresh (left : List Entry) (p : Piece) (right : List Entry) (bytes : Nat) : Option (Cursor × Nat) :=
  absorbAt left ⟨p.start, p.last, p.bytes⟩ right (add64 bytes p.bytes.size)

/-- From the search of the place to the end of the loop: the map, with `insert`
pointing at its focus, and `_unassembled_bytes`. -/
def store (entries : List Entry) (bytes : Nat) (p : Piece) : Option (Cursor × Nat) :=
  match target entries p.start with
  | none => none
  | some none => insertFresh [] p entries bytes
  | some (some c) =>
    if p.start ≤ add64 c.focus.last 1 then
      if p.length ≤ add64 (sub64 c.focus.last p.start) 1 then some (c, bytes)
      else
        (p.bytes.removePrefix (add64 (sub64 c.focus.last p.start) 1)).bind fun buf =>
          absorbAt c.left { c.focus with bytes := c.focus.bytes.append buf, last := p.last } c.right
            (add64 bytes buf.size)
    else if c.focus.start = p.start then
      -- the key is taken: `insert` returns the entry that holds it
      absorbAt c.left c.focus c.right (add64 bytes p.bytes.size)
    else insertFresh (c.left ++ [c.focus]) p c.right bytes

/-- `if (insert->first == _first_index) { ... }`: the substring at `insert` is
written out. -/
def flush (r : StreamReassembler) (c : Cursor) (bytes : Nat) : StreamReassembler :=
  if c.focus.start = r.firstIndex then
    { r with
      firstIndex := add64 r.firstIndex c.focus.bytes.size
      unassembledBytes := sub64 bytes c.focus.bytes.size
      output := r.output.write c.focus.bytes.concatenate
      unassembled := c.left ++ c.right }
  else { r with unassembledBytes := bytes, unassembled := c.entries }

/-- `push_substring` between its two updates of the end of input: the early
exit, or the clipped substring stored and written out as far as possible. -/
def accept (r : StreamReassembler) (data : List UInt8) (index : Nat) : Option StreamReassembler :=
  match r.clip data index with
  | none => some r
  | some p => (store r.unassembled r.unassembledBytes p).map fun (c, bytes) => r.flush c bytes

/-- `push_substring`, with its exceptions. The source ends the input in the same
way at the early exit and at its end. -/
def pushSubstring? (r : StreamReassembler) (data : List UInt8) (index : Nat) (eof : Bool) :
    Option StreamReassembler :=
  if r.eofed then some r else ((r.noteEof data index eof).accept data index).map endIfComplete

section Fields

variable (r : StreamReassembler) (data : List UInt8) (index : Nat) (eof : Bool)

@[simp] theorem noteEof_output : (r.noteEof data index eof).output = r.output := by
  unfold noteEof; split <;> rfl

@[simp] theorem noteEof_unassembled : (r.noteEof data index eof).unassembled = r.unassembled := by
  unfold noteEof; split <;> rfl

@[simp] theorem noteEof_unassembledBytes : (r.noteEof data index eof).unassembledBytes = r.unassembledBytes := by
  unfold noteEof; split <;> rfl

@[simp] theorem noteEof_firstIndex : (r.noteEof data index eof).firstIndex = r.firstIndex := by
  unfold noteEof; split <;> rfl

@[simp] theorem noteEof_eofed : (r.noteEof data index eof).eofed = r.eofed := by
  unfold noteEof; split <;> rfl

@[simp] theorem noteEof_eof : (r.noteEof data index eof).eof = (r.eof || eof) := by
  unfold noteEof; cases eof <;> cases h : r.eof <;> simp [h]

theorem noteEof_eofIndex : (r.noteEof data index eof).eofIndex =
    if eof && !r.eof then add64 index data.length else r.eofIndex := by
  unfold noteEof; split <;> rfl

@[simp] theorem endIfComplete_unassembled : r.endIfComplete.unassembled = r.unassembled := by
  unfold endIfComplete; split <;> rfl

@[simp] theorem endIfComplete_unassembledBytes : r.endIfComplete.unassembledBytes = r.unassembledBytes := by
  unfold endIfComplete; split <;> rfl

@[simp] theorem endIfComplete_firstIndex : r.endIfComplete.firstIndex = r.firstIndex := by
  unfold endIfComplete; split <;> rfl

@[simp] theorem endIfComplete_eof : r.endIfComplete.eof = r.eof := by
  unfold endIfComplete; split <;> rfl

@[simp] theorem endIfComplete_eofIndex : r.endIfComplete.eofIndex = r.eofIndex := by
  unfold endIfComplete; split <;> rfl

@[simp] theorem endIfComplete_eofed : r.endIfComplete.eofed = (r.eofed || (r.eof && r.firstIndex == r.eofIndex)) := by
  unfold endIfComplete; split <;> simp_all

@[simp] theorem endIfComplete_readCount : r.endIfComplete.output.readCount = r.output.readCount := by
  unfold endIfComplete; split <;> rfl

@[simp] theorem endIfComplete_writeCount : r.endIfComplete.output.writeCount = r.output.writeCount := by
  unfold endIfComplete; split <;> rfl

@[simp] theorem endIfComplete_capacity : r.endIfComplete.output.capacity = r.output.capacity := by
  unfold endIfComplete; split <;> rfl

@[simp] theorem endIfComplete_pending : r.endIfComplete.output.pending = r.output.pending := by
  unfold endIfComplete; split <;> rfl

@[simp] theorem endIfComplete_inputEnded : r.endIfComplete.output.inputEnded =
    (r.output.inputEnded || (r.eof && r.firstIndex == r.eofIndex)) := by
  unfold endIfComplete; split <;> simp_all [ByteStream.endInput]

theorem flush_eof (c : Cursor) (bytes : Nat) :
    (r.flush c bytes).eof = r.eof ∧ (r.flush c bytes).eofIndex = r.eofIndex ∧ (r.flush c bytes).eofed = r.eofed ∧
      (r.flush c bytes).output.inputEnded = r.output.inputEnded := by
  unfold flush
  split <;> exact ⟨rfl, rfl, rfl, rfl⟩

/-- Storing and writing out leave the end-of-input fields alone. -/
theorem accept_eof {r r' : StreamReassembler} {data : List UInt8} {index : Nat} (run : r.accept data index = some r') :
    r'.eof = r.eof ∧ r'.eofIndex = r.eofIndex ∧ r'.eofed = r.eofed ∧ r'.output.inputEnded = r.output.inputEnded := by
  unfold accept at run
  split at run
  · cases run
    exact ⟨rfl, rfl, rfl, rfl⟩
  · obtain ⟨⟨c, bytes⟩, _, rfl⟩ := Option.map_eq_some_iff.1 run
    exact flush_eof r c bytes

/-- The end-of-input fields after a push that is not ignored. -/
theorem pushSubstring?_eof {r r' : StreamReassembler} {data : List UInt8} {index : Nat} {eof : Bool}
    (run : r.pushSubstring? data index eof = some r') (more : r.eofed = false) :
    r'.eof = (r.eof || eof) ∧ r'.eofed = (r'.eof && r'.firstIndex == r'.eofIndex) ∧
      r'.output.inputEnded = (r.output.inputEnded || r'.eofed) := by
  rw [pushSubstring?, more] at run
  obtain ⟨mid, accepted, rfl⟩ := Option.map_eq_some_iff.1 run
  obtain ⟨eofEq, indexEq, eofedEq, endedEq⟩ := accept_eof accepted
  simp only [noteEof_eof, noteEof_eofed, noteEof_output] at eofEq eofedEq endedEq
  simp [eofEq, eofedEq, endedEq, more]

/-- The end index is noted once, with the first substring that is marked as the last. -/
theorem pushSubstring?_eofIndex {r r' : StreamReassembler} {data : List UInt8} {index : Nat} {eof : Bool}
    (run : r.pushSubstring? data index eof = some r') (more : r.eofed = false) :
    r'.eofIndex = if eof && !r.eof then add64 index data.length else r.eofIndex := by
  rw [pushSubstring?, more] at run
  obtain ⟨mid, accepted, rfl⟩ := Option.map_eq_some_iff.1 run
  rw [endIfComplete_eofIndex, (accept_eof accepted).2.1, noteEof_eofIndex]

theorem flush_error (c : Cursor) (bytes : Nat) : (r.flush c bytes).output.error = r.output.error := by
  unfold flush
  split <;> rfl

theorem pushSubstring?_error {r r' : StreamReassembler} {data : List UInt8} {index : Nat} {eof : Bool}
    (run : r.pushSubstring? data index eof = some r') : r'.output.error = r.output.error := by
  have accepted : ∀ {r r' : StreamReassembler}, r.accept data index = some r' → r'.output.error = r.output.error := by
    intro r r' run
    unfold accept at run
    split at run
    · cases run
      rfl
    · obtain ⟨⟨c, bytes⟩, _, rfl⟩ := Option.map_eq_some_iff.1 run
      exact flush_error r c bytes
  unfold pushSubstring? at run
  split at run
  · cases run
    rfl
  · obtain ⟨mid, step, rfl⟩ := Option.map_eq_some_iff.1 run
    rw [← noteEof_output r data index eof, ← accepted step]
    unfold endIfComplete
    split <;> rfl

end Fields

/-- `first_unassembled`. -/
def firstUnassembled (r : StreamReassembler) : Nat := r.firstIndex

/-- `empty`. -/
def empty (r : StreamReassembler) : Bool := r.unassembledBytes == 0

/-- `stream_out().pop_output`, the reader's side of `read`. -/
def popOutput (r : StreamReassembler) (len : Nat) : StreamReassembler :=
  { r with output := r.output.popOutput len }

end StreamReassembler

end Sponge
