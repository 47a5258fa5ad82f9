import Sponge.Stream.ReassemblerSafety

/-!
# The reassembler does not look at the bytes

Every decision of `push_substring` is made on indices and lengths. So replacing
all bytes, stored and arriving, by zeros changes nothing but the bytes themselves
(`pushSubstring?_blank`). Of a stream of zeros every substring is a piece, whatever
was sent: what `ReassemblerSafety` says of the segments of one stream then holds
for arbitrary segments, as far as it speaks of counts (`Counts`).
-/

namespace Sponge

/-- As many zeros. -/
def blank (bytes : List UInt8) : List UInt8 := bytes.map fun _ => 0

@[simp] theorem length_blank (bytes : List UInt8) : (blank bytes).length = bytes.length := List.length_map _

theorem blank_drop (n : Nat) (bytes : List UInt8) : (blank bytes).drop n = blank (bytes.drop n) := (List.map_drop).symm

theorem blank_take (n : Nat) (bytes : List UInt8) : (blank bytes).take n = blank (bytes.take n) := (List.map_take).symm

theorem blank_eq (bytes : List UInt8) : blank bytes = List.replicate bytes.length 0 := List.map_const'

namespace BufferList

def blank (l : BufferList) : BufferList := ⟨l.buffers.map Sponge.blank⟩

@[simp] theorem size_blank (l : BufferList) : l.blank.size = l.size := by
  simp [size, blank, Function.comp_def]

theorem blank_append (l other : BufferList) : l.blank.append other.blank = (l.append other).blank := by
  simp [append, blank]

theorem blank_ofString (str : List UInt8) : ofString (Sponge.blank str) = (ofString str).blank := rfl

theorem concatenate_blank (l : BufferList) : l.blank.concatenate = Sponge.blank l.concatenate := by
  simp only [concatenate, blank, Sponge.blank, List.map_flatten]
  rfl

theorem dropBytes_blank (bs : List Buffer) (n : Nat) :
    dropBytes (bs.map Sponge.blank) n = (dropBytes bs n).map (List.map Sponge.blank) := by
  induction bs generalizing n with
  | nil => cases n <;> rfl
  | cons b bs ih =>
    cases n with
    | zero => rfl
    | succ n =>
      simp only [List.map_cons, dropBytes, length_blank]
      split
      · simp [blank_drop]
      · exact ih _

theorem removePrefix_blank (l : BufferList) (n : Nat) : l.blank.removePrefix n = (l.removePrefix n).map blank := by
  simp only [removePrefix, blank, dropBytes_blank, Option.map_map]
  rfl

end BufferList

namespace ByteStream

def blank (s : ByteStream) : ByteStream :=
  { s with
    buffer := s.buffer.blank
    fits := by rw [BufferList.size_blank]; exact s.fits
    counted := by rw [BufferList.size_blank]; exact s.counted }

theorem remainingCapacity_blank (s : ByteStream) : s.blank.remainingCapacity = s.remainingCapacity := by
  simp [remainingCapacity, blank]

theorem write_blank (s : ByteStream) (data : List UInt8) : s.blank.write (Sponge.blank data) = (s.write data).blank := by
  have length : s.blank.writeLength (Sponge.blank data) = s.writeLength data := by
    rw [writeLength, writeLength, length_blank, remainingCapacity_blank]
  have buffer : s.blank.writeBuffer (Sponge.blank data) = (s.writeBuffer data).blank := by
    rw [writeBuffer, writeBuffer, length_blank, length, blank_take, BufferList.blank_ofString]
    split
    · exact BufferList.blank_append _ _
    · rfl
  simp only [write, buffer, length]
  rfl

theorem popOutput_blank (s : ByteStream) (len : Nat) : s.blank.popOutput len = (s.popOutput len).blank := by
  have buffer : s.blank.buffer.dropPrefix (min s.blank.buffer.size len) =
      (s.buffer.dropPrefix (min s.buffer.size len)).blank := by
    show s.buffer.blank.dropPrefix (min s.buffer.blank.size len) = _
    rw [BufferList.size_blank, BufferList.dropPrefix, BufferList.removePrefix_blank, BufferList.dropPrefix]
    cases s.buffer.removePrefix (min s.buffer.size len) <;> rfl
  simp only [popOutput, buffer]
  simp only [blank, BufferList.size_blank]

end ByteStream

def Entry.blank (e : Entry) : Entry := { e with bytes := e.bytes.blank }

def Piece.blank (p : Piece) : Piece := { p with bytes := p.bytes.blank }

def Cursor.blank (c : Cursor) : Cursor := ⟨c.left.map Entry.blank, c.focus.blank, c.right.map Entry.blank⟩

namespace StreamReassembler

def blank (r : StreamReassembler) : StreamReassembler :=
  { r with output := r.output.blank, unassembled := r.unassembled.map Entry.blank }

theorem maxAcindex_blank (r : StreamReassembler) : r.blank.maxAcindex = r.maxAcindex := by
  simp only [maxAcindex, blank, ByteStream.remainingCapacity_blank]

theorem clip_blank (r : StreamReassembler) (data : List UInt8) (index : Nat) :
    r.blank.clip (Sponge.blank data) index = (r.clip data index).map Piece.blank := by
  simp only [clip, length_blank, maxAcindex_blank, blank_drop, blank_take, BufferList.blank_ofString]
  rw [show r.blank.firstIndex = r.firstIndex from rfl]
  split
  · rfl
  · split <;> split <;> rfl

theorem target_blank (entries : List Entry) (indexC : Nat) :
    target (entries.map Entry.blank) indexC = (target entries indexC).map (Option.map Cursor.blank) := by
  have test : (fun e : Entry => decide (e.start < indexC)) ∘ Entry.blank = fun e => decide (e.start < indexC) := rfl
  simp only [target, List.takeWhile_map, List.dropWhile_map, test, List.getLast?_map, List.length_map]
  cases entries.dropWhile (fun e => decide (e.start < indexC)) with
  | nil =>
    cases (entries.takeWhile fun e => decide (e.start < indexC)).getLast? with
    | none => rfl
    | some pred =>
      simp only [List.map_nil, Option.map_some]
      split
      · rfl
      · simp [Cursor.blank, List.map_dropLast]
  | cons e right =>
    cases (entries.takeWhile fun e => decide (e.start < indexC)).getLast? with
    | none =>
      simp only [List.map_cons, Option.map_none]
      rw [show e.blank.start = e.start from rfl]
      split <;> rfl
    | some pred =>
      simp only [List.map_cons, Option.map_some]
      rw [show e.blank.start = e.start from rfl]
      split
      · rfl
      · simp [Cursor.blank, List.map_dropLast]

theorem absorb_blank (focus : Entry) (bytes : Nat) (rest : List Entry) :
    absorb focus.blank bytes (rest.map Entry.blank) =
      (absorb focus bytes rest).map fun (focus, rest, bytes) => (focus.blank, rest.map Entry.blank, bytes) := by
  induction rest generalizing bytes with
  | nil => rfl
  | cons e rest ih =>
    have size : e.blank.bytes.size = e.bytes.size := BufferList.size_blank _
    have removed : ∀ n, e.blank.bytes.removePrefix n = (e.bytes.removePrefix n).map BufferList.blank :=
      BufferList.removePrefix_blank _
    simp only [List.map_cons, absorb, size, removed]
    rw [show e.blank.last = e.last from rfl, show e.blank.start = e.start from rfl,
      show focus.blank.last = focus.last from rfl]
    split
    · exact ih _
    · split
      · cases e.bytes.removePrefix (add64 (sub64 focus.last e.start) 1) with
        | none => rfl
        | some tail => simp [Entry.blank, BufferList.blank_append]
      · rfl

theorem absorbAt_blank (left : List Entry) (focus : Entry) (right : List Entry) (bytes : Nat) :
    absorbAt (left.map Entry.blank) focus.blank (right.map Entry.blank) bytes =
      (absorbAt left focus right bytes).map fun (c, bytes) => (c.blank, bytes) := by
  rw [absorbAt, absorbAt, absorb_blank, Option.map_map, Option.map_map]
  rfl

theorem insertFresh_blank (left : List Entry) (p : Piece) (right : List Entry) (bytes : Nat) :
    insertFresh (left.map Entry.blank) p.blank (right.map Entry.blank) bytes =
      (insertFresh left p right bytes).map fun (c, bytes) => (c.blank, bytes) := by
  rw [insertFresh, insertFresh, ← absorbAt_blank]
  rw [show p.blank.bytes.size = p.bytes.size from BufferList.size_blank _]
  rfl

theorem store_blank (entries : List Entry) (bytes : Nat) (p : Piece) :
    store (entries.map Entry.blank) bytes p.blank =
      (store entries bytes p).map fun (c, bytes) => (c.blank, bytes) := by
  simp only [store]
  rw [show p.blank.start = p.start from rfl, show p.blank.length = p.length from rfl,
    show p.blank.last = p.last from rfl, show p.blank.bytes = p.bytes.blank from rfl, target_blank]
  cases target entries p.start with
  | none => rfl
  | some found =>
    cases found with
    | none => exact insertFresh_blank [] p entries bytes
    | some c =>
      simp only [Option.map_some]
      rw [show c.blank.focus.last = c.focus.last from rfl, show c.blank.focus.start = c.focus.start from rfl]
      split
      · split
        · rfl
        · rw [BufferList.removePrefix_blank]
          cases p.bytes.removePrefix (add64 (sub64 c.focus.last p.start) 1) with
          | none => rfl
          | some buf =>
            simp only [Option.map_some, Option.bind_some]
            rw [← absorbAt_blank, BufferList.size_blank]
            simp only [Cursor.blank, Entry.blank, BufferList.blank_append]
      · split
        · rw [BufferList.size_blank]
          exact absorbAt_blank _ _ _ _
        · rw [← insertFresh_blank, List.map_append]
          rfl

theorem flush_blank (r : StreamReassembler) (c : Cursor) (bytes : Nat) :
    r.blank.flush c.blank bytes = (r.flush c bytes).blank := by
  have size : c.blank.focus.bytes.size = c.focus.bytes.size := BufferList.size_blank _
  have written : r.blank.output.write c.blank.focus.bytes.concatenate =
      (r.output.write c.focus.bytes.concatenate).blank := by
    rw [show c.blank.focus.bytes.concatenate = Sponge.blank c.focus.bytes.concatenate from
      BufferList.concatenate_blank _]
    exact ByteStream.write_blank _ _
  simp only [flush, size, written]
  rw [show c.blank.focus.start = c.focus.start from rfl, show r.blank.firstIndex = r.firstIndex from rfl]
  split
  · simp only [blank, Cursor.blank, List.map_append]
  · simp only [blank, Cursor.blank, Cursor.entries, List.map_append, List.map_cons]

/-- **The bytes do not matter** to `push_substring`: it does the same to the blank reassembler. -/
theorem pushSubstring?_blank (r : StreamReassembler) (data : List UInt8) (index : Nat) (eof : Bool) :
    r.blank.pushSubstring? (Sponge.blank data) index eof = (r.pushSubstring? data index eof).map blank := by
  have noted : r.blank.noteEof (Sponge.blank data) index eof = (r.noteEof data index eof).blank := by
    rw [noteEof, noteEof, length_blank]
    rw [show r.blank.eof = r.eof from rfl]
    split <;> rfl
  have accepted : ∀ r : StreamReassembler, r.blank.accept (Sponge.blank data) index = (r.accept data index).map blank := by
    intro r
    rw [accept, accept, clip_blank]
    cases r.clip data index with
    | none => rfl
    | some p =>
      simp only [Option.map_some]
      rw [show r.blank.unassembled = r.unassembled.map Entry.blank from rfl,
        show r.blank.unassembledBytes = r.unassembledBytes from rfl, store_blank, Option.map_map, Option.map_map]
      refine congrArg (Option.map · _) (funext fun stored => ?_)
      exact flush_blank r stored.1 stored.2
  have ended : ∀ r : StreamReassembler, r.blank.endIfComplete = r.endIfComplete.blank := by
    intro r
    rw [endIfComplete, endIfComplete]
    rw [show r.blank.eof = r.eof from rfl, show r.blank.firstIndex = r.firstIndex from rfl,
      show r.blank.eofIndex = r.eofIndex from rfl]
    split <;> rfl
  rw [pushSubstring?, pushSubstring?, show r.blank.eofed = r.eofed from rfl, noted, accepted]
  split
  · rfl
  · rw [Option.map_map, Option.map_map]
    exact congrArg (Option.map · _) (funext ended)

/-- The counts are in order, whatever was received: nothing has passed `2 ^ 64`. -/
def Counts (r : StreamReassembler) : Prop := ∃ n < word64, Safe (List.replicate n 0) r.blank

section Counts

variable {r r' : StreamReassembler}

theorem Counts.new (capacity : Nat) : Counts (.new capacity) := ⟨0, by decide, Safe.new _ _⟩

theorem Counts.written (h : Counts r) : r.firstIndex = r.output.writeCount := by
  obtain ⟨n, -, safe⟩ := h
  exact safe.written

theorem Counts.pop (h : Counts r) (len : Nat) : Counts (r.popOutput len) := by
  obtain ⟨n, fits, safe⟩ := h
  refine ⟨n, fits, ?_⟩
  rw [show (r.popOutput len).blank = r.blank.popOutput len by
    simp only [blank, popOutput, ByteStream.popOutput_blank]]
  exact safe.pop len

theorem Counts.setError (h : Counts r) : Counts { r with output := r.output.setError } := by
  obtain ⟨n, fits, safe⟩ := h
  exact ⟨n, fits, safe.sorted, safe.genuine, safe.written, safe.inside⟩

/-- What a push does to the counts. -/
structure Pushed (r r' : StreamReassembler) : Prop where
  counts : Counts r'
  grows : r.firstIndex ≤ r'.firstIndex
  readCount : r'.output.readCount = r.output.readCount
  capacity : r'.output.capacity = r.output.capacity

/-- **Any push** whose last index is a 64-bit number, if it returns. -/
theorem Counts.push (h : Counts r) (capacity : r.output.capacity < word64) {data : List UInt8} {index : Nat} {eof : Bool}
    (fits : index + data.length < word64) (run : r.pushSubstring? data index eof = some r') : Pushed r r' := by
  obtain ⟨n, short, safe⟩ := h
  have more : Safe (List.replicate (max n (index + data.length)) 0) r.blank := by
    refine safe.mono ⟨List.replicate (max n (index + data.length) - n) 0, ?_⟩
    rw [List.replicate_append_replicate]
    congr 1
    omega
  have blanked : r.blank.pushSubstring? (Sponge.blank data) index eof = some r'.blank := by
    rw [pushSubstring?_blank, run, Option.map_some]
  have piece : Sponge.blank data <+: (List.replicate (max n (index + data.length)) (0 : UInt8)).drop index := by
    rw [blank_eq, List.drop_replicate]
    refine ⟨List.replicate (max n (index + data.length) - index - data.length) 0, ?_⟩
    rw [List.replicate_append_replicate]
    congr 1
    omega
  have advanced := push_advances more capacity (by rw [List.length_replicate]; omega)
    (Or.inr ⟨piece, by rw [length_blank, List.length_replicate]; omega⟩) blanked
  exact ⟨⟨_, by omega, advanced.safe⟩, advanced.grows, advanced.readCount, advanced.capacity⟩

end Counts

end StreamReassembler

end Sponge
