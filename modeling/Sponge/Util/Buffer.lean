import Sponge.Logic.Word

/-!
# Buffers (`util/buffer.hh`, `util/buffer.cc`)

A `Buffer` is a reference-counted string with a starting offset. It is observed
only through `str()`, so it is the list of bytes `str()` returns. A `BufferList`
is the deque of buffers; its chunks stay visible, since `remove_prefix` works
chunk by chunk and the conversion to a single `Buffer` fails on two chunks.
A call that throws is `none`.
-/

namespace Sponge

/-- A `Buffer`, as the bytes of its `str()`. -/
abbrev Buffer : Type := List UInt8

/-- `Buffer::remove_prefix`, which throws past the end. -/
def Buffer.removePrefix (b : Buffer) (n : Nat) : Option Buffer :=
  if n > b.length then none else some (b.drop n)

/-- `BufferList`: the deque of its buffers. -/
structure BufferList where
  buffers : List Buffer := []
  deriving DecidableEq, Repr

namespace BufferList

/-- `BufferList(std::string &&)`: one buffer, also for the empty string. -/
def ofString (str : List UInt8) : BufferList := ⟨[str]⟩

/-- `BufferList::append`. -/
def append (l other : BufferList) : BufferList := ⟨l.buffers ++ other.buffers⟩

/-- `BufferList::concatenate`. -/
def concatenate (l : BufferList) : List UInt8 := l.buffers.flatten

/-- `BufferList::size`. -/
def size (l : BufferList) : Nat := (l.buffers.map List.length).sum

/-- The loop of `BufferList::remove_prefix`: whole buffers are popped while `n`
covers them, the last one is shortened; running out of buffers throws. -/
def dropBytes : List Buffer → Nat → Option (List Buffer)
  | bs, 0 => some bs
  | [], _ + 1 => none
  | b :: bs, n + 1 => if n + 1 < b.length then some (b.drop (n + 1) :: bs) else dropBytes bs (n + 1 - b.length)

/-- `BufferList::remove_prefix`. -/
def removePrefix (l : BufferList) (n : Nat) : Option BufferList :=
  (dropBytes l.buffers n).map BufferList.mk

/-- `BufferList::operator Buffer`, which throws on more than one buffer. -/
def toBuffer (l : BufferList) : Option Buffer :=
  match l.buffers with
  | [] => some []
  | [b] => some b
  | _ => none

@[simp] theorem concatenate_ofString (str : List UInt8) : (ofString str).concatenate = str := by
  simp [ofString, concatenate]

@[simp] theorem concatenate_append (l other : BufferList) :
    (l.append other).concatenate = l.concatenate ++ other.concatenate := by
  simp [append, concatenate]

@[simp] theorem length_concatenate (l : BufferList) : l.concatenate.length = l.size := by
  simp [concatenate, size, List.length_flatten]

@[simp] theorem size_append (l other : BufferList) : (l.append other).size = l.size + other.size := by
  simp [append, size]

@[simp] theorem size_ofString (str : List UInt8) : (ofString str).size = str.length := by
  simp [ofString, size]

@[simp] theorem removePrefix_zero (l : BufferList) : l.removePrefix 0 = some l := by
  simp [removePrefix, dropBytes]

/-- Popping a prefix that is there succeeds and drops exactly these bytes,
whatever the chunks are (empty ones included). -/
theorem dropBytes_spec (bs : List Buffer) (n : Nat) (enough : n ≤ bs.flatten.length) :
    ∃ rest, dropBytes bs n = some rest ∧ rest.flatten = bs.flatten.drop n := by
  induction bs generalizing n with
  | nil =>
    have zero : n = 0 := by simpa using enough
    exact ⟨[], by rw [zero]; rfl, by simp⟩
  | cons b bs ih =>
    cases n with
    | zero => exact ⟨b :: bs, rfl, by simp⟩
    | succ n =>
      simp only [List.flatten_cons, List.length_append] at enough
      simp only [dropBytes]
      by_cases inside : n + 1 < b.length
      · refine ⟨_, if_pos inside, ?_⟩
        rw [List.flatten_cons, List.flatten_cons, List.drop_append_of_le_length (by omega)]
      · obtain ⟨rest, run, bytes⟩ := ih (n + 1 - b.length) (by omega)
        refine ⟨rest, by rw [if_neg inside]; exact run, ?_⟩
        have covered : b.drop (n + 1) = [] := List.drop_eq_nil_of_le (by omega)
        rw [bytes, List.flatten_cons, List.drop_append, covered, List.nil_append]

theorem removePrefix_spec (l : BufferList) (n : Nat) (enough : n ≤ l.size) :
    ∃ rest, l.removePrefix n = some rest ∧ rest.concatenate = l.concatenate.drop n := by
  rw [← length_concatenate] at enough
  obtain ⟨rest, run, bytes⟩ := dropBytes_spec l.buffers n enough
  exact ⟨⟨rest⟩, by rw [removePrefix, run]; rfl, bytes⟩

/-- `remove_prefix` where the source lets an exception escape is a run that
stops; where the length is known to be there, this is the list it leaves. -/
def dropPrefix (l : BufferList) (n : Nat) : BufferList := (l.removePrefix n).getD l

theorem concatenate_dropPrefix {l : BufferList} {n : Nat} (enough : n ≤ l.size) :
    (l.dropPrefix n).concatenate = l.concatenate.drop n := by
  obtain ⟨rest, run, bytes⟩ := removePrefix_spec l n enough
  rw [dropPrefix, run, Option.getD_some, bytes]

theorem size_dropPrefix {l : BufferList} {n : Nat} (enough : n ≤ l.size) :
    (l.dropPrefix n).size = l.size - n := by
  rw [← length_concatenate, concatenate_dropPrefix enough, List.length_drop, length_concatenate]

@[simp] theorem dropPrefix_zero (l : BufferList) : l.dropPrefix 0 = l := by
  simp [dropPrefix]

end BufferList

/-- `BufferViewList`: the deque of its views, each as the bytes it shows. -/
structure BufferViewList where
  views : List (List UInt8)
  deriving DecidableEq, Repr

namespace BufferViewList

/-- `BufferViewList(const std::string &)`. -/
def ofString (str : List UInt8) : BufferViewList := ⟨[str]⟩

/-- `BufferViewList(const BufferList &)`. -/
def ofBuffers (buffers : BufferList) : BufferViewList := ⟨buffers.buffers⟩

/-- `BufferViewList::remove_prefix`, the loop of `BufferList::remove_prefix` over views. -/
def removePrefix (l : BufferViewList) (n : Nat) : Option BufferViewList :=
  (BufferList.dropBytes l.views n).map BufferViewList.mk

/-- `BufferViewList::size`. -/
def size (l : BufferViewList) : Nat := (l.views.map List.length).sum

/-- `BufferViewList::as_iovecs`: where each vector starts and how long it is, as the bytes there. -/
def asIovecs (l : BufferViewList) : List (List UInt8) := l.views

/-- The bytes that the vectors hold together. -/
def contents (l : BufferViewList) : List UInt8 := l.asIovecs.flatten

@[simp] theorem contents_ofString (str : List UInt8) : (ofString str).contents = str := by
  simp [ofString, contents, asIovecs]

@[simp] theorem contents_ofBuffers (buffers : BufferList) : (ofBuffers buffers).contents = buffers.concatenate := rfl

@[simp] theorem length_contents (l : BufferViewList) : l.contents.length = l.size := by
  simp [contents, asIovecs, size, List.length_flatten]

theorem removePrefix_spec (l : BufferViewList) (n : Nat) (enough : n ≤ l.size) :
    ∃ rest, l.removePrefix n = some rest ∧ rest.contents = l.contents.drop n := by
  rw [← length_contents] at enough
  obtain ⟨rest, run, bytes⟩ := BufferList.dropBytes_spec l.views n enough
  exact ⟨⟨rest⟩, by rw [removePrefix, run]; rfl, bytes⟩

end BufferViewList

end Sponge
