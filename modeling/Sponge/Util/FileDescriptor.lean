import Mathlib.Algebra.Order.Ring.Nat
import Mathlib.Algebra.BigOperators.Group.List.Basic
import Sponge.Util.Buffer

/-!
# File descriptors (`util/file_descriptor.{hh,cc}`, `util/socket.cc`)

A `FileDescriptor` is a shared handle: all its duplicates see one `FDWrapper`,
with two flags and the counts of reads and writes. What a system call returns is
an argument of the function that makes it, `none` for an error, on which
`SystemCall` throws. A stream descriptor takes the first bytes of what `writev`
is given, as many as the call returns.

`write` with `write_all` goes on until everything is taken. However the kernel
cuts the bytes, each of them is written once and in order (`write_all_in_order`).
-/

namespace Sponge

/-- `FDWrapper`, without the number of the descriptor. The counts are 32-bit numbers. -/
structure FDWrapper where
  eof : Bool := false
  closed : Bool := false
  readCount : UInt32 := 0
  writeCount : UInt32 := 0
  deriving DecidableEq

/-- The argument of `shutdown`. -/
inductive ShutdownHow where
  | shutRD
  | shutWR
  | shutRDWR
  deriving DecidableEq

namespace FDWrapper

/-- `register_read`. -/
def registerRead (fd : FDWrapper) : FDWrapper := { fd with readCount := fd.readCount + 1 }

/-- `register_write`. -/
def registerWrite (fd : FDWrapper) : FDWrapper := { fd with writeCount := fd.writeCount + 1 }

/-- `FDWrapper::close`. -/
def close (fd : FDWrapper) : FDWrapper := { fd with eof := true, closed := true }

/-- `BUFFER_SIZE` of `read`. -/
def bufferSize : Nat := 1024 * 1024

/-- Where nothing is read though something was asked for, the descriptor is at its end. -/
def noteEof (fd : FDWrapper) (limit bytesRead : Nat) : FDWrapper :=
  if 0 < limit ∧ bytesRead = 0 then { fd with eof := true } else fd

/-- `FileDescriptor::read`, in which `::read` returns the bytes of `result`. -/
def read (fd : FDWrapper) (limit : Nat) (result : Option (List UInt8)) : Option (FDWrapper × List UInt8) := do
  let str ← result
  if str.length > min bufferSize limit then none
  else some ((fd.noteEof limit str.length).registerRead, str)

/-- `Socket::shutdown`, where `::shutdown` succeeds or fails. -/
def shutdown (fd : FDWrapper) (how : ShutdownHow) (succeeds : Bool) : Option FDWrapper :=
  if succeeds then
    match how with
    | .shutRD => some fd.registerRead
    | .shutWR => some fd.registerWrite
    | .shutRDWR => some fd.registerRead.registerWrite
  else none

theorem read_spec {fd fd' : FDWrapper} {limit : Nat} {result : Option (List UInt8)} {str : List UInt8}
    (run : fd.read limit result = some (fd', str)) :
    result = some str ∧ str.length ≤ limit ∧ fd' = (fd.noteEof limit str.length).registerRead := by
  obtain ⟨bytes, taken, rest⟩ := Option.bind_eq_some_iff.1 run
  split at rest
  · cases rest
  · rename_i fits
    obtain ⟨rfl, rfl⟩ := Prod.mk.inj (Option.some.inj rest)
    exact ⟨taken, by omega, rfl⟩

/-- What the kernel may return to a read is taken. -/
theorem read_of_le (fd : FDWrapper) {limit : Nat} {str : List UInt8} (fits : str.length ≤ min bufferSize limit) :
    fd.read limit (some str) = some ((fd.noteEof limit str.length).registerRead, str) := by
  show (if str.length > min bufferSize limit then none else _) = _
  rw [if_neg (by omega)]

@[simp] theorem noteEof_closed (fd : FDWrapper) (limit bytesRead : Nat) :
    (fd.noteEof limit bytesRead).closed = fd.closed := by
  unfold noteEof
  split <;> rfl

@[simp] theorem noteEof_readCount (fd : FDWrapper) (limit bytesRead : Nat) :
    (fd.noteEof limit bytesRead).readCount = fd.readCount := by
  unfold noteEof
  split <;> rfl

/-- A count that has moved by one is another number, in 32 bits too. -/
theorem registerRead_readCount_ne (fd : FDWrapper) : fd.registerRead.readCount ≠ fd.readCount := by
  show fd.readCount + 1 ≠ fd.readCount
  intro same
  have numbers := congrArg UInt32.toNat same
  rw [UInt32.toNat_add] at numbers
  have small := fd.readCount.toNat_lt
  simp only [UInt32.toNat_one] at numbers
  omega

/-- So is one that has moved by one or by two. -/
theorem writeCount_ne {fd fd' : FDWrapper} (moved : fd' = fd.registerWrite ∨ fd' = fd.registerWrite.registerWrite) :
    fd'.writeCount ≠ fd.writeCount := by
  intro same
  have numbers := congrArg UInt32.toNat same
  have small := fd.writeCount.toNat_lt
  rcases moved with rfl | rfl
  · change (fd.writeCount + 1).toNat = _ at numbers
    rw [UInt32.toNat_add, UInt32.toNat_one] at numbers
    omega
  · change (fd.writeCount + 1 + 1).toNat = _ at numbers
    rw [UInt32.toNat_add, UInt32.toNat_add, UInt32.toNat_one] at numbers
    omega

end FDWrapper

/-! ### Writing -/

/-- How far a call of `write` has come: what is left to be written, `total_bytes_written`, and the bytes that the kernel
has taken. -/
structure Writing where
  fd : FDWrapper
  buffer : BufferViewList
  total : Nat := 0
  out : List UInt8 := []
  deriving DecidableEq

namespace Writing

/-- The body of the loop of `write`, in which `::writev` returns `result`. -/
def round (w : Writing) (result : Option Nat) : Option Writing := do
  let bytesWritten ← result
  if bytesWritten = 0 ∧ w.buffer.size ≠ 0 then none
  else if bytesWritten > w.buffer.size then none
  else (w.buffer.removePrefix bytesWritten).map fun rest => {
    fd := w.fd.registerWrite
    buffer := rest
    total := w.total + bytesWritten
    out := w.out ++ w.buffer.contents.take bytesWritten }

/-- The loop of `write`, in which the calls of `::writev` return `results`. While it waits for another, it has not
returned. -/
def loop (writeAll : Bool) : List (Option Nat) → Writing → Option Writing
  | [], _ => none
  | result :: more, w => (w.round result).bind fun w =>
    if writeAll && w.buffer.size != 0 then loop writeAll more w else some w

/-- What one round does: `n` bytes move from the buffer to the kernel. -/
structure Moved (n : Nat) (w w' : Writing) : Prop where
  fd : w'.fd = w.fd.registerWrite
  total : w'.total = w.total + n
  size : w'.buffer.size + n = w.buffer.size
  out : w'.out = w.out ++ w.buffer.contents.take n
  bytes : w'.out ++ w'.buffer.contents = w.out ++ w.buffer.contents

/-- **A round** throws unless the kernel takes something that is there, and then that is moved. -/
theorem round_eq_some {w w' : Writing} {result : Option Nat} (run : w.round result = some w') :
    ∃ n, result = some n ∧ (n = 0 → w.buffer.size = 0) ∧ Moved n w w' := by
  obtain ⟨n, taken, rest⟩ := Option.bind_eq_some_iff.1 run
  split at rest
  · cases rest
  rename_i positive
  split at rest
  · cases rest
  rename_i fits
  obtain ⟨left, run', bytes⟩ := w.buffer.removePrefix_spec n (by omega)
  rw [run'] at rest
  cases rest
  refine ⟨n, taken, by omega, rfl, rfl, ?_, rfl, ?_⟩
  · rw [← BufferViewList.length_contents, bytes, List.length_drop, BufferViewList.length_contents]
    omega
  · rw [List.append_assoc, bytes, List.take_append_drop]

theorem round_of_le {w : Writing} {n : Nat} (positive : n = 0 → w.buffer.size = 0) (fits : n ≤ w.buffer.size) :
    ∃ w', w.round (some n) = some w' ∧ Moved n w w' := by
  obtain ⟨left, run, -⟩ := w.buffer.removePrefix_spec n fits
  have rounds : w.round (some n) = some {
      fd := w.fd.registerWrite
      buffer := left
      total := w.total + n
      out := w.out ++ w.buffer.contents.take n } := by
    show (if n = 0 ∧ w.buffer.size ≠ 0 then none else if n > w.buffer.size then none else _) = _
    rw [if_neg (by omega), if_neg (by omega), run, Option.map_some]
  obtain ⟨m, same, -, moved⟩ := round_eq_some rounds
  cases same
  exact ⟨_, rounds, moved⟩

/-- **The loop with `write_all`** returns only when the buffer is empty, and has written it in order. -/
theorem loop_complete {results : List (Option Nat)} {w w' : Writing} (run : loop true results w = some w') :
    w'.out = w.out ++ w.buffer.contents ∧ w'.total = w.total + w.buffer.size ∧ w'.buffer.size = 0 := by
  induction results generalizing w with
  | nil => cases run
  | cons result more ih =>
    obtain ⟨mid, rounds, rest⟩ := Option.bind_eq_some_iff.1 run
    obtain ⟨n, -, -, moved⟩ := round_eq_some rounds
    have size := moved.size
    have total := moved.total
    split at rest
    · obtain ⟨out, total', done⟩ := ih rest
      exact ⟨out.trans moved.bytes, by omega, done⟩
    · rename_i emptied
      have none : mid.buffer.size = 0 := by simpa using emptied
      have nothing : mid.buffer.contents = [] :=
        List.eq_nil_of_length_eq_zero (by rw [BufferViewList.length_contents, none])
      cases rest
      have bytes := moved.bytes
      rw [nothing, List.append_nil] at bytes
      exact ⟨bytes, by omega, none⟩

/-- **The loop returns** as soon as the kernel has taken everything, in parts of any size. -/
theorem loop_returns {parts : List Nat} (positive : ∀ n ∈ parts, 0 < n) {w : Writing} (some_ : w.buffer.size ≠ 0)
    (whole : parts.sum = w.buffer.size) (more : List (Option Nat)) :
    ∃ w', loop true (parts.map some ++ more) w = some w' ∧
      w'.fd.writeCount = w.fd.writeCount + UInt32.ofNat parts.length := by
  induction parts generalizing w with
  | nil => exact absurd whole.symm some_
  | cons n rest ih =>
    have here := positive n List.mem_cons_self
    rw [List.sum_cons] at whole
    obtain ⟨mid, rounds, moved⟩ := round_of_le (w := w) (n := n) (by omega) (by omega)
    have size := moved.size
    have count : mid.fd.writeCount = w.fd.writeCount + 1 := by rw [moved.fd]; rfl
    rw [List.map_cons, List.cons_append, loop, rounds, Option.bind_some]
    by_cases emptied : mid.buffer.size = 0
    · -- the last part
      have last : rest = [] := by
        cases rest with
        | nil => rfl
        | cons m rest =>
          have next := positive m (List.mem_cons_of_mem _ List.mem_cons_self)
          rw [List.sum_cons] at whole
          omega
      refine ⟨mid, by simp [emptied], ?_⟩
      rw [count, last]
      rfl
    · obtain ⟨w', run, count'⟩ := ih (fun m member => positive m (List.mem_cons_of_mem _ member)) emptied (by omega)
      refine ⟨w', by simpa [emptied] using run, ?_⟩
      rw [count', count, List.length_cons, UInt32.add_assoc, Nat.add_comm, UInt32.ofNat_add]
      rfl

end Writing

namespace FDWrapper

/-- `FileDescriptor::write`. -/
def write (fd : FDWrapper) (buffer : BufferViewList) (writeAll : Bool) (results : List (Option Nat)) : Option Writing :=
  Writing.loop writeAll results { fd, buffer }

/-- **A write without `write_all`** is one round. -/
theorem write_once {fd : FDWrapper} {buffer : BufferViewList} {result : Option Nat} {w : Writing}
    (run : fd.write buffer false [result] = some w) :
    ∃ n, result = some n ∧ n ≤ buffer.size ∧ w.fd = fd.registerWrite ∧ w.total = n ∧ w.out = buffer.contents.take n := by
  obtain ⟨mid, rounds, rest⟩ := Option.bind_eq_some_iff.1 run
  obtain ⟨n, taken, -, moved⟩ := Writing.round_eq_some rounds
  rw [Bool.false_and, if_neg (by decide)] at rest
  cases rest
  have size := moved.size
  have total := moved.total
  have out := moved.out
  dsimp only at size total out
  exact ⟨n, taken, by omega, moved.fd, by omega, by rw [out, List.nil_append]⟩

/-- It returns if the kernel takes some of what it is given. -/
theorem write_once_of_le (fd : FDWrapper) (buffer : BufferViewList) {n : Nat} (positive : n = 0 → buffer.size = 0)
    (fits : n ≤ buffer.size) : ∃ w, fd.write buffer false [some n] = some w ∧ w.fd = fd.registerWrite := by
  obtain ⟨w, rounds, moved⟩ := Writing.round_of_le (w := { fd, buffer }) positive fits
  refine ⟨w, ?_, moved.fd⟩
  rw [write, Writing.loop, rounds, Option.bind_some]
  rfl

/-- A write that the kernel takes in one piece. -/
theorem write_whole (fd : FDWrapper) (buffer : BufferViewList) :
    ∃ w, fd.write buffer true [some buffer.size] = some w ∧ w.fd = fd.registerWrite ∧ w.out = buffer.contents := by
  obtain ⟨w, rounds, moved⟩ := Writing.round_of_le (w := { fd, buffer }) (n := buffer.size) (fun none => none) (Nat.le_refl _)
  have size := moved.size
  dsimp only at size
  have left : w.buffer.size = 0 := by omega
  have run : fd.write buffer true [some buffer.size] = some w := by
    rw [write, Writing.loop, rounds, Option.bind_some, left]
    rfl
  obtain ⟨out, -, -⟩ := Writing.loop_complete run
  exact ⟨w, run, moved.fd, out⟩

/-- A write that ends with one call has written everything. -/
theorem write_single {fd : FDWrapper} {buffer : BufferViewList} {result : Option Nat} {w : Writing}
    (run : fd.write buffer true [result] = some w) : w.out = buffer.contents ∧ w.fd = fd.registerWrite := by
  obtain ⟨out, -, -⟩ := Writing.loop_complete run
  obtain ⟨mid, rounds, rest⟩ := Option.bind_eq_some_iff.1 run
  obtain ⟨n, -, -, moved⟩ := Writing.round_eq_some rounds
  refine ⟨out, ?_⟩
  split at rest
  · cases rest
  · cases rest
    exact moved.fd

/-- **With `write_all` every byte is written once and in order**, however the kernel cuts the bytes: a call that returns
has written the whole buffer and reports its size, and it returns once the kernel has taken everything, in parts of any
size, each of which counts as one write. An empty buffer takes one call. -/
theorem write_all_in_order (fd : FDWrapper) (buffer : BufferViewList) :
    (∀ results w, fd.write buffer true results = some w → w.out = buffer.contents ∧ w.total = buffer.size) ∧
      ∀ parts : List Nat, (∀ n ∈ parts, 0 < n) → parts.sum = buffer.size → ∀ more,
        ∃ w, fd.write buffer true (parts.map some ++ some 0 :: more) = some w ∧
          w.fd.writeCount = fd.writeCount + UInt32.ofNat (max parts.length 1) := by
  refine ⟨fun results w run => ?_, fun parts positive whole more => ?_⟩
  · obtain ⟨out, total, -⟩ := Writing.loop_complete run
    dsimp only at out total
    exact ⟨by rw [out, List.nil_append], by omega⟩
  cases parts with
  | nil =>
    have empty : buffer.size = 0 := whole.symm
    obtain ⟨w, rounds, moved⟩ := Writing.round_of_le (w := { fd, buffer }) (n := 0) (fun _ => empty) (Nat.zero_le _)
    have left : w.buffer.size = 0 := by
      have size := moved.size
      dsimp only at size
      omega
    refine ⟨w, ?_, by rw [moved.fd]; rfl⟩
    rw [List.map_nil, List.nil_append, write, Writing.loop, rounds, Option.bind_some, left]
    rfl
  | cons n rest =>
    have here := positive n List.mem_cons_self
    rw [List.sum_cons] at whole
    have nonempty : buffer.size ≠ 0 := by omega
    obtain ⟨w, run, count⟩ := Writing.loop_returns (w := { fd, buffer }) positive nonempty (by rw [List.sum_cons]; exact whole)
      (some 0 :: more)
    refine ⟨w, run, ?_⟩
    rw [count, Nat.max_eq_left (by simp)]

/-- Five bytes in three views, of which the kernel takes three, one and one. -/
theorem write_all_in_order_parts :
    ∃ w, ({} : FDWrapper).write ⟨[[1, 2], [], [3, 4, 5]]⟩ true [some 3, some 1, some 1, some 0] = some w ∧
      w.out = [1, 2, 3, 4, 5] ∧ w.total = 5 ∧ w.fd.writeCount = 3 := by
  obtain ⟨whole, parts⟩ := write_all_in_order {} ⟨[[1, 2], [], [3, 4, 5]]⟩
  obtain ⟨w, run, count⟩ := parts [3, 1, 1] (by decide) rfl []
  obtain ⟨out, total⟩ := whole _ w run
  exact ⟨w, run, out, total, count⟩

end FDWrapper

end Sponge
