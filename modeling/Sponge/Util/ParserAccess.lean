import Sponge.Logic.Logged
import Sponge.Util.Codec

/-!
# What a parser touches (`util/buffer.{hh,cc}`, `util/parser.cc`)

`Util/Parser` reads the bytes that a buffer shows. Here the same calls run on what
is stored: a shared string, let go of when it is used up, and a starting offset.
Every access that could leave the string is recorded, and so is every call of the
parser with the state it found and the state it left.

`Follows` relates a recorded computation to the plain one: same result, every
access in range, and a chain of calls each of which respects an error that is
already there. It is carried through `do` blocks like `Parses`. That an error, once
set, stays to the end is then a property of the chain (`Linked.sticky`).
-/

namespace Sponge

/-- `Buffer` as it is stored. The offset stays inside the string as long as there is one. -/
structure StoredBuffer where
  storage : Option (List UInt8)
  startingOffset : Nat
  inside : ∀ s ∈ storage, startingOffset ≤ s.length

namespace StoredBuffer

/-- `Buffer(std::string &&)`. -/
def ofString (str : List UInt8) : StoredBuffer := ⟨some str, 0, by simp⟩

/-- `str`. -/
def str (b : StoredBuffer) : Buffer :=
  match b.storage with
  | none => []
  | some s => s.drop b.startingOffset

/-- `size`. -/
def size (b : StoredBuffer) : Nat := b.str.length

/-- `remove_prefix`: past the end it throws, and at the end it lets go of the string. -/
def removePrefix (b : StoredBuffer) (n : Nat) : Option StoredBuffer :=
  if enough : n > b.size then none
  else some {
    storage := b.storage.filter fun s => decide (b.startingOffset + n ≠ s.length)
    startingOffset := b.startingOffset + n
    inside := by
      intro s kept
      have stored : b.storage = some s := (Option.filter_eq_some_iff.1 kept).1
      have before := b.inside s stored
      rw [size, str, stored, List.length_drop] at enough
      omega }

@[simp] theorem str_ofString (s : List UInt8) : (ofString s).str = s := List.drop_zero

/-- Letting go of the string is not visible. -/
theorem removePrefix_str (b : StoredBuffer) (n : Nat) : (b.removePrefix n).map str = b.str.removePrefix n := by
  rw [removePrefix, Buffer.removePrefix]
  by_cases past : n > b.size
  · rw [dif_pos past, if_pos (show n > b.str.length from past), Option.map_none]
  · rw [dif_neg past, if_neg (show ¬ n > b.str.length from past), Option.map_some]
    obtain ⟨storage, offset, inside⟩ := b
    cases storage with
    | none => simp [str]
    | some s =>
      by_cases used : offset + n = s.length
      · simp [str, Option.filter, used, List.drop_drop]
      · simp [str, Option.filter, used, List.drop_drop]

theorem removePrefix_of_le {b : StoredBuffer} {n : Nat} (enough : n ≤ b.size) :
    ∃ rest, b.removePrefix n = some rest ∧ rest.str = b.str.drop n := by
  have shown := b.removePrefix_str n
  rw [NetParser.removePrefix_of_le enough] at shown
  obtain ⟨rest, run, same⟩ := Option.map_eq_some_iff.1 shown
  exact ⟨rest, run, same⟩

end StoredBuffer

/-- An access to a buffer or a length that could go wrong, with the sizes it depends on. -/
inductive ByteAccess where
  /-- `at(n)` -/
  | readAt (size n : Nat)
  /-- `Buffer::remove_prefix(n)` -/
  | removePrefix (size n : Nat)
  /-- the first `n` bytes are given to a checksum -/
  | sumOver (size n : Nat)
  /-- the unsigned difference `a - b` -/
  | difference (a b : Nat)

/-- The access stays inside the buffer, and the difference does not underflow. -/
def ByteAccess.InRange : ByteAccess → Prop
  | .readAt size n => n < size
  | .removePrefix size n => n ≤ size
  | .sumOver size n => n ≤ size
  | .difference a b => b ≤ a

/-- A call of the parser: the state it found, the state it left and the number it returned. -/
structure ParserCall where
  before : NetParser
  after : NetParser
  val : Nat

/-- A call that finds an error returns zero, takes nothing from the buffer and leaves an error. -/
def ParserCall.Respects (c : ParserCall) : Prop :=
  c.before.error ≠ .noError → c.val = 0 ∧ c.after.buffer = c.before.buffer ∧ c.after.error ≠ .noError

/-- What is recorded. -/
inductive ParserEvent where
  | access (a : ByteAccess)
  | call (c : ParserCall)

/-- Accesses are in range and calls respect an error. -/
def ParserEvent.Sound : ParserEvent → Prop
  | .access a => a.InRange
  | .call c => c.Respects

/-- An access in range, and no call. -/
def ParserEvent.Inside (e : ParserEvent) : Prop := ∃ a : ByteAccess, e = .access a ∧ a.InRange

/-- The call that is recorded, if it is one. -/
def ParserEvent.call? : ParserEvent → Option ParserCall
  | .access _ => none
  | .call c => some c

/-- The calls of a log. -/
def parserCalls (log : List ParserEvent) : List ParserCall := log.filterMap ParserEvent.call?

theorem call_of_mem {log : List ParserEvent} {c : ParserCall} (member : c ∈ parserCalls log) : .call c ∈ log := by
  obtain ⟨e, member, made⟩ := List.mem_filterMap.1 member
  cases e with
  | access a => cases made
  | call c' =>
    cases made
    exact member

/-- `NetParser` over what is stored. -/
structure StoredParser where
  buffer : StoredBuffer
  error : ParseResult := .noError

/-- The parser that is seen. -/
def StoredParser.shown (p : StoredParser) : NetParser := { buffer := p.buffer.str, error := p.error }

/-- A computation on a parser that records. -/
abbrev Recording : Type → Type := StateT StoredParser (Logged ParserEvent)

namespace Recording

/-! ### Chains of calls -/

/-- Each call starts where the one before ended. -/
def Linked : NetParser → List ParserCall → NetParser → Prop
  | p, [], q => p = q
  | p, c :: rest, q => c.before = p ∧ Linked c.after rest q

theorem Linked.append {p q r : NetParser} {front back : List ParserCall} (first : Linked p front q)
    (second : Linked q back r) : Linked p (front ++ back) r := by
  induction front generalizing p with
  | nil =>
    cases first
    exact second
  | cons c rest ih => exact ⟨first.1, ih first.2⟩

/-- From an error on, everything reads as zero and the buffer stays. -/
theorem Linked.stuck {p q : NetParser} {calls : List ParserCall} (linked : Linked p calls q)
    (respects : ∀ c ∈ calls, c.Respects) (error : p.error ≠ .noError) :
    ∀ c ∈ calls, c.val = 0 ∧ c.after.buffer = p.buffer := by
  induction calls generalizing p with
  | nil => simp
  | cons c rest ih =>
    obtain ⟨rfl, linked⟩ := linked
    obtain ⟨here, others⟩ := List.forall_mem_cons.1 respects
    obtain ⟨zero, kept, still⟩ := here error
    refine List.forall_mem_cons.2 ⟨⟨zero, kept⟩, fun c' later => ?_⟩
    obtain ⟨zero', kept'⟩ := ih linked others still c' later
    exact ⟨zero', kept'.trans kept⟩

/-- Once a call leaves an error, every later one reads zero, and the buffer stays what that call left. -/
def Sticky (calls : List ParserCall) : Prop :=
  calls.Pairwise fun c c' => c.after.error ≠ .noError → c'.val = 0 ∧ c'.after.buffer = c.after.buffer

theorem Linked.sticky {p q : NetParser} {calls : List ParserCall} (linked : Linked p calls q)
    (respects : ∀ c ∈ calls, c.Respects) : Sticky calls := by
  induction calls generalizing p with
  | nil => exact List.Pairwise.nil
  | cons c rest ih =>
    obtain ⟨-, linked⟩ := linked
    have others := (List.forall_mem_cons.1 respects).2
    exact List.Pairwise.cons (fun c' later error => linked.stuck others error c' later) (ih linked others)

/-! ### Recorded computations -/

/-- The computation gives `b`, everything it records is sound, and its calls lead from `p` to `q`. -/
structure Tracks {β : Type} (p : NetParser) (x : Logged ParserEvent β) (b : β) (q : NetParser) : Prop where
  does : x.Does ParserEvent.Sound (some b)
  linked : Linked p (parserCalls x.log) q

namespace Tracks

variable {β γ : Type} {p q r : NetParser}

theorem pure (b : β) : Tracks p (Pure.pure b : Logged ParserEvent β) b p := ⟨.pure b, rfl⟩

theorem bind {x : Logged ParserEvent β} {f : β → Logged ParserEvent γ} {b : β} {c : γ} (first : Tracks p x b q)
    (second : Tracks q (f b) c r) : Tracks p (x >>= f) c r := by
  refine ⟨first.does.bind second.does, ?_⟩
  rw [Logged.bind_of_some first.does.result]
  dsimp only
  rw [parserCalls, List.filterMap_append]
  exact first.linked.append second.linked

/-- Accesses alone leave the parser where it is. -/
theorem accesses {x : Logged ParserEvent β} {b : β} (does : x.Does ParserEvent.Inside (some b)) : Tracks p x b p := by
  refine ⟨⟨does.result, fun e recorded => ?_⟩, ?_⟩
  · obtain ⟨a, rfl, inRange⟩ := does.log e recorded
    exact inRange
  · have none : parserCalls x.log = [] := by
      refine List.eq_nil_iff_forall_not_mem.2 fun c member => ?_
      obtain ⟨a, wrong, -⟩ := does.log _ (call_of_mem member)
      cases wrong
    rw [none]
    rfl

theorem call {c : ParserCall} (b : β) (respects : c.Respects) :
    Tracks c.before (Logged.record (.call c) (some b)) b c.after :=
  ⟨.record _ respects, rfl, rfl⟩

end Tracks

/-- Two steps of a `do` block. -/
theorem Tracks.seq {α β : Type} {p q r : NetParser} {s s' : StoredParser} {x : Recording α} {f : α → Recording β} {a : α}
    {b : β × StoredParser} (first : Tracks p (x s) (a, s') q) (second : Tracks q (f a s') b r) :
    Tracks p ((x >>= f) s) b r := first.bind second

/-- From `p` on, `x` does what `plain` does, in a sound way. -/
def Follows {α : Type} (x : Recording α) (plain : Parsing α) (p : StoredParser) : Prop :=
  ∃ a q, Tracks p.shown (x p) (a, q) q.shown ∧ plain p.shown = some (a, q.shown)

namespace Follows

variable {α β : Type} {p : StoredParser}

theorem pure (a : α) : Follows (Pure.pure a) (Pure.pure a) p := ⟨a, p, .pure _, rfl⟩

theorem bind {x : Recording α} {f : α → Recording β} {plain : Parsing α} {next : α → Parsing β} (first : Follows x plain p)
    (second : ∀ a q, Follows (f a) (next a) q) : Follows (x >>= f) (plain >>= next) p := by
  obtain ⟨a, q, tracks, run⟩ := first
  obtain ⟨b, r, tracks', run'⟩ := second a q
  exact ⟨b, r, tracks.seq tracks', (Parsing.bind_of_some run).trans run'⟩

theorem map {x : Recording α} {plain : Parsing α} (f : α → β) (h : Follows x plain p) : Follows (f <$> x) (f <$> plain) p :=
  h.bind fun a _ => .pure (f a)

/-- The state is looked at on both sides. -/
theorem get {f : StoredParser → Recording β} {next : NetParser → Parsing β} (h : Follows (f p) (next p.shown) p) :
    Follows (MonadState.get >>= f) (MonadState.get >>= next) p := by
  obtain ⟨b, r, tracks, run⟩ := h
  have looked : Tracks p.shown ((MonadState.get : Recording StoredParser) p) (p, p) p.shown := .pure (p, p)
  exact ⟨b, r, looked.seq tracks, run⟩

theorem ite {c : Prop} [Decidable c] {x y : Recording α} {plain plain' : Parsing α} (yes : c → Follows x plain p)
    (no : ¬ c → Follows y plain' p) : Follows (if c then x else y) (if c then plain else plain') p := by
  by_cases holds : c
  · rw [if_pos holds, if_pos holds]
    exact yes holds
  · rw [if_neg holds, if_neg holds]
    exact no holds

/-- An access that the plain computation does not see. -/
theorem access {x : Recording α} {f : α → Recording β} {plain : Parsing β} {a : α} (silent : Tracks p.shown (x p) (a, p) p.shown)
    (h : Follows (f a) plain p) : Follows (x >>= f) plain p := by
  obtain ⟨b, r, tracks, run⟩ := h
  exact ⟨b, r, silent.seq tracks, run⟩

end Follows

end Recording

/-! ### The calls of the parser -/

/-- `at`, which throws past the end. -/
def StoredBuffer.readAt (b : StoredBuffer) (n : Nat) : Logged ParserEvent UInt8 :=
  .record (.access (.readAt b.size n)) b.str[n]?

/-- `remove_prefix`. -/
def StoredBuffer.dropFront (b : StoredBuffer) (n : Nat) : Logged ParserEvent StoredBuffer :=
  .record (.access (.removePrefix b.size n)) (b.removePrefix n)

/-- `_check_size`. -/
def StoredParser.checkSize (p : StoredParser) (size : Nat) : StoredParser :=
  if size > p.buffer.size then { p with error := .packetTooShort } else p

/-- The call that ends here, from the state it found. -/
def StoredParser.finish {α : Type} (before after : StoredParser) (val : Nat) (a : α) :
    Logged ParserEvent (α × StoredParser) :=
  .record (.call ⟨before.shown, after.shown, val⟩) (some (a, after))

namespace Recording

/-- The loop of `_parse_int` over `_buffer.at(i)`. -/
def readInt (b : StoredBuffer) (len : Nat) : Logged ParserEvent Nat :=
  (List.range len).foldlM (fun ret i => do
    let byte ← b.readAt i
    pure ((ret * 256 + byte.toNat) % 256 ^ len)) 0

/-- `_parse_int`. -/
def parseInt (len : Nat) : Recording Nat := fun p =>
  let q := p.checkSize len
  if q.error ≠ .noError then p.finish q 0 0
  else do
    let ret ← readInt q.buffer len
    let rest ← q.buffer.dropFront len
    p.finish { q with buffer := rest } ret ret

/-- `u32`. -/
def u32 : Recording UInt32 := UInt32.ofNat <$> parseInt 4

/-- `u16`. -/
def u16 : Recording UInt16 := UInt16.ofNat <$> parseInt 2

/-- `u8`. -/
def u8 : Recording UInt8 := UInt8.ofNat <$> parseInt 1

/-- The loop `for (auto &byte : array) byte = p.u8()` over an array of `n` bytes. -/
def bytes : (n : Nat) → Recording { l : List UInt8 // l.length = n }
  | 0 => pure ⟨[], rfl⟩
  | n + 1 => do
    let byte ← u8
    let ⟨rest, length⟩ ← bytes n
    pure ⟨byte :: rest, by rw [List.length_cons, length]⟩

/-- `NetParser::remove_prefix`. -/
def removePrefix (n : Nat) : Recording Unit := fun p =>
  let q := p.checkSize n
  if q.error ≠ .noError then p.finish q 0 ()
  else do
    let rest ← q.buffer.dropFront n
    p.finish { q with buffer := rest } 0 ()

/-- A difference of two `size_t`. -/
def subtract (a b : Nat) : Recording Nat := fun p => .record (.access (.difference a b)) (some (sub64 a b, p))

/-- The bytes `{str().data(), n}` given to a checksum. -/
def sumOver (b : StoredBuffer) (n : Nat) : Recording (List UInt8) := fun p =>
  .record (.access (.sumOver b.size n)) (if n ≤ b.size then some (b.str.take n, p) else none)

theorem shown_checkSize (p : StoredParser) (n : Nat) : (p.checkSize n).shown = p.shown.checkSize n := by
  rw [StoredParser.checkSize, NetParser.checkSize, apply_ite StoredParser.shown]
  rfl

theorem readInt_does {b : StoredBuffer} {len : Nat} (enough : len ≤ b.size) :
    (readInt b len).Does ParserEvent.Inside (NetParser.readInt b.str len) := by
  refine Logged.Does.foldlM (fun ret i member => ?_) 0
  have inside : i < b.size := Nat.lt_of_lt_of_le (List.mem_range.1 member) enough
  have read : (b.readAt i).Does ParserEvent.Inside b.str[i]? := .record _ ⟨.readAt b.size i, rfl, inside⟩
  rw [Option.map_eq_bind]
  exact read.bind_option fun byte _ => .pure _

theorem dropFront_does {b rest : StoredBuffer} {n : Nat} (enough : n ≤ b.size) (dropped : b.removePrefix n = some rest) :
    (b.dropFront n).Does ParserEvent.Inside (some rest) := by
  rw [← dropped]
  exact .record _ ⟨.removePrefix b.size n, rfl, enough⟩

section Calls

variable {α : Type} (p : StoredParser)

/-- A call that stops at its check. -/
theorem finish_error {n : Nat} (a : α) (error : (p.checkSize n).shown.error ≠ .noError)
    (kept : (p.checkSize n).shown.buffer = p.shown.buffer) :
    Tracks p.shown (p.finish (p.checkSize n) 0 a) (a, p.checkSize n) (p.checkSize n).shown :=
  Tracks.call (c := ⟨p.shown, (p.checkSize n).shown, 0⟩) _ fun _ => ⟨rfl, kept, error⟩

/-- A call that passes its check, which found no error. -/
theorem finish_clear {q : StoredParser} (val : Nat) (a : α) (clear : p.error = .noError) :
    Tracks p.shown (p.finish q val a) (a, q) q.shown :=
  Tracks.call (c := ⟨p.shown, q.shown, val⟩) _ fun error => absurd clear error

theorem parseInt_follows (len : Nat) : Follows (parseInt len) (NetParser.parseInt len) p := by
  have shown := shown_checkSize p len
  rcases p.shown.checkSize_cases len with ⟨error, kept⟩ | ⟨same, clear, enough⟩
  · have stopped := NetParser.parseInt_of_error error
    rw [← shown] at error kept stopped
    refine ⟨0, p.checkSize len, ?_, stopped⟩
    rw [parseInt, if_pos (show (p.checkSize len).error ≠ .noError from error)]
    exact finish_error p 0 error kept
  · obtain ⟨rest, dropped, left⟩ := StoredBuffer.removePrefix_of_le enough
    have passed : p.checkSize len = p := if_neg (Nat.not_lt.2 enough)
    have does := readInt_does enough
    rw [NetParser.readInt_of_le (b := p.buffer.str) enough] at does
    refine ⟨Octets.bigEndian (p.buffer.str.take len), { p with buffer := rest }, ?_, ?_⟩
    · rw [parseInt, passed, if_neg (show ¬ p.error ≠ .noError from not_not_intro clear)]
      refine (Tracks.accesses does).bind ((Tracks.accesses (dropFront_does enough dropped)).bind ?_)
      exact finish_clear p _ _ clear
    · rw [NetParser.parseInt_of_le same clear enough, StoredParser.shown, StoredParser.shown, left]

theorem u8_follows : Follows u8 NetParser.u8 p := (parseInt_follows p 1).map _

theorem u16_follows : Follows u16 NetParser.u16 p := (parseInt_follows p 2).map _

theorem u32_follows : Follows u32 NetParser.u32 p := (parseInt_follows p 4).map _

theorem bytes_follows (n : Nat) : Follows (bytes n) (NetParser.bytes n) p := by
  induction n generalizing p with
  | zero => exact .pure _
  | succ n ih =>
    refine (u8_follows p).bind fun byte q => (ih q).bind ?_
    rintro ⟨rest, length⟩ _
    exact .pure _

theorem removePrefix_follows (n : Nat) : Follows (removePrefix n) (NetParser.dropBytes n) p := by
  have shown := shown_checkSize p n
  rcases p.shown.checkSize_cases n with ⟨error, kept⟩ | ⟨same, clear, enough⟩
  · have stopped : NetParser.dropBytes n p.shown = some ((), p.shown.checkSize n) := by
      rw [NetParser.dropBytes]
      exact if_pos error
    rw [← shown] at error kept stopped
    refine ⟨(), p.checkSize n, ?_, stopped⟩
    rw [removePrefix, if_pos (show (p.checkSize n).error ≠ .noError from error)]
    exact finish_error p () error kept
  · obtain ⟨rest, dropped, left⟩ := StoredBuffer.removePrefix_of_le enough
    have passed : p.checkSize n = p := if_neg (Nat.not_lt.2 enough)
    refine ⟨(), { p with buffer := rest }, ?_, ?_⟩
    · rw [removePrefix, passed, if_neg (show ¬ p.error ≠ .noError from not_not_intro clear)]
      exact (Tracks.accesses (dropFront_does enough dropped)).bind (finish_clear p _ _ clear)
    · rw [NetParser.dropBytes, same, if_neg (not_not_intro clear), NetParser.removePrefix_of_le enough,
        Option.map_some, StoredParser.shown, StoredParser.shown, left]

/-- A length that does not underflow. -/
theorem subtract_tracks {a b : Nat} (order : b ≤ a) (fits : a < word64) :
    Tracks p.shown (subtract a b p) (a - b, p) p.shown := by
  rw [← sub64_eq order fits]
  exact .accesses (.record _ ⟨.difference a b, rfl, order⟩)

theorem sumOver_tracks {b : StoredBuffer} {n : Nat} (inside : n ≤ b.size) :
    Tracks p.shown (sumOver b n p) (b.str.take n, p) p.shown := by
  rw [sumOver, if_pos inside]
  exact .accesses (.record _ ⟨.sumOver b.size n, rfl, inside⟩)

end Calls

/-! ### What it means for a parser to be safe -/

/-- The parser returns, with the result of the plain one; every access is in range; an error, once set, stays. -/
structure Harmless {β : Type} (x : Logged ParserEvent β) (plain : Option β) : Prop where
  returns : ∃ b, x.result = some b ∧ plain = some b
  inRange : ∀ a, .access a ∈ x.log → ByteAccess.InRange a
  sticky : Sticky (parserCalls x.log)

/-- What is recorded and what is plain, behind a parser at `p`: both return the same. -/
def Agrees {β : Type} (p : NetParser) (x : Logged ParserEvent β) (plain : Option β) : Prop :=
  ∃ b q, Tracks p x b q ∧ plain = some b

namespace Agrees

variable {α β : Type} {p : NetParser}

theorem pure (b : β) : Agrees p (Pure.pure b : Logged ParserEvent β) (some b) := ⟨b, p, .pure b, rfl⟩

theorem ite {c : Prop} [Decidable c] {x y : Logged ParserEvent β} {plain plain' : Option β} (yes : c → Agrees p x plain)
    (no : ¬ c → Agrees p y plain') : Agrees p (if c then x else y) (if c then plain else plain') := by
  by_cases holds : c
  · rw [if_pos holds, if_pos holds]
    exact yes holds
  · rw [if_neg holds, if_neg holds]
    exact no holds

/-- Behind a computation on the parser. -/
theorem after {s : StoredParser} {x : Recording α} {plain : Parsing α} {f : α × StoredParser → Logged ParserEvent β}
    {g : α × NetParser → Option β} (first : Follows x plain s) (second : ∀ a q, Agrees q.shown (f (a, q)) (g (a, q.shown))) :
    Agrees s.shown (x s >>= f) (plain s.shown >>= g) := by
  obtain ⟨a, q, tracks, run⟩ := first
  obtain ⟨b, r, tracks', same⟩ := second a q
  refine ⟨b, r, tracks.bind tracks', ?_⟩
  rw [run]
  exact same

theorem harmless {x : Logged ParserEvent β} {plain : Option β} (agrees : Agrees p x plain) : Harmless x plain := by
  obtain ⟨b, q, tracks, same⟩ := agrees
  exact {
    returns := ⟨b, tracks.does.result, same⟩
    inRange := fun _ recorded => tracks.does.log _ recorded
    sticky := tracks.linked.sticky fun _ member => tracks.does.log _ (call_of_mem member) }

end Agrees

end Recording

end Sponge
