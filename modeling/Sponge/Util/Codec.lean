import Sponge.Logic.Octets
import Sponge.Util.Parser

/-!
# What is written is read back (`util/parser.cc`, `util/util.cc`)

`Parses` says that a computation on a parser consumes exactly the given bytes.
It is carried through `do` blocks field by field, so that a record's `parse` is
read off its layout. The checksum is the end-around sum of the 16-bit words.
-/

namespace Sponge

open Octets

/-- On a buffer that starts with these bytes, the computation reads them all and nothing else. -/
def Parses {α : Type} (read : Parsing α) (bytes : List UInt8) (value : α) : Prop :=
  ∀ rest : Buffer, read { buffer := bytes ++ rest } = some (value, { buffer := rest })

theorem Parsing.bind_of_some {α β : Type} {read : Parsing α} {next : α → Parsing β} {p p' : NetParser} {a : α}
    (first : read p = some (a, p')) : (read >>= next) p = next a p' := by
  show (read p).bind _ = _
  rw [first]
  rfl

theorem Parsing.get_eq (p : NetParser) : (get : Parsing NetParser) p = some (p, p) := rfl

namespace Parses

theorem bind {α β : Type} {read : Parsing α} {next : α → Parsing β} {front back : List UInt8} {a : α} {b : β}
    (first : Parses read front a) (second : Parses (next a) back b) : Parses (read >>= next) (front ++ back) b := by
  intro rest
  rw [List.append_assoc, Parsing.bind_of_some (first _)]
  exact second rest

/-- The last read of a `do` block. -/
theorem last {α β : Type} {read : Parsing α} {bytes : List UInt8} {a : α} (h : Parses read bytes a) (f : α → β) :
    Parses (read >>= fun a => pure (f a)) bytes (f a) := by
  intro rest
  rw [Parsing.bind_of_some (h rest)]
  rfl

theorem map {α β : Type} {read : Parsing α} {bytes : List UInt8} {a : α} (f : α → β) (h : Parses read bytes a) :
    Parses (f <$> read) bytes (f a) := h.last f

end Parses

/-- The computation never throws. If it leaves no error there was none before, and it has read `n` bytes. -/
def Consumes {α : Type} (read : Parsing α) (n : Nat) : Prop :=
  ∀ p, ∃ a p', read p = some (a, p') ∧
    (p'.error = .noError → p.error = .noError ∧ p'.buffer.length + n = p.buffer.length)

namespace Consumes

theorem bind {α β : Type} {read : Parsing α} {next : α → Parsing β} {m n : Nat} (first : Consumes read m)
    (second : ∀ a, Consumes (next a) n) : Consumes (read >>= next) (m + n) := by
  intro p
  obtain ⟨a, p', run, left⟩ := first p
  obtain ⟨b, p'', run', left'⟩ := second a p'
  refine ⟨b, p'', (Parsing.bind_of_some run).trans run', fun noError => ?_⟩
  obtain ⟨before, length'⟩ := left' noError
  obtain ⟨start, length⟩ := left before
  exact ⟨start, by omega⟩

/-- The last read of a `do` block. -/
theorem last {α β : Type} {read : Parsing α} {n : Nat} (h : Consumes read n) (f : α → β) :
    Consumes (read >>= fun a => pure (f a)) n := by
  intro p
  obtain ⟨a, p', run, left⟩ := h p
  exact ⟨f a, p', Parsing.bind_of_some run, left⟩

theorem map {α β : Type} {read : Parsing α} {n : Nat} (f : α → β) (h : Consumes read n) : Consumes (f <$> read) n :=
  h.last f

/-- Reading more than there is leaves an error. -/
theorem error_of_lt {α : Type} {read : Parsing α} {n : Nat} (h : Consumes read n) {p : NetParser}
    (short : p.buffer.length < n) : ∃ a p', read p = some (a, p') ∧ p'.error ≠ .noError := by
  obtain ⟨a, p', run, left⟩ := h p
  refine ⟨a, p', run, fun noError => ?_⟩
  have length := (left noError).2
  omega

end Consumes

namespace NetParser

theorem readInt_append (bytes rest : List UInt8) :
    readInt (bytes ++ rest) bytes.length = some (bigEndian bytes) := by
  -- the first `k` bytes spell a number that still fits the type
  have loop : ∀ k ≤ bytes.length, (List.range k).foldlM (fun ret i =>
      (bytes ++ rest)[i]?.map fun byte => (ret * 256 + byte.toNat) % 256 ^ bytes.length) 0 =
        some (bigEndian (bytes.take k)) := by
    intro k
    induction k with
    | zero => intro _; rfl
    | succ k ih =>
      intro inside
      have short := bigEndian_lt (bytes.take (k + 1))
      have size : (bytes.take (k + 1)).length ≤ bytes.length := by rw [List.length_take]; omega
      have fits := Nat.lt_of_lt_of_le short (Nat.pow_le_pow_right (by decide) size)
      rw [List.take_succ_eq_append_getElem (by omega), bigEndian_append_singleton] at fits ⊢
      rw [List.range_succ, List.foldlM_append, ih (by omega)]
      show (((bytes ++ rest)[k]?.map _).bind some) = _
      rw [List.getElem?_append_left (by omega), List.getElem?_eq_getElem (by omega), Option.map_some, Option.bind_some,
        Nat.mod_eq_of_lt fits]
  have all := loop bytes.length (Nat.le_refl _)
  rwa [List.take_length] at all

theorem readInt_of_le {len : Nat} {b : Buffer} (enough : len ≤ b.length) :
    readInt b len = some (bigEndian (b.take len)) := by
  have append := readInt_append (b.take len) (b.drop len)
  rwa [List.take_append_drop, List.length_take_of_le enough] at append

theorem checkSize_of_le {n : Nat} {b : Buffer} (enough : n ≤ b.length) :
    checkSize { buffer := b } n = { buffer := b } := if_neg (Nat.not_lt.2 enough)

theorem removePrefix_of_le {n : Nat} {b : Buffer} (enough : n ≤ b.length) : b.removePrefix n = some (b.drop n) :=
  if_neg (Nat.not_lt.2 enough)

theorem parseInt_parses (bytes : List UInt8) : Parses (parseInt bytes.length) bytes (bigEndian bytes) := by
  intro rest
  have enough : bytes.length ≤ (bytes ++ rest).length := by rw [List.length_append]; omega
  rw [parseInt, checkSize_of_le enough]
  dsimp only
  rw [if_neg (not_not_intro rfl), readInt_append, removePrefix_of_le enough, List.drop_left]
  rfl

theorem dropBytes_of_le {n : Nat} {b : Buffer} (enough : n ≤ b.length) :
    dropBytes n { buffer := b } = some ((), { buffer := b.drop n }) := by
  rw [dropBytes, checkSize_of_le enough]
  dsimp only
  rw [if_neg (not_not_intro rfl), removePrefix_of_le enough]
  rfl

theorem checkSize_of_lt {n : Nat} (p : NetParser) (short : p.buffer.length < n) :
    p.checkSize n = { p with error := .packetTooShort } := if_pos short

/-- What `_check_size` leaves: an error if there was one or the bytes are not there, the same parser otherwise. -/
theorem checkSize_cases (p : NetParser) (n : Nat) :
    ((p.checkSize n).error ≠ .noError ∧ (p.checkSize n).buffer = p.buffer) ∨
      (p.checkSize n = p ∧ p.error = .noError ∧ n ≤ p.buffer.length) := by
  rcases Nat.lt_or_ge p.buffer.length n with short | enough
  · rw [checkSize_of_lt p short]
    exact Or.inl ⟨by simp, rfl⟩
  · have same : p.checkSize n = p := if_neg (Nat.not_lt.2 enough)
    rw [same]
    by_cases clear : p.error = .noError
    · exact Or.inr ⟨rfl, clear, enough⟩
    · exact Or.inl ⟨clear, rfl⟩

theorem parseInt_of_error {p : NetParser} {len : Nat} (error : (p.checkSize len).error ≠ .noError) :
    parseInt len p = some (0, p.checkSize len) := by
  rw [parseInt]
  exact if_pos error

theorem parseInt_of_le {p : NetParser} {len : Nat} (same : p.checkSize len = p) (clear : p.error = .noError)
    (enough : len ≤ p.buffer.length) :
    parseInt len p = some (bigEndian (p.buffer.take len), { p with buffer := p.buffer.drop len }) := by
  rw [parseInt, same, if_neg (not_not_intro clear), readInt_of_le enough, removePrefix_of_le enough]
  rfl

theorem parseInt_consumes (len : Nat) : Consumes (parseInt len) len := by
  intro p
  rcases p.checkSize_cases len with ⟨error, -⟩ | ⟨same, clear, enough⟩
  · exact ⟨0, _, parseInt_of_error error, fun noError => absurd noError error⟩
  · refine ⟨_, _, parseInt_of_le same clear enough, fun _ => ⟨clear, ?_⟩⟩
    simp only [List.length_drop]
    omega

theorem u8_consumes : Consumes u8 1 := (parseInt_consumes 1).map _

theorem u16_consumes : Consumes u16 2 := (parseInt_consumes 2).map _

theorem u32_consumes : Consumes u32 4 := (parseInt_consumes 4).map _

/-- `remove_prefix` past the end sets the error and leaves the buffer. -/
theorem dropBytes_of_lt {n : Nat} {b : Buffer} (short : b.length < n) :
    dropBytes n { buffer := b } = some ((), { buffer := b, error := .packetTooShort }) := by
  rw [dropBytes, checkSize_of_lt { buffer := b } short]
  rfl

theorem dropBytes_of_error {n : Nat} {p : NetParser} (error : p.error ≠ .noError) :
    ∃ p', dropBytes n p = some ((), p') ∧ p'.error ≠ .noError := by
  rcases p.checkSize_cases n with ⟨stopped, -⟩ | ⟨-, clear, -⟩
  · exact ⟨p.checkSize n, by rw [dropBytes]; exact if_pos stopped, stopped⟩
  · exact absurd clear error

/-- The number that was written in `len` bytes is read back. -/
theorem parseInt_ofNat (len : Nat) {val : Nat} (fits : val < 256 ^ len) :
    Parses (parseInt len) (Octets.ofNat len val) val := by
  have read := parseInt_parses (Octets.ofNat len val)
  rwa [length_ofNat, bigEndian_ofNat, Nat.mod_eq_of_lt fits] at read

end NetParser

namespace NetUnparser

/-- `_unparse_int` writes the low bytes of the number, high byte first. -/
theorem unparseInt_eq (len val : Nat) : unparseInt len val = Octets.ofNat len val := by
  induction len generalizing val with
  | zero => rfl
  | succ len ih =>
    have shifted : ∀ i < len,
        UInt8.ofNat (val / 256 ^ (len + 1 - i - 1)) = UInt8.ofNat (val / 256 / 256 ^ (len - i - 1)) := by
      intro i inside
      rw [Nat.div_div_eq_div_mul, ← Nat.pow_succ', show (len - i - 1).succ = len + 1 - i - 1 by omega]
    rw [Octets.ofNat, ← ih, unparseInt, unparseInt, List.range_succ, List.map_append, List.map_singleton,
      show len + 1 - len - 1 = 0 by omega, Nat.pow_zero, Nat.div_one]
    exact congrArg (· ++ _) (List.map_congr_left fun i member => shifted i (List.mem_range.1 member))

@[simp] theorem length_u8 (val : UInt8) : (u8 val).length = 1 := rfl

@[simp] theorem length_u16 (val : UInt16) : (u16 val).length = 2 := rfl

@[simp] theorem length_u32 (val : UInt32) : (u32 val).length = 4 := rfl

theorem u8_eq (val : UInt8) : u8 val = [val] := by
  rw [u8, unparseInt_eq]
  exact congrArg (fun byte => [byte]) (UInt8.ofNat_toNat)

theorem u8_parses (val : UInt8) : Parses NetParser.u8 (u8 val) val := by
  have read := (NetParser.parseInt_ofNat 1 val.toNat_lt).map UInt8.ofNat
  rwa [UInt8.ofNat_toNat, ← unparseInt_eq] at read

theorem u16_parses (val : UInt16) : Parses NetParser.u16 (u16 val) val := by
  have read := (NetParser.parseInt_ofNat 2 val.toNat_lt).map UInt16.ofNat
  rwa [UInt16.ofNat_toNat, ← unparseInt_eq] at read

theorem u32_parses (val : UInt32) : Parses NetParser.u32 (u32 val) val := by
  have read := (NetParser.parseInt_ofNat 4 val.toNat_lt).map UInt32.ofNat
  rwa [UInt32.ofNat_toNat, ← unparseInt_eq] at read

/-- Any bytes are those of some number. -/
theorem exists_unparseInt (len : Nat) (b : Buffer) (enough : len ≤ b.length) :
    ∃ val, val < 256 ^ len ∧ b = unparseInt len val ++ b.drop len := by
  have size : (b.take len).length = len := List.length_take_of_le enough
  have small := bigEndian_lt (b.take len)
  have bytes := ofNat_bigEndian (b.take len)
  rw [size] at small bytes
  refine ⟨bigEndian (b.take len), small, ?_⟩
  rw [unparseInt_eq, bytes, List.take_append_drop]

theorem exists_u8 (b : Buffer) (enough : 1 ≤ b.length) : ∃ val, b = u8 val ++ b.drop 1 := by
  obtain ⟨val, small, bytes⟩ := exists_unparseInt 1 b enough
  refine ⟨UInt8.ofNat val, ?_⟩
  rwa [u8, UInt8.toNat_ofNat_of_lt' small]

theorem exists_u16 (b : Buffer) (enough : 2 ≤ b.length) : ∃ val, b = u16 val ++ b.drop 2 := by
  obtain ⟨val, small, bytes⟩ := exists_unparseInt 2 b enough
  refine ⟨UInt16.ofNat val, ?_⟩
  rwa [u16, UInt16.toNat_ofNat_of_lt' small]

theorem exists_u32 (b : Buffer) (enough : 4 ≤ b.length) : ∃ val, b = u32 val ++ b.drop 4 := by
  obtain ⟨val, small, bytes⟩ := exists_unparseInt 4 b enough
  refine ⟨UInt32.ofNat val, ?_⟩
  rwa [u32, UInt32.toNat_ofNat_of_lt' small]

end NetUnparser

namespace InternetChecksum

/-- The loop of `value` leaves the end-around sum. -/
theorem foldCarries_eq (ret : Nat) : foldCarries ret = endAround ret := by
  induction ret using Nat.strongRecOn with
  | ind ret ih =>
    rw [foldCarries]
    split
    · rw [ih _ (by omega), endAround_carry]
    · exact (endAround_of_le (by omega)).symm

theorem toNat_value (c : InternetChecksum) : c.value.toNat = 0xffff - endAround c.sum.toNat := by
  have small := endAround_le c.sum.toNat
  rw [value, UInt16.toNat_not, UInt16.toNat_ofNat_of_lt' (by rw [foldCarries_eq]; exact Nat.lt_succ_of_le small),
    foldCarries_eq]
  rfl

theorem value_eq_zero {c : InternetChecksum} (full : endAround c.sum.toNat = 0xffff) : c.value = 0 := by
  apply UInt16.toNat_inj.1
  rw [toNat_value, full]
  rfl

theorem value_eq_zero_iff (c : InternetChecksum) : c.value = 0 ↔ endAround c.sum.toNat = 0xffff := by
  refine ⟨fun zero => ?_, value_eq_zero⟩
  have small := endAround_le c.sum.toNat
  have value := c.toNat_value
  rw [zero, UInt16.toNat_zero] at value
  omega

theorem add_append (c : InternetChecksum) (front back : List UInt8) : c.add (front ++ back) = (c.add front).add back :=
  List.foldl_append

theorem toNat_addByte (c : InternetChecksum) (byte : UInt8) :
    (c.addByte byte).sum.toNat = (c.sum.toNat + if c.parity then byte.toNat else byte.toNat * 256) % 2 ^ 32 := by
  have small : byte.toNat < 256 := byte.toNat_lt
  rw [addByte]
  dsimp only
  rw [UInt32.toNat_add]
  split
  · rw [UInt16.toNat_toUInt32, UInt8.toNat_toUInt16]
  · have shift : (byte.toUInt16 <<< 8).toNat = byte.toNat * 256 := by
      rw [UInt16.toNat_shiftLeft, UInt8.toNat_toUInt16, Nat.shiftLeft_eq]
      show byte.toNat * 256 % 65536 = _
      omega
    rw [UInt16.toNat_toUInt32, shift]

/-- As long as the 32 bits do not overflow, `add` adds the words up. -/
theorem toNat_add (c : InternetChecksum) (data : List UInt8) (fits : c.sum.toNat + pairSum c.parity data < 2 ^ 32) :
    (c.add data).sum.toNat = c.sum.toNat + pairSum c.parity data := by
  induction data generalizing c with
  | nil => rfl
  | cons byte rest ih =>
    rw [pairSum] at fits ⊢
    have first := toNat_addByte c byte
    rw [Nat.mod_eq_of_lt (by omega)] at first
    show ((c.addByte byte).add rest).sum.toNat = _
    rw [ih (c.addByte byte) (by rw [first]; exact Nat.add_assoc _ _ _ ▸ fits), first, Nat.add_assoc]
    rfl

/-- **The value written into its own field makes the checksum zero**, for a field at an even offset. -/
theorem value_of_written (c : InternetChecksum) (aligned : c.parity = false) (front back : List UInt8)
    (even : front.length % 2 = 0) (fits : c.sum.toNat + 0xff00 * (front.length + 2 + back.length) < 2 ^ 32) :
    (c.add (front ++ (NetUnparser.u16 (c.add (front ++ (NetUnparser.u16 0 ++ back))).value ++ back))).value = 0 := by
  have room : ∀ val, c.sum.toNat + pairSum c.parity (front ++ (NetUnparser.u16 val ++ back)) < 2 ^ 32 := by
    intro val
    have bound := pairSum_le c.parity (front ++ (NetUnparser.u16 val ++ back))
    rw [List.length_append, List.length_append, NetUnparser.length_u16] at bound
    omega
  have zero := toNat_add c _ (room 0)
  have written := toNat_add c _ (room (c.add (front ++ (NetUnparser.u16 0 ++ back))).value)
  apply value_eq_zero
  rw [written, aligned]
  rw [aligned] at zero
  simp only [NetUnparser.u16, NetUnparser.unparseInt_eq, UInt16.toNat_zero] at zero ⊢
  rw [pairSum_word front back even (UInt16.toNat_lt _), toNat_value, zero, ← Nat.add_assoc]
  exact endAround_complement _

end InternetChecksum

end Sponge
