import Sponge.Util.Buffer

/-!
# Parsing and unparsing (`util/parser.hh`, `util/parser.cc`, `util/util.cc`)

A `NetParser` is a buffer with the first error met. Reading past the end sets
the error and returns zero, and so does every read after that; an access to the
buffer that throws is `none`.
-/

namespace Sponge

/-- `ParseResult`. -/
inductive ParseResult where
  | noError
  | badChecksum
  | packetTooShort
  | wrongIPVersion
  | headerTooShort
  | truncatedPacket
  | unsupported
  deriving DecidableEq

/-- `NetParser`. -/
structure NetParser where
  buffer : Buffer
  error : ParseResult := .noError
  deriving DecidableEq

/-- A computation on a parser. -/
abbrev Parsing : Type → Type := StateT NetParser Option

namespace NetParser

/-- `_check_size`. -/
def checkSize (p : NetParser) (size : Nat) : NetParser :=
  if size > p.buffer.length then { p with error := .packetTooShort } else p

/-- The loop of `_parse_int` over `_buffer.at(i)`, in a type of `len` bytes. -/
def readInt (b : Buffer) (len : Nat) : Option Nat :=
  (List.range len).foldlM (fun ret i => b[i]?.map fun byte => (ret * 256 + byte.toNat) % 256 ^ len) 0

/-- `_parse_int`. -/
def parseInt (len : Nat) : Parsing Nat := fun p =>
  let p := p.checkSize len
  if p.error ≠ .noError then some (0, p)
  else do
    let ret ← readInt p.buffer len
    let rest ← p.buffer.removePrefix len
    some (ret, { p with buffer := rest })

/-- `u32`. -/
def u32 : Parsing UInt32 := UInt32.ofNat <$> parseInt 4

/-- `u16`. -/
def u16 : Parsing UInt16 := UInt16.ofNat <$> parseInt 2

/-- `u8`. -/
def u8 : Parsing UInt8 := UInt8.ofNat <$> parseInt 1

/-- The loop `for (auto &byte : array) byte = p.u8()` over an array of `n` bytes. -/
def bytes : (n : Nat) → Parsing { l : List UInt8 // l.length = n }
  | 0 => pure ⟨[], rfl⟩
  | n + 1 => do
    let byte ← u8
    let ⟨rest, length⟩ ← bytes n
    pure ⟨byte :: rest, by rw [List.length_cons, length]⟩

/-- `remove_prefix`. -/
def dropBytes (n : Nat) : Parsing Unit := fun p =>
  let p := p.checkSize n
  if p.error ≠ .noError then some ((), p)
  else (p.buffer.removePrefix n).map fun rest => ((), { p with buffer := rest })

end NetParser

namespace NetUnparser

/-- `_unparse_int`: the bytes appended for a value of `len` bytes. -/
def unparseInt (len val : Nat) : List UInt8 :=
  (List.range len).map fun i => UInt8.ofNat (val / 256 ^ (len - i - 1))

/-- `u32`. -/
def u32 (val : UInt32) : List UInt8 := unparseInt 4 val.toNat

/-- `u16`. -/
def u16 (val : UInt16) : List UInt8 := unparseInt 2 val.toNat

/-- `u8`. -/
def u8 (val : UInt8) : List UInt8 := unparseInt 1 val.toNat

end NetUnparser

/-- `InternetChecksum`. -/
structure InternetChecksum where
  sum : UInt32 := 0
  parity : Bool := false
  deriving DecidableEq

namespace InternetChecksum

/-- One round of `add`: the first byte of a pair is the high one. -/
def addByte (c : InternetChecksum) (byte : UInt8) : InternetChecksum :=
  let val : UInt16 := if c.parity then byte.toUInt16 else byte.toUInt16 <<< 8
  { sum := c.sum + val.toUInt32, parity := !c.parity }

/-- `add`. -/
def add (c : InternetChecksum) (data : List UInt8) : InternetChecksum := data.foldl addByte c

/-- The loop of `value`: the carries are added back in. -/
def foldCarries (ret : Nat) : Nat :=
  if 0xffff < ret then foldCarries (ret / 0x10000 + ret % 0x10000) else ret
termination_by ret
decreasing_by omega

/-- `value`. -/
def value (c : InternetChecksum) : UInt16 := ~~~ UInt16.ofNat (foldCarries c.sum.toNat)

end InternetChecksum

end Sponge
