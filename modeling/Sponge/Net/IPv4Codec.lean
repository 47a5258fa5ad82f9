import Sponge.Net.IPv4Datagram
import Sponge.Util.Codec

/-!
# What `IPv4Datagram::parse` accepts, and the round trip

The twenty bytes of a header are `Fields`, one field after the other; any twenty
bytes are those of some `Fields`, so `parse` is followed on every input.
-/

namespace Sponge

open Octets

namespace IPv4Header

/-- The header as it stands in its first twenty bytes. -/
structure Fields where
  first : UInt8
  tos : UInt8
  len : UInt16
  id : UInt16
  foVal : UInt16
  ttl : UInt8
  proto : UInt8
  cksum : UInt16
  src : UInt32
  dst : UInt32

namespace Fields

def bytes (f : Fields) : List UInt8 :=
  NetUnparser.u8 f.first ++ (NetUnparser.u8 f.tos ++ (NetUnparser.u16 f.len ++ (NetUnparser.u16 f.id ++
    (NetUnparser.u16 f.foVal ++ (NetUnparser.u8 f.ttl ++ (NetUnparser.u8 f.proto ++ (NetUnparser.u16 f.cksum ++
      (NetUnparser.u32 f.src ++ NetUnparser.u32 f.dst))))))))

/-- The header that `parse` reads from the fields. -/
def header (f : Fields) : IPv4Header where
  ver := f.first >>> 4
  hlen := f.first &&& 0x0f
  tos := f.tos
  len := f.len
  id := f.id
  df := f.foVal &&& 0x4000 != 0
  mf := f.foVal &&& 0x2000 != 0
  offset := f.foVal &&& 0x1fff
  ttl := f.ttl
  proto := f.proto
  cksum := f.cksum
  src := f.src
  dst := f.dst

/-- The fields before the checksum, and those behind it. -/
theorem bytes_eq (f : Fields) : ∃ front back : List UInt8, front.length = 10 ∧ back.length = 8 ∧
    ∀ cksum, { f with cksum }.bytes = front ++ (NetUnparser.u16 cksum ++ back) := by
  refine ⟨NetUnparser.u8 f.first ++ (NetUnparser.u8 f.tos ++ (NetUnparser.u16 f.len ++ (NetUnparser.u16 f.id ++
    (NetUnparser.u16 f.foVal ++ (NetUnparser.u8 f.ttl ++ NetUnparser.u8 f.proto))))),
    NetUnparser.u32 f.src ++ NetUnparser.u32 f.dst, rfl, rfl, fun cksum => ?_⟩
  simp only [bytes, List.append_assoc]

theorem length_bytes (f : Fields) : f.bytes.length = headerLength := rfl

theorem parses (h : IPv4Header) (f : Fields) : Parses h.parseFields f.bytes f.header :=
  (NetUnparser.u8_parses f.first).bind <| (NetUnparser.u8_parses f.tos).bind <|
    (NetUnparser.u16_parses f.len).bind <| (NetUnparser.u16_parses f.id).bind <|
    (NetUnparser.u16_parses f.foVal).bind <| (NetUnparser.u8_parses f.ttl).bind <|
    (NetUnparser.u8_parses f.proto).bind <| (NetUnparser.u16_parses f.cksum).bind <|
    (NetUnparser.u32_parses f.src).bind <| (NetUnparser.u32_parses f.dst).last _

/-- Any twenty bytes are the fields of some header. -/
theorem exists_eq (b : Buffer) (enough : headerLength ≤ b.length) : ∃ f : Fields, b = f.bytes ++ b.drop headerLength := by
  simp only [headerLength] at enough ⊢
  obtain ⟨first, b0⟩ := NetUnparser.exists_u8 b (by omega)
  obtain ⟨tos, b1⟩ := NetUnparser.exists_u8 (b.drop 1) (by simp; omega)
  obtain ⟨len, b2⟩ := NetUnparser.exists_u16 (b.drop 2) (by simp; omega)
  obtain ⟨id, b4⟩ := NetUnparser.exists_u16 (b.drop 4) (by simp; omega)
  obtain ⟨foVal, b6⟩ := NetUnparser.exists_u16 (b.drop 6) (by simp; omega)
  obtain ⟨ttl, b8⟩ := NetUnparser.exists_u8 (b.drop 8) (by simp; omega)
  obtain ⟨proto, b9⟩ := NetUnparser.exists_u8 (b.drop 9) (by simp; omega)
  obtain ⟨cksum, b10⟩ := NetUnparser.exists_u16 (b.drop 10) (by simp; omega)
  obtain ⟨src, b12⟩ := NetUnparser.exists_u32 (b.drop 12) (by simp; omega)
  obtain ⟨dst, b16⟩ := NetUnparser.exists_u32 (b.drop 16) (by simp; omega)
  refine ⟨⟨first, tos, len, id, foVal, ttl, proto, cksum, src, dst⟩, ?_⟩
  simp only [List.drop_drop] at b1 b2 b4 b6 b8 b9 b10 b12 b16
  conv_lhs => rw [b0, b1, b2, b4, b6, b8, b9, b10, b12, b16]
  simp only [bytes, List.append_assoc]

end Fields

/-- The checks of `parse` between the fields and the checksum. -/
structure Sound (h : IPv4Header) (size : Nat) : Prop where
  present : 4 * h.hlen.toNat ≤ size
  version : h.ver = 4
  words : 5 ≤ h.hlen
  total : size = h.len.toNat

/-- What `parse` does after the fields. -/
def checks (h : IPv4Header) (original : Buffer) : Parsing (IPv4Header × ParseResult) := do
  if original.length < 4 * h.hlen.toNat then return (h, .packetTooShort)
  if h.ver ≠ 4 then return (h, .wrongIPVersion)
  if h.hlen < 5 then return (h, .headerTooShort)
  if original.length ≠ h.len.toNat then return (h, .truncatedPacket)
  NetParser.dropBytes (h.hlen.toNat * 4 - headerLength)
  let error := (← get).error
  if error ≠ .noError then return (h, error)
  if (({} : InternetChecksum).add (original.take (4 * h.hlen.toNat))).value ≠ 0 then return (h, .badChecksum)
  return (h, .noError)

section Parse

variable (h : IPv4Header) (f : Fields) (rest : Buffer)

theorem parse_short {b : Buffer} (short : b.length < headerLength) :
    h.parse { buffer := b } = some ((h, .packetTooShort), { buffer := b }) := by
  rw [parse, Parsing.bind_of_some (Parsing.get_eq _)]
  dsimp only
  rw [if_pos short]
  rfl

theorem parse_fields : h.parse { buffer := f.bytes ++ rest } = f.header.checks (f.bytes ++ rest) { buffer := rest } := by
  have long : ¬ (f.bytes ++ rest).length < headerLength := by
    rw [List.length_append, f.length_bytes]
    omega
  rw [parse, Parsing.bind_of_some (Parsing.get_eq _)]
  dsimp only
  rw [if_neg long, Parsing.bind_of_some (f.parses h rest)]
  rfl

/-- Sound fields leave the payload, and the result is that of the checksum. -/
theorem parse_sound (sound : f.header.Sound (f.bytes ++ rest).length) :
    h.parse { buffer := f.bytes ++ rest } = some
      ((f.header, if (({} : InternetChecksum).add ((f.bytes ++ rest).take (4 * f.header.hlen.toNat))).value ≠ 0 then
        .badChecksum else .noError), { buffer := (f.bytes ++ rest).drop (4 * f.header.hlen.toNat) }) := by
  obtain ⟨present, version, words, total⟩ := sound
  have least : 5 ≤ f.header.hlen.toNat := UInt8.le_iff_toNat_le.1 words
  have payload : (f.bytes ++ rest).drop (4 * f.header.hlen.toNat) = rest.drop (f.header.hlen.toNat * 4 - headerLength) := by
    rw [List.drop_append, f.length_bytes, List.drop_eq_nil_of_le (by rw [f.length_bytes, headerLength]; omega),
      List.nil_append, Nat.mul_comm]
  have skipped := NetParser.dropBytes_of_le (n := f.header.hlen.toNat * 4 - headerLength) (b := rest)
    (by rw [List.length_append, f.length_bytes] at present; omega)
  rw [parse_fields, checks, if_neg (by omega), if_neg (not_not_intro version), if_neg (UInt8.not_lt.2 words),
    if_neg (not_not_intro total), Parsing.bind_of_some skipped, Parsing.bind_of_some (Parsing.get_eq _), payload]
  dsimp only
  rw [if_neg (not_not_intro rfl)]
  split <;> rfl

/-- Fields that are not sound leave the parser behind them, with no error set. -/
theorem parse_unsound (unsound : ¬ f.header.Sound (f.bytes ++ rest).length) :
    ∃ error, error ≠ .noError ∧
      h.parse { buffer := f.bytes ++ rest } = some ((f.header, error), { buffer := rest }) := by
  rw [parse_fields, checks]
  by_cases short : (f.bytes ++ rest).length < 4 * f.header.hlen.toNat
  · exact ⟨.packetTooShort, nofun, by rw [if_pos short]; rfl⟩
  rw [if_neg short]
  by_cases version : f.header.ver ≠ 4
  · exact ⟨.wrongIPVersion, nofun, by rw [if_pos version]; rfl⟩
  rw [if_neg version]
  by_cases words : f.header.hlen < 5
  · exact ⟨.headerTooShort, nofun, by rw [if_pos words]; rfl⟩
  rw [if_neg words]
  by_cases total : (f.bytes ++ rest).length ≠ f.header.len.toNat
  · exact ⟨.truncatedPacket, nofun, by rw [if_pos total]; rfl⟩
  exact absurd ⟨Nat.le_of_not_lt short, not_not.1 version, UInt8.not_lt.1 words, not_not.1 total⟩ unsound

end Parse

theorem toNat_payloadLength (h : IPv4Header) :
    h.payloadLength.toNat = (h.len.toNat + 0x10000 - 4 * h.hlen.toNat) % 0x10000 := by
  have small : h.hlen.toNat < 256 := h.hlen.toNat_lt
  have words : (4 * h.hlen.toUInt16).toNat = 4 * h.hlen.toNat := by
    rw [UInt16.toNat_mul, UInt8.toNat_toUInt16]
    exact Nat.mod_eq_of_lt (show 4 * h.hlen.toNat < 65536 by omega)
  rw [payloadLength, UInt16.toNat_sub, words]
  show (65536 - _ + _) % 65536 = _
  omega

end IPv4Header

namespace IPv4Datagram

open IPv4Header (Fields headerLength)

/-- The version nibble. -/
def version (b : Buffer) : UInt8 := b.headD 0 >>> 4

/-- The header length, in words. -/
def headerWords (b : Buffer) : Nat := (b.headD 0 &&& 0x0f).toNat

/-- The total-length field. -/
def totalLength (b : Buffer) : Nat := bigEndian ((b.drop 2).take 2)

/-- A whole header and the announced length. -/
structure Framed (b : Buffer) : Prop where
  size : headerLength ≤ b.length
  version : version b = 4
  words : 5 ≤ headerWords b
  present : 4 * headerWords b ≤ b.length
  total : totalLength b = b.length

/-- The checksum over the header. -/
def headerChecksum (b : Buffer) : UInt16 := (({} : InternetChecksum).add (b.take (4 * headerWords b))).value

/-- A valid datagram. -/
structure Valid (b : Buffer) : Prop extends Framed b where
  checksum : headerChecksum b = 0

/-- The length of the payload that the header announces, in 16 bits. -/
def announced (b : Buffer) : Nat := (totalLength b + 0x10000 - 4 * headerWords b) % 0x10000

section Header

variable (f : Fields) (rest : Buffer)

theorem headD_bytes : (f.bytes ++ rest).headD 0 = f.first := by
  rw [Fields.bytes, NetUnparser.u8_eq]
  rfl

theorem headerWords_bytes : headerWords (f.bytes ++ rest) = f.header.hlen.toNat := by
  rw [headerWords, headD_bytes]
  rfl

theorem totalLength_bytes : totalLength (f.bytes ++ rest) = f.header.len.toNat := by
  have field : ((f.bytes ++ rest).drop 2).take 2 = NetUnparser.u16 f.len := rfl
  have fits : f.len.toNat < 256 ^ 2 := f.len.toNat_lt
  rw [totalLength, field, NetUnparser.u16, NetUnparser.unparseInt_eq, bigEndian_ofNat, Nat.mod_eq_of_lt fits]
  rfl

theorem framed_iff : Framed (f.bytes ++ rest) ↔ f.header.Sound (f.bytes ++ rest).length := by
  have words : 5 ≤ f.header.hlen ↔ 5 ≤ f.header.hlen.toNat := UInt8.le_iff_toNat_le
  constructor
  · rintro ⟨-, version, least, present, total⟩
    rw [headerWords_bytes] at least present
    rw [Sponge.IPv4Datagram.version, headD_bytes] at version
    rw [totalLength_bytes] at total
    exact ⟨present, version, words.2 least, total.symm⟩
  · rintro ⟨present, version, least, total⟩
    refine ⟨by rw [List.length_append, f.length_bytes]; omega, ?_, ?_, ?_, ?_⟩
    · rw [Sponge.IPv4Datagram.version, headD_bytes]
      exact version
    · rw [headerWords_bytes]
      exact words.1 least
    · rw [headerWords_bytes]
      exact present
    · rw [totalLength_bytes]
      exact total.symm

theorem announced_bytes : announced (f.bytes ++ rest) = f.header.payloadLength.toNat := by
  rw [announced, totalLength_bytes, headerWords_bytes, IPv4Header.toNat_payloadLength]

end Header

/-- The result is the parser's error, unless the payload does not have the announced length. -/
theorem parse_of_header {d : IPv4Datagram} {b : Buffer} {h : IPv4Header} {e : ParseResult} {p : NetParser}
    (run : d.header.parse { buffer := b } = some ((h, e), p)) :
    parse d b = some (⟨h, .ofString p.buffer⟩,
      if p.buffer.length ≠ h.payloadLength.toNat then .packetTooShort else p.error) := by
  rw [parse, run, Option.bind_eq_bind, Option.bind_some]
  dsimp only
  rw [BufferList.size_ofString]
  split <;> rfl

/-- What `parse` returns: a datagram whose fields are sound is accepted, and so is any other one of the right length. -/
theorem parse_result (b : Buffer) : ∃ d r, parse {} b = some (d, r) ∧
    (r = .noError ↔ Framed b ∨ headerLength ≤ b.length ∧ b.length - headerLength = announced b) ∧
    (Framed b → d.payload.concatenate = b.drop (4 * headerWords b)) := by
  by_cases enough : headerLength ≤ b.length
  · obtain ⟨f, bytes⟩ := Fields.exists_eq b enough
    generalize b.drop headerLength = rest at bytes
    subst bytes
    by_cases framed : Framed (f.bytes ++ rest)
    · -- the payload starts after the header and has the announced length
      have run := parse_of_header (d := {}) (IPv4Header.parse_sound {} f rest ((framed_iff f rest).1 framed))
      have present := framed.present
      have length : ((f.bytes ++ rest).drop (4 * f.header.hlen.toNat)).length = f.header.payloadLength.toNat := by
        have total := framed.total
        have bound : f.header.len.toNat < 0x10000 := f.header.len.toNat_lt
        rw [totalLength_bytes] at total
        rw [headerWords_bytes] at present
        rw [List.length_drop, IPv4Header.toNat_payloadLength]
        omega
      dsimp only at run
      rw [if_neg (not_not_intro length)] at run
      exact ⟨_, _, run, ⟨fun _ => .inl framed, fun _ => rfl⟩, fun _ => by
        rw [BufferList.concatenate_ofString, headerWords_bytes]⟩
    · -- the parser stands behind the twenty bytes, with no error set
      obtain ⟨e, -, header⟩ := IPv4Header.parse_unsound {} f rest (mt (framed_iff f rest).2 framed)
      have length : (f.bytes ++ rest).length - headerLength = rest.length := by
        rw [List.length_append, f.length_bytes, Nat.add_sub_cancel_left]
      refine ⟨_, _, parse_of_header (d := {}) header, ?_, fun h => absurd h framed⟩
      rw [announced_bytes, length]
      by_cases same : rest.length = f.header.payloadLength.toNat
      · rw [if_neg (not_not_intro same)]
        exact ⟨fun _ => .inr ⟨enough, same⟩, fun _ => rfl⟩
      · rw [if_pos same]
        exact ⟨nofun, fun other => absurd (other.resolve_left framed).2 same⟩
  · have run := parse_of_header (d := {}) (IPv4Header.parse_short {} (Nat.lt_of_not_le enough))
    have default : (({} : IPv4Datagram).header.payloadLength).toNat = 65516 := by decide
    dsimp only at run
    rw [default, if_pos (by simp only [headerLength] at enough; omega)] at run
    refine ⟨_, _, run, ⟨nofun, ?_⟩, fun framed => absurd framed.size enough⟩
    rintro (framed | ⟨size, -⟩)
    · exact absurd framed.size enough
    · exact absurd size enough

/-- `parse` returns `NoError` for the valid datagrams only, with the bytes behind the header as payload, and reports
what the header's `parse` finds. -/
def AcceptsExactly (b : Buffer) : Prop :=
  ∃ d r, parse {} b = some (d, r) ∧ (r = .noError ↔ Valid b) ∧
    (r = .noError → d.payload.concatenate = b.drop (4 * headerWords b)) ∧
    ∀ h e p, IPv4Header.parse {} { buffer := b } = some ((h, e), p) → e ≠ .noError → r ≠ .noError

/-- An error of the header that is not reported: a wrong checksum, or any of the other ones when the bytes behind the
first twenty are as many as the header announces. -/
def Overlooked (b : Buffer) : Prop :=
  (Framed b ∧ headerChecksum b ≠ 0) ∨ (¬ Framed b ∧ headerLength ≤ b.length ∧ b.length - headerLength = announced b)

/-- The header's own `parse` accepts a valid datagram. -/
theorem Valid.header_parse {b : Buffer} (valid : Valid b) {h : IPv4Header} {e : ParseResult} {p : NetParser}
    (run : IPv4Header.parse {} { buffer := b } = some ((h, e), p)) : e = .noError := by
  obtain ⟨f, bytes⟩ := Fields.exists_eq b valid.size
  generalize b.drop headerLength = rest at bytes
  subst bytes
  have checksum := valid.checksum
  rw [headerChecksum, headerWords_bytes] at checksum
  rw [IPv4Header.parse_sound {} f rest ((framed_iff f rest).1 valid.toFramed), if_neg (not_not_intro checksum)] at run
  cases run
  rfl

/-- **What `parse` accepts** is exactly the valid datagrams, apart from the errors that are overlooked. -/
theorem accepts_exactly_iff (b : Buffer) : AcceptsExactly b ↔ ¬ Overlooked b := by
  obtain ⟨d, r, run, accepted, payload⟩ := parse_result b
  constructor
  · rintro ⟨d', r', run', exact, -, -⟩ overlooked
    cases run.symm.trans run'
    rcases overlooked with ⟨framed, checksum⟩ | ⟨unframed, size, length⟩
    · exact checksum (exact.1 (accepted.2 (.inl framed))).checksum
    · exact unframed (exact.1 (accepted.2 (.inr ⟨size, length⟩))).toFramed
  · intro none
    have framed : r = .noError → Framed b := by
      intro noError
      rcases accepted.1 noError with framed | other
      · exact framed
      · by_contra unframed
        exact none (.inr ⟨unframed, other⟩)
    have valid : r = .noError ↔ Valid b := by
      refine ⟨fun noError => ⟨framed noError, ?_⟩, fun valid => accepted.2 (.inl valid.toFramed)⟩
      by_contra checksum
      exact none (.inl ⟨framed noError, checksum⟩)
    refine ⟨d, r, run, valid, fun noError => payload (framed noError), fun h e p header error noError => ?_⟩
    exact error ((valid.1 noError).header_parse header)

/-- A header of twenty bytes with a checksum field of zero is accepted. -/
theorem bad_checksum_accepted : ¬ ∀ b, AcceptsExactly b := by
  intro claim
  obtain ⟨d, r, run, exact, -⟩ := claim (0x45 :: 0 :: 0 :: 20 :: List.replicate 16 0)
  obtain ⟨d', r', run', accepted, -⟩ := parse_result (0x45 :: 0 :: 0 :: 20 :: List.replicate 16 0)
  cases run.symm.trans run'
  have framed : Framed (0x45 :: 0 :: 0 :: 20 :: List.replicate 16 0) :=
    ⟨by decide, by decide, by decide, by decide, by decide⟩
  exact absurd (exact.1 (accepted.2 (.inl framed))).checksum (by decide +kernel)

end IPv4Datagram

namespace IPv4Header

theorem or_and (a b m : UInt16) : (a ||| b) &&& m = (a &&& m) ||| (b &&& m) :=
  UInt16.eq_of_toBitVec_eq BitVec.and_or_distrib_right

/-- `fo_val`: the flags and the offset share a word. -/
def foVal (h : IPv4Header) : UInt16 :=
  (if h.df then 0x4000 else 0) ||| (if h.mf then 0x2000 else 0) ||| (h.offset &&& 0x1fff)

theorem foVal_and (h : IPv4Header) (m : UInt16) : h.foVal &&& m =
    ((if h.df then 0x4000 &&& m else 0) ||| (if h.mf then 0x2000 &&& m else 0)) ||| (h.offset &&& (0x1fff &&& m)) := by
  rw [foVal, or_and, or_and, UInt16.and_assoc]
  cases h.df <;> cases h.mf <;> simp

theorem foVal_df (h : IPv4Header) : (h.foVal &&& 0x4000 != 0) = h.df := by
  rw [foVal_and, show (0x4000 &&& 0x4000 : UInt16) = 0x4000 from rfl, show (0x2000 &&& 0x4000 : UInt16) = 0 from rfl,
    show (0x1fff &&& 0x4000 : UInt16) = 0 from rfl]
  cases h.df <;> cases h.mf <;> simp

theorem foVal_mf (h : IPv4Header) : (h.foVal &&& 0x2000 != 0) = h.mf := by
  rw [foVal_and, show (0x4000 &&& 0x2000 : UInt16) = 0 from rfl, show (0x2000 &&& 0x2000 : UInt16) = 0x2000 from rfl,
    show (0x1fff &&& 0x2000 : UInt16) = 0 from rfl]
  cases h.df <;> cases h.mf <;> simp

theorem foVal_offset {h : IPv4Header} (small : h.offset < 0x2000) : h.foVal &&& 0x1fff = h.offset := by
  have whole : h.offset &&& 0x1fff = h.offset := by
    apply UInt16.toNat_inj.1
    rw [UInt16.toNat_and]
    exact (Nat.and_two_pow_sub_one_eq_mod h.offset.toNat 13).trans (Nat.mod_eq_of_lt (UInt16.lt_iff_toNat_lt.1 small))
  rw [foVal_and, show (0x4000 &&& 0x1fff : UInt16) = 0 from rfl, show (0x2000 &&& 0x1fff : UInt16) = 0 from rfl,
    show (0x1fff &&& 0x1fff : UInt16) = 0x1fff from rfl, whole]
  cases h.df <;> cases h.mf <;> simp

/-- `first_byte`: version and header length share a byte. -/
def firstByte (h : IPv4Header) : UInt8 := (h.ver <<< 4) ||| (h.hlen &&& 0xf)

theorem firstByte_spec {h : IPv4Header} (version : h.ver = 4) (words : h.hlen ≤ 15) :
    h.firstByte >>> 4 = h.ver ∧ h.firstByte &&& 0x0f = h.hlen := by
  have all : ∀ hlen : BitVec 8, hlen ≤ 15 →
      (((4 : UInt8) <<< 4) ||| (UInt8.ofBitVec hlen &&& 0xf)) >>> 4 = 4 ∧
        (((4 : UInt8) <<< 4) ||| (UInt8.ofBitVec hlen &&& 0xf)) &&& 0x0f = UInt8.ofBitVec hlen := by decide +kernel
  rw [firstByte, version]
  exact all h.hlen.toBitVec words

/-- The fields that `serialize` writes. -/
def fields (h : IPv4Header) : Fields :=
  ⟨h.firstByte, h.tos, h.len, h.id, h.foVal, h.ttl, h.proto, h.cksum, h.src, h.dst⟩

/-- What can be written and read back: version 4, five to fifteen words, an offset of thirteen bits. -/
structure Writable (h : IPv4Header) : Prop where
  version : h.ver = 4
  least : 5 ≤ h.hlen
  most : h.hlen ≤ 15
  offset : h.offset < 0x2000

theorem Writable.header_fields {h : IPv4Header} (writable : h.Writable) : h.fields.header = h := by
  obtain ⟨version, words⟩ := firstByte_spec writable.version writable.most
  rw [fields, Fields.header]
  dsimp only
  rw [version, words, foVal_df, foVal_mf, foVal_offset writable.offset]

theorem Writable.serialize_eq {h : IPv4Header} (writable : h.Writable) :
    h.serialize = some (h.fields.bytes ++ List.replicate (4 * h.hlen.toNat - headerLength) 0) := by
  have least : 5 ≤ h.hlen.toNat := UInt8.le_iff_toNat_le.1 writable.least
  rw [serialize, if_neg (not_not_intro writable.version), if_neg (by rw [headerLength]; omega)]
  simp only [List.append_assoc]
  rfl

/-- The checksum that is written closes the sum over the header. -/
theorem checksum_written (f : Fields) (pad : List UInt8) (short : pad.length ≤ 40) :
    (({} : InternetChecksum).add ({ f with cksum :=
      (({} : InternetChecksum).add ({ f with cksum := 0 }.bytes ++ pad)).value }.bytes ++ pad)).value = 0 := by
  obtain ⟨front, back, ten, eight, bytes⟩ := f.bytes_eq
  simp only [bytes, List.append_assoc]
  refine InternetChecksum.value_of_written {} rfl front (back ++ pad) (by rw [ten]) ?_
  rw [List.length_append, ten, eight]
  show 0 + 0xff00 * (10 + 2 + (8 + pad.length)) < 2 ^ 32
  omega

end IPv4Header

namespace IPv4Datagram

open IPv4Header (Fields headerLength)

/-- The output of `serialize`: the header with its checksum, zeros for the options, and the payload. -/
theorem serialize_eq {d : IPv4Datagram} (writable : d.header.Writable)
    (total : d.header.len.toNat = 4 * d.header.hlen.toNat + d.payload.size) :
    ∃ cksum out, d.serialize = some out ∧
      out.concatenate = { d.header with cksum }.fields.bytes ++
        (List.replicate (4 * d.header.hlen.toNat - headerLength) 0 ++ d.payload.concatenate) ∧
      (({} : InternetChecksum).add (out.concatenate.take (4 * d.header.hlen.toNat))).value = 0 := by
  have sums : ∀ cksum, ({ d.header with cksum } : IPv4Header).Writable := fun _ =>
    ⟨writable.1, writable.2, writable.3, writable.4⟩
  have least : 5 ≤ d.header.hlen.toNat := UInt8.le_iff_toNat_le.1 writable.least
  have most : d.header.hlen.toNat ≤ 15 := UInt8.le_iff_toNat_le.1 writable.most
  have size : d.payload.size = d.header.payloadLength.toNat := by
    have bound : d.header.len.toNat < 0x10000 := d.header.len.toNat_lt
    rw [IPv4Header.toNat_payloadLength]
    omega
  -- the zeros that stand for the options
  generalize options : List.replicate (4 * d.header.hlen.toNat - headerLength) (0 : UInt8) = pad
  have length : pad.length = 4 * d.header.hlen.toNat - headerLength := by rw [← options, List.length_replicate]
  have writes : ∀ cksum, ({ d.header with cksum } : IPv4Header).serialize =
      some ({ d.header.fields with cksum }.bytes ++ pad) := fun cksum => by rw [(sums cksum).serialize_eq, ← options]; rfl
  have run : ∃ cksum, cksum = (({} : InternetChecksum).add ({ d.header.fields with cksum := 0 }.bytes ++ pad)).value ∧
      d.serialize = some ((BufferList.ofString ({ d.header.fields with cksum }.bytes ++ pad)).append d.payload) := by
    refine ⟨_, rfl, ?_⟩
    rw [serialize, if_neg (not_not_intro size), writes 0, Option.bind_eq_bind, Option.bind_some, writes]
    rfl
  obtain ⟨cksum, value, run⟩ := run
  refine ⟨cksum, _, run, ?_, ?_⟩
  · rw [BufferList.concatenate_append, BufferList.concatenate_ofString, List.append_assoc]
    rfl
  · rw [BufferList.concatenate_append, BufferList.concatenate_ofString, List.take_left']
    · rw [value]
      exact IPv4Header.checksum_written d.header.fields pad (by rw [length, headerLength]; omega)
    · rw [List.length_append, Fields.length_bytes, length, headerLength]
      omega

/-- What is read from the output of `serialize`: the header with its checksum, and the payload in one buffer. -/
theorem parse_serialized (d : IPv4Datagram) (writable : d.header.Writable)
    (total : d.header.len.toNat = 4 * d.header.hlen.toNat + d.payload.size) :
    ∃ cksum out, d.serialize = some out ∧
      (({} : InternetChecksum).add (out.concatenate.take (4 * d.header.hlen.toNat))).value = 0 ∧
      (∀ h : IPv4Header, h.parse { buffer := out.concatenate } =
        some (({ d.header with cksum }, .noError), { buffer := d.payload.concatenate })) ∧
      ∀ d₀ : IPv4Datagram, d₀.parse out.concatenate =
        some (⟨{ d.header with cksum }, .ofString d.payload.concatenate⟩, .noError) := by
  obtain ⟨cksum, out, run, bytes, checksum⟩ := serialize_eq writable total
  have least : 5 ≤ d.header.hlen.toNat := UInt8.le_iff_toNat_le.1 writable.least
  have written : ({ d.header with cksum } : IPv4Header).fields.header = { d.header with cksum } :=
    IPv4Header.Writable.header_fields ⟨writable.1, writable.2, writable.3, writable.4⟩
  have size : out.concatenate.length = d.header.len.toNat := by
    rw [bytes, List.length_append, Fields.length_bytes, List.length_append, List.length_replicate,
      BufferList.length_concatenate, headerLength]
    omega
  have payload : out.concatenate.drop (4 * d.header.hlen.toNat) = d.payload.concatenate := by
    rw [bytes, ← List.append_assoc, List.drop_left']
    rw [List.length_append, Fields.length_bytes, List.length_replicate, headerLength]
    omega
  have parsed : ∀ h : IPv4Header, h.parse { buffer := out.concatenate } =
      some (({ d.header with cksum }, .noError), { buffer := d.payload.concatenate }) := by
    intro h
    have sound : ({ d.header with cksum } : IPv4Header).Sound out.concatenate.length :=
      ⟨by rw [size]; dsimp only; omega, writable.version, writable.least, size⟩
    rw [bytes, ← written] at sound
    have read := IPv4Header.parse_sound h _ _ sound
    rw [written, ← bytes, payload, if_neg (not_not_intro checksum)] at read
    exact read
  refine ⟨cksum, out, run, checksum, parsed, fun d₀ => ?_⟩
  have length : d.payload.concatenate.length = ({ d.header with cksum } : IPv4Header).payloadLength.toNat := by
    have bound : d.header.len.toNat < 0x10000 := d.header.len.toNat_lt
    rw [IPv4Header.toNat_payloadLength, BufferList.length_concatenate]
    dsimp only
    omega
  have accepted := parse_of_header (d := d₀) (parsed d₀.header)
  dsimp only at accepted
  rwa [if_neg (not_not_intro length)] at accepted

/-- **Round trip.** What `serialize` writes, `parse` reads back. -/
theorem round_trip (d : IPv4Datagram) (writable : d.header.Writable)
    (total : d.header.len.toNat = 4 * d.header.hlen.toNat + d.payload.size) :
    ∃ out, d.serialize = some out ∧
      (({} : InternetChecksum).add (out.concatenate.take (4 * d.header.hlen.toNat))).value = 0 ∧
      (∀ h : IPv4Header, ∃ h' p, h.parse { buffer := out.concatenate } = some ((h', .noError), p)) ∧
      ∀ d₀ : IPv4Datagram, ∃ d', d₀.parse out.concatenate = some (d', .noError) ∧
        { d'.header with cksum := d.header.cksum } = d.header ∧
        d'.payload.concatenate = d.payload.concatenate := by
  obtain ⟨cksum, out, run, checksum, header, parses⟩ := parse_serialized d writable total
  exact ⟨out, run, checksum, fun h => ⟨_, _, header h⟩,
    fun d₀ => ⟨_, parses d₀, rfl, BufferList.concatenate_ofString _⟩⟩

/-- A fragment with options, whose payload is in two buffers. -/
def fragment : IPv4Datagram where
  header := { hlen := 6, len := 27, df := false, mf := true, offset := 0x1fff, src := 0x0a000001, dst := 0xffffffff }
  payload := ⟨[[1, 2], [3]]⟩

theorem round_trip_fragment : fragment.header.Writable ∧ ∃ out, fragment.serialize = some out ∧
    ∃ d', IPv4Datagram.parse {} out.concatenate = some (d', .noError) ∧
      { d'.header with cksum := 0 } = fragment.header ∧ d'.payload.concatenate = [1, 2, 3] := by
  have writable : fragment.header.Writable := ⟨by decide, by decide, by decide, by decide⟩
  obtain ⟨out, run, -, -, parses⟩ := round_trip fragment writable (by decide)
  exact ⟨writable, out, run, parses {}⟩

end IPv4Datagram

end Sponge
