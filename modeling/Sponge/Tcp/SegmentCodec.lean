import Sponge.Net.IPv4Datagram
import Sponge.Tcp.TCPSegment
import Sponge.Util.Codec

/-!
# What `TCPSegment::parse` accepts, and the round trip

The twenty bytes of a header are `Fields`; any twenty bytes are those of some
`Fields`. The segment's `parse` looks at the parser's error and not at what the
header's `parse` returns, so an offset below the minimum, which sets no error,
is accepted.

The checksum is taken in two chunks, over the header with a zero field and over
the payload, and read back in one pass over the whole segment. It is compared
before anything else is read, so that a segment with one bit inverted is
reported as `BadChecksum` whatever that bit stands for.
-/

namespace Sponge

open Octets

namespace TCPHeader

/-- The header as it stands in its first twenty bytes. -/
structure Fields where
  sport : UInt16
  dport : UInt16
  seqno : UInt32
  ackno : UInt32
  offset : UInt8
  flB : UInt8
  win : UInt16
  cksum : UInt16
  uptr : UInt16

namespace Fields

def bytes (f : Fields) : List UInt8 :=
  NetUnparser.u16 f.sport ++ (NetUnparser.u16 f.dport ++ (NetUnparser.u32 f.seqno ++ (NetUnparser.u32 f.ackno ++
    (NetUnparser.u8 f.offset ++ (NetUnparser.u8 f.flB ++ (NetUnparser.u16 f.win ++ (NetUnparser.u16 f.cksum ++
      NetUnparser.u16 f.uptr)))))))

/-- The header that `parse` reads from the fields. -/
def header (f : Fields) : TCPHeader where
  sport := f.sport
  dport := f.dport
  seqno := .ofNat f.seqno.toNat
  ackno := .ofNat f.ackno.toNat
  doff := f.offset >>> 4
  urg := f.flB &&& 0b00100000 != 0
  ack := f.flB &&& 0b00010000 != 0
  psh := f.flB &&& 0b00001000 != 0
  rst := f.flB &&& 0b00000100 != 0
  syn := f.flB &&& 0b00000010 != 0
  fin := f.flB &&& 0b00000001 != 0
  win := f.win
  cksum := f.cksum
  uptr := f.uptr

theorem length_bytes (f : Fields) : f.bytes.length = headerLength := rfl

theorem parses (h : TCPHeader) (f : Fields) : Parses h.parseFields f.bytes f.header :=
  (NetUnparser.u16_parses f.sport).bind <| (NetUnparser.u16_parses f.dport).bind <|
    (NetUnparser.u32_parses f.seqno).bind <| (NetUnparser.u32_parses f.ackno).bind <|
    (NetUnparser.u8_parses f.offset).bind <| (NetUnparser.u8_parses f.flB).bind <|
    (NetUnparser.u16_parses f.win).bind <| (NetUnparser.u16_parses f.cksum).bind <|
    (NetUnparser.u16_parses f.uptr).last _

/-- Any twenty bytes are the fields of some header. -/
theorem exists_eq (b : Buffer) (enough : headerLength ≤ b.length) : ∃ f : Fields, b = f.bytes ++ b.drop headerLength := by
  simp only [headerLength] at enough ⊢
  obtain ⟨sport, b0⟩ := NetUnparser.exists_u16 b (by omega)
  obtain ⟨dport, b2⟩ := NetUnparser.exists_u16 (b.drop 2) (by simp; omega)
  obtain ⟨seqno, b4⟩ := NetUnparser.exists_u32 (b.drop 4) (by simp; omega)
  obtain ⟨ackno, b8⟩ := NetUnparser.exists_u32 (b.drop 8) (by simp; omega)
  obtain ⟨offset, b12⟩ := NetUnparser.exists_u8 (b.drop 12) (by simp; omega)
  obtain ⟨flB, b13⟩ := NetUnparser.exists_u8 (b.drop 13) (by simp; omega)
  obtain ⟨win, b14⟩ := NetUnparser.exists_u16 (b.drop 14) (by simp; omega)
  obtain ⟨cksum, b16⟩ := NetUnparser.exists_u16 (b.drop 16) (by simp; omega)
  obtain ⟨uptr, b18⟩ := NetUnparser.exists_u16 (b.drop 18) (by simp; omega)
  refine ⟨⟨sport, dport, seqno, ackno, offset, flB, win, cksum, uptr⟩, ?_⟩
  simp only [List.drop_drop] at b2 b4 b8 b12 b13 b14 b16 b18
  conv_lhs => rw [b0, b2, b4, b8, b12, b13, b14, b16, b18]
  simp only [bytes, List.append_assoc]

end Fields

theorem parseFields_consumes (h : TCPHeader) : Consumes h.parseFields headerLength :=
  NetParser.u16_consumes.bind fun _ => NetParser.u16_consumes.bind fun _ => NetParser.u32_consumes.bind fun _ =>
    NetParser.u32_consumes.bind fun _ => NetParser.u8_consumes.bind fun _ => NetParser.u8_consumes.bind fun _ =>
    NetParser.u16_consumes.bind fun _ => NetParser.u16_consumes.bind fun _ => NetParser.u16_consumes.last _

/-! ### The header's `parse` -/

section Parse

variable (h : TCPHeader) {f : Fields} (rest : Buffer)

/-- Fewer than twenty bytes leave an error in the parser, whatever is made of the fields. -/
theorem parse_short {b : Buffer} (short : b.length < headerLength) :
    ∃ result p, h.parse { buffer := b } = some (result, p) ∧ p.error ≠ .noError := by
  obtain ⟨read, p, run, error⟩ := h.parseFields_consumes.error_of_lt (p := { buffer := b }) short
  by_cases least : read.doff < 5
  · refine ⟨(read, .headerTooShort), p, ?_, error⟩
    rw [parse, Parsing.bind_of_some run, if_pos least]
    rfl
  · obtain ⟨p', skipped, error'⟩ := NetParser.dropBytes_of_error (n := read.doff.toNat * 4 - headerLength) error
    refine ⟨(read, p'.error), p', ?_, error'⟩
    rw [parse, Parsing.bind_of_some run, if_neg least, Parsing.bind_of_some skipped,
      Parsing.bind_of_some (Parsing.get_eq _), if_pos error']
    rfl

/-- An offset below the minimum is returned as an error, and the parser is left without one. -/
theorem parse_low (low : f.header.doff < 5) :
    h.parse { buffer := f.bytes ++ rest } = some ((f.header, .headerTooShort), { buffer := rest }) := by
  rw [parse, Parsing.bind_of_some (f.parses h rest), if_pos low]
  rfl

theorem parse_present (least : 5 ≤ f.header.doff) (enough : f.header.doff.toNat * 4 - headerLength ≤ rest.length) :
    h.parse { buffer := f.bytes ++ rest } =
      some ((f.header, .noError), { buffer := rest.drop (f.header.doff.toNat * 4 - headerLength) }) := by
  rw [parse, Parsing.bind_of_some (f.parses h rest), if_neg (UInt8.not_lt.2 least),
    Parsing.bind_of_some (NetParser.dropBytes_of_le enough), Parsing.bind_of_some (Parsing.get_eq _)]
  rfl

theorem parse_truncated (least : 5 ≤ f.header.doff) (short : rest.length < f.header.doff.toNat * 4 - headerLength) :
    h.parse { buffer := f.bytes ++ rest } =
      some ((f.header, .packetTooShort), { buffer := rest, error := .packetTooShort }) := by
  rw [parse, Parsing.bind_of_some (f.parses h rest), if_neg (UInt8.not_lt.2 least),
    Parsing.bind_of_some (NetParser.dropBytes_of_lt short), Parsing.bind_of_some (Parsing.get_eq _)]
  rfl

end Parse

/-! ### What the header's `serialize` writes -/

/-- The twenty bytes that `serialize` writes. -/
def bytes (h : TCPHeader) : List UInt8 :=
  NetUnparser.u16 h.sport ++ (NetUnparser.u16 h.dport ++ (NetUnparser.u32 (.ofNat h.seqno.rawValue) ++
    (NetUnparser.u32 (.ofNat h.ackno.rawValue) ++ (NetUnparser.u8 (h.doff <<< 4) ++ (NetUnparser.u8 h.flagByte ++
      (NetUnparser.u16 h.win ++ (NetUnparser.u16 h.cksum ++ NetUnparser.u16 h.uptr)))))))

theorem serialize_eq {h : TCPHeader} (least : 5 ≤ h.doff) :
    h.serialize = some (h.bytes ++ List.replicate (4 * h.doff.toNat - headerLength) 0) := by
  rw [serialize, if_neg (UInt8.not_lt.2 least)]
  simp only [List.append_assoc]
  rfl

theorem flagByte_spec (h : TCPHeader) :
    (h.flagByte &&& 0b00100000 != 0) = h.urg ∧ (h.flagByte &&& 0b00010000 != 0) = h.ack ∧
      (h.flagByte &&& 0b00001000 != 0) = h.psh ∧ (h.flagByte &&& 0b00000100 != 0) = h.rst ∧
      (h.flagByte &&& 0b00000010 != 0) = h.syn ∧ (h.flagByte &&& 0b00000001 != 0) = h.fin := by
  rw [flagByte]
  cases h.urg <;> cases h.ack <;> cases h.psh <;> cases h.rst <;> cases h.syn <;> cases h.fin <;> decide

theorem doff_shift {doff : UInt8} (most : doff ≤ 15) : (doff <<< 4) >>> 4 = doff := by
  have all : ∀ doff : BitVec 8, doff ≤ 15 → (UInt8.ofBitVec doff <<< 4) >>> 4 = UInt8.ofBitVec doff := by decide +kernel
  exact all doff.toBitVec most

theorem seqno_read (n : WrappingInt32) : WrappingInt32.ofNat (UInt32.ofNat n.rawValue).toNat = n := by
  apply WrappingInt32.ext_raw
  rw [UInt32.toNat_ofNat_of_lt' n.bound, WrappingInt32.rawValue_ofNat, Nat.mod_eq_of_lt n.bound]

/-- The header that is read from the twenty bytes, before the shared bits are taken apart. -/
def readBack (h : TCPHeader) : TCPHeader where
  sport := h.sport
  dport := h.dport
  seqno := .ofNat (UInt32.ofNat h.seqno.rawValue).toNat
  ackno := .ofNat (UInt32.ofNat h.ackno.rawValue).toNat
  doff := (h.doff <<< 4) >>> 4
  urg := h.flagByte &&& 0b00100000 != 0
  ack := h.flagByte &&& 0b00010000 != 0
  psh := h.flagByte &&& 0b00001000 != 0
  rst := h.flagByte &&& 0b00000100 != 0
  syn := h.flagByte &&& 0b00000010 != 0
  fin := h.flagByte &&& 0b00000001 != 0
  win := h.win
  cksum := h.cksum
  uptr := h.uptr

/-- The fields that `serialize` writes. -/
def fields (h : TCPHeader) : Fields :=
  ⟨h.sport, h.dport, .ofNat h.seqno.rawValue, .ofNat h.ackno.rawValue, h.doff <<< 4, h.flagByte, h.win, h.cksum, h.uptr⟩

theorem header_fields {h : TCPHeader} (most : h.doff ≤ 15) : h.fields.header = h := by
  obtain ⟨urg, ack, psh, rst, syn, fin⟩ := h.flagByte_spec
  show h.readBack = h
  rw [readBack, seqno_read, seqno_read, doff_shift most, urg, ack, psh, rst, syn, fin]

theorem parse_bytes (h₀ : TCPHeader) {h : TCPHeader} (least : 5 ≤ h.doff) (most : h.doff ≤ 15) (rest : Buffer)
    (enough : h.doff.toNat * 4 - headerLength ≤ rest.length) :
    h₀.parse { buffer := h.bytes ++ rest } =
      some ((h, .noError), { buffer := rest.drop (h.doff.toNat * 4 - headerLength) }) := by
  have written := header_fields most
  have read := parse_present h₀ (f := h.fields) rest (by rw [written]; exact least) (by rw [written]; exact enough)
  rw [written] at read
  exact read

/-- The checksum stands behind sixteen bytes. -/
theorem bytes_cksum (h : TCPHeader) : ∃ front back : List UInt8, front.length = 16 ∧ back.length = 2 ∧
    ∀ cksum, { h with cksum }.bytes = front ++ (NetUnparser.u16 cksum ++ back) := by
  refine ⟨NetUnparser.u16 h.sport ++ (NetUnparser.u16 h.dport ++ (NetUnparser.u32 (.ofNat h.seqno.rawValue) ++
    (NetUnparser.u32 (.ofNat h.ackno.rawValue) ++ (NetUnparser.u8 (h.doff <<< 4) ++ (NetUnparser.u8 h.flagByte ++
      NetUnparser.u16 h.win))))), NetUnparser.u16 h.uptr, rfl, rfl, fun cksum => ?_⟩
  simp only [bytes, List.append_assoc]
  rfl

end TCPHeader

/-- A sum of five 16-bit words and a byte. -/
theorem IPv4Header.pseudoCksum_le (h : IPv4Header) : h.pseudoCksum.toNat ≤ 5 * 0xffff + 0xff := by
  have high : ∀ a : UInt32, (a >>> 16).toNat ≤ 0xffff := fun a => by
    rw [UInt32.toNat_shiftRight, Nat.shiftRight_eq_div_pow]
    show a.toNat / 65536 ≤ 0xffff
    have bound : a.toNat < 4294967296 := a.toNat_lt
    omega
  have low : ∀ a : UInt32, (a &&& 0xffff).toNat ≤ 0xffff := fun a => by
    rw [UInt32.toNat_and]
    exact Nat.and_le_right
  have sum : ∀ {a b : UInt32} {x y : Nat}, a.toNat ≤ x → b.toNat ≤ y → (a + b).toNat ≤ x + y := by
    intro a b x y left right
    rw [UInt32.toNat_add]
    exact Nat.le_trans (Nat.mod_le _ _) (Nat.add_le_add left right)
  have proto : h.proto.toUInt32.toNat ≤ 0xff := by rw [UInt8.toNat_toUInt32]; exact Nat.le_of_lt_succ h.proto.toNat_lt
  have length : h.payloadLength.toUInt32.toNat ≤ 0xffff := by
    rw [UInt16.toNat_toUInt32]; exact Nat.le_of_lt_succ h.payloadLength.toNat_lt
  exact Nat.le_trans (sum (sum (sum (sum (high h.src) (low h.src)) (sum (high h.dst) (low h.dst))) proto) length)
    (by decide)

namespace TCPSegment

open TCPHeader (Fields headerLength)

/-! ### What `parse` accepts -/

/-- The data-offset field, in words. -/
def dataOffset (b : Buffer) : Nat := ((b.drop 12).headD 0 >>> 4).toNat

/-- A well-formed segment. -/
structure WellFormed (lower : UInt32) (b : Buffer) : Prop where
  checksum : internetChecksum lower.toNat b = 0
  size : headerLength ≤ b.length
  words : 5 ≤ dataOffset b
  present : 4 * dataOffset b ≤ b.length

/-- The start values of the checksum: none, or that of a pseudo-header. -/
def LowerChecksum (lower : UInt32) : Prop := lower = 0 ∨ ∃ h : IPv4Header, lower = h.pseudoCksum

theorem LowerChecksum.le {lower : UInt32} (pseudo : LowerChecksum lower) : lower.toNat ≤ 5 * 0xffff + 0xff := by
  rcases pseudo with rfl | ⟨h, rfl⟩
  · exact Nat.zero_le _
  · exact h.pseudoCksum_le

/-- `parse` returns `NoError` for the well-formed segments only, with the bytes behind the header as payload, and
reports what the header's `parse` finds. -/
def AcceptsExactly (seg : TCPSegment) (lower : UInt32) (b : Buffer) : Prop :=
  ∃ seg' r, seg.parse b lower = some (seg', r) ∧ (r = .noError ↔ WellFormed lower b) ∧
    (r = .noError → seg'.payload = b.drop (4 * dataOffset b)) ∧
    ∀ h e p, seg.header.parse { buffer := b } = some ((h, e), p) → e ≠ .noError → r ≠ .noError

/-- A whole header with a right checksum and an offset below the minimum. -/
structure LowOffset (lower : UInt32) (b : Buffer) : Prop where
  checksum : internetChecksum lower.toNat b = 0
  size : headerLength ≤ b.length
  low : dataOffset b < 5

section Accepts

variable {seg : TCPSegment} {lower : UInt32} {b : Buffer}

/-- The 32 bits of the sum do not overflow, so the value is the Internet checksum. -/
theorem value_eq_zero_iff (size : b.length ≤ 65535) (pseudo : LowerChecksum lower) :
    (({ sum := lower } : InternetChecksum).add b).value = 0 ↔ internetChecksum lower.toNat b = 0 := by
  have le := pseudo.le
  have bound := pairSum_le false b
  rw [InternetChecksum.value_eq_zero_iff, InternetChecksum.toNat_add { sum := lower } b (by dsimp only; omega),
    internetChecksum_eq_zero]

theorem parse_of_header (checksum : (({ sum := lower } : InternetChecksum).add b).value = 0)
    {result : TCPHeader × ParseResult} {p : NetParser} (run : seg.header.parse { buffer := b } = some (result, p)) :
    seg.parse b lower = some (⟨result.1, p.buffer⟩, p.error) := by
  rw [parse, if_neg (not_not_intro checksum), run]
  rfl

theorem dataOffset_bytes (f : Fields) (rest : Buffer) : dataOffset (f.bytes ++ rest) = f.header.doff.toNat := by
  have field : (f.bytes ++ rest).drop 12 = NetUnparser.u8 f.offset ++ (NetUnparser.u8 f.flB ++ (NetUnparser.u16 f.win ++
      (NetUnparser.u16 f.cksum ++ (NetUnparser.u16 f.uptr ++ rest)))) := rfl
  rw [dataOffset, field, NetUnparser.u8_eq]
  rfl

/-- A wrong checksum is reported first. -/
theorem accepts_checksum (wrong : internetChecksum lower.toNat b ≠ 0) (size : b.length ≤ 65535)
    (pseudo : LowerChecksum lower) : AcceptsExactly seg lower b := by
  have value := mt (value_eq_zero_iff size pseudo).1 wrong
  refine ⟨seg, .badChecksum, ?_, ?_, by simp, by simp⟩
  · rw [parse, if_pos value]
  · exact ⟨by simp, fun formed => absurd formed.checksum wrong⟩

theorem accepts_short (checksum : (({ sum := lower } : InternetChecksum).add b).value = 0)
    (short : b.length < headerLength) : AcceptsExactly seg lower b := by
  obtain ⟨result, p, run, error⟩ := seg.header.parse_short short
  refine ⟨_, _, parse_of_header checksum run, ?_, fun noError => absurd noError error, fun _ _ _ _ _ => error⟩
  exact ⟨fun noError => absurd noError error, fun formed => absurd formed.size (Nat.not_le.2 short)⟩

/-- With the offset at least the minimum, the error that the parser is left with is the one returned. -/
theorem accepts_offset (checksum : (({ sum := lower } : InternetChecksum).add b).value = 0) (size : b.length ≤ 65535)
    (pseudo : LowerChecksum lower) (enough : headerLength ≤ b.length) (words : 5 ≤ dataOffset b) :
    AcceptsExactly seg lower b := by
  have zero := (value_eq_zero_iff size pseudo).1 checksum
  obtain ⟨f, bytes⟩ := Fields.exists_eq b enough
  have length : (b.drop headerLength).length + headerLength = b.length := by
    rw [List.length_drop]
    omega
  generalize b.drop headerLength = rest at bytes length
  subst bytes
  have least : 5 ≤ f.header.doff := by
    rw [dataOffset_bytes] at words
    exact UInt8.le_iff_toNat_le.2 words
  by_cases present : 4 * dataOffset (f.bytes ++ rest) ≤ (f.bytes ++ rest).length
  · have inside : f.header.doff.toNat * 4 - headerLength ≤ rest.length := by
      rw [dataOffset_bytes] at present
      omega
    have payload : (f.bytes ++ rest).drop (4 * dataOffset (f.bytes ++ rest)) =
        rest.drop (f.header.doff.toNat * 4 - headerLength) := by
      rw [dataOffset_bytes] at words ⊢
      rw [List.drop_append, f.length_bytes, List.drop_eq_nil_of_le (by rw [f.length_bytes, headerLength]; omega),
        List.nil_append, Nat.mul_comm]
    have run := seg.header.parse_present rest least inside
    refine ⟨_, _, parse_of_header checksum run, ⟨fun _ => ⟨zero, enough, words, present⟩, fun _ => rfl⟩,
      fun _ => payload.symm, fun h e p header error => ?_⟩
    cases run.symm.trans header
    exact absurd rfl error
  · have short : rest.length < f.header.doff.toNat * 4 - headerLength := by
      rw [dataOffset_bytes] at present words
      omega
    refine ⟨_, _, parse_of_header checksum (seg.header.parse_truncated rest least short), ⟨by simp, fun formed => ?_⟩,
      by simp, by simp⟩
    exact absurd formed.present present

/-- An offset below the minimum is accepted, although the header's `parse` reports it. -/
theorem LowOffset.overlooked (h : LowOffset lower b) (size : b.length ≤ 65535) (pseudo : LowerChecksum lower) :
    ¬ AcceptsExactly seg lower b := by
  rintro ⟨seg', r, run, exact, -⟩
  obtain ⟨f, bytes⟩ := Fields.exists_eq b h.size
  have checksum := (value_eq_zero_iff size pseudo).2 h.checksum
  have low := h.low
  generalize b.drop headerLength = rest at bytes
  subst bytes
  rw [dataOffset_bytes] at low
  have accepted : seg.parse (f.bytes ++ rest) lower = _ :=
    parse_of_header checksum (seg.header.parse_low rest (UInt8.lt_iff_toNat_lt.2 low))
  cases accepted.symm.trans run
  have words := (exact.1 rfl).words
  rw [dataOffset_bytes] at words
  omega

end Accepts

/-- **What `parse` accepts** is exactly the well-formed segments, apart from an offset below the minimum. -/
theorem segment_accepts_iff (seg : TCPSegment) (lower : UInt32) (b : Buffer) (size : b.length ≤ 65535)
    (pseudo : LowerChecksum lower) : AcceptsExactly seg lower b ↔ ¬ LowOffset lower b := by
  refine ⟨fun accepts low => low.overlooked size pseudo accepts, fun high => ?_⟩
  by_cases checksum : (({ sum := lower } : InternetChecksum).add b).value = 0
  · rcases Nat.lt_or_ge b.length headerLength with short | enough
    · exact accepts_short checksum short
    · have words : 5 ≤ dataOffset b := by
        refine Nat.le_of_not_lt fun low => ?_
        exact high ⟨(value_eq_zero_iff size pseudo).1 checksum, enough, low⟩
      exact accepts_offset checksum size pseudo enough words
  · exact accepts_checksum (mt (value_eq_zero_iff size pseudo).2 checksum) size pseudo

/-- Twenty bytes with an offset of five words and the right checksum, and the same with an offset of four. -/
theorem segment_accepts_iff_header :
    AcceptsExactly {} 0 (List.replicate 12 0 ++ [0x50] ++ List.replicate 3 0 ++ [0xaf, 0xff, 0, 0]) ∧
      ¬ AcceptsExactly {} 0 (List.replicate 12 0 ++ [0x40] ++ List.replicate 3 0 ++ [0xbf, 0xff, 0, 0]) := by
  constructor
  · refine (segment_accepts_iff {} 0 _ (by decide) (.inl rfl)).2 fun low => ?_
    exact absurd low.low (by decide)
  · refine fun accepts => (segment_accepts_iff {} 0 _ (by decide) (.inl rfl)).1 accepts ?_
    exact ⟨by decide +kernel, by decide, by decide⟩

/-- Sixteen zeros, a checksum of `0xffff` and two more zeros: an offset of zero words, with the right checksum. -/
theorem low_offset_accepted : ¬ ∀ (lower : UInt32) (b : Buffer), b.length ≤ 65535 → LowerChecksum lower →
    AcceptsExactly {} lower b := by
  intro claim
  have low : LowOffset 0 (List.replicate 16 0 ++ [0xff, 0xff, 0, 0]) := ⟨by decide +kernel, by decide, by decide⟩
  exact low.overlooked (by decide) (.inl rfl) (claim 0 _ (by decide) (.inl rfl))

/-! ### The round trip -/

/-- The output of `serialize`: the header with its checksum, zeros for the options, and the payload. -/
theorem serialize_eq (seg : TCPSegment) (least : 5 ≤ seg.header.doff) (lower : UInt32)
    (fits : lower.toNat ≤ 5 * 0xffff + 0xff) (size : 4 * seg.header.doff.toNat + seg.payload.length ≤ 65535) :
    ∃ cksum out, seg.serialize lower = some out ∧
      out.concatenate = { seg.header with cksum }.bytes ++
        (List.replicate (4 * seg.header.doff.toNat - TCPHeader.headerLength) 0 ++ seg.payload) ∧
      (({ sum := lower } : InternetChecksum).add out.concatenate).value = 0 := by
  have words : 5 ≤ seg.header.doff.toNat := UInt8.le_iff_toNat_le.1 least
  -- the zeros that stand for the options
  generalize options : List.replicate (4 * seg.header.doff.toNat - TCPHeader.headerLength) (0 : UInt8) = pad
  have length : pad.length = 4 * seg.header.doff.toNat - TCPHeader.headerLength := by rw [← options, List.length_replicate]
  have writes : ∀ cksum, ({ seg.header with cksum } : TCPHeader).serialize =
      some ({ seg.header with cksum }.bytes ++ pad) := by
    intro cksum
    rw [TCPHeader.serialize_eq (h := { seg.header with cksum }) least, ← options]
  have run : ∃ cksum, cksum = (({ sum := lower } : InternetChecksum).add
        ({ seg.header with cksum := 0 }.bytes ++ (pad ++ seg.payload))).value ∧
      seg.serialize lower = some ((BufferList.ofString ({ seg.header with cksum }.bytes ++ pad)).append
        (.ofString seg.payload)) := by
    refine ⟨_, rfl, ?_⟩
    rw [serialize, writes 0, Option.bind_eq_bind, Option.bind_some, ← List.append_assoc,
      InternetChecksum.add_append _ _ seg.payload]
    exact congrArg (Option.bind · fun header => some ((BufferList.ofString header).append (.ofString seg.payload)))
      (writes _)
  obtain ⟨cksum, value, run⟩ := run
  have bytes : ((BufferList.ofString ({ seg.header with cksum }.bytes ++ pad)).append
      (.ofString seg.payload)).concatenate = { seg.header with cksum }.bytes ++ (pad ++ seg.payload) := by
    rw [BufferList.concatenate_append, BufferList.concatenate_ofString, BufferList.concatenate_ofString,
      List.append_assoc]
  refine ⟨cksum, _, run, bytes, ?_⟩
  obtain ⟨front, back, sixteen, two, header⟩ := seg.header.bytes_cksum
  rw [bytes, value]
  simp only [header, List.append_assoc]
  refine InternetChecksum.value_of_written _ rfl front (back ++ (pad ++ seg.payload)) (by rw [sixteen]) ?_
  rw [List.length_append, List.length_append, sixteen, two, length]
  simp only [TCPHeader.headerLength]
  omega

/-- What is read from the output of `serialize`: the header with its checksum, and the payload. -/
theorem parse_serialized (seg : TCPSegment) (least : 5 ≤ seg.header.doff) (most : seg.header.doff ≤ 15)
    (size : 4 * seg.header.doff.toNat + seg.payload.length ≤ 65535) {lower : UInt32} (pseudo : LowerChecksum lower) :
    ∃ cksum out, seg.serialize lower = some out ∧ out.size = 4 * seg.header.doff.toNat + seg.payload.length ∧
      ∀ seg₀ : TCPSegment, seg₀.parse out.concatenate lower =
        some (⟨{ seg.header with cksum }, seg.payload⟩, .noError) := by
  obtain ⟨cksum, out, run, bytes, checksum⟩ := seg.serialize_eq least lower pseudo.le size
  have words : 5 ≤ seg.header.doff.toNat := UInt8.le_iff_toNat_le.1 least
  generalize options : List.replicate (4 * seg.header.doff.toNat - TCPHeader.headerLength) (0 : UInt8) = pad at bytes
  have length : seg.header.doff.toNat * 4 - TCPHeader.headerLength = pad.length := by
    rw [← options, List.length_replicate, Nat.mul_comm]
  refine ⟨cksum, out, run, ?_, fun seg₀ => ?_⟩
  · have twenty : ({ seg.header with cksum } : TCPHeader).bytes.length = TCPHeader.headerLength := rfl
    rw [← BufferList.length_concatenate, bytes, List.length_append, List.length_append, ← length, twenty]
    simp only [TCPHeader.headerLength]
    omega
  · have parsed := TCPHeader.parse_bytes seg₀.header (h := { seg.header with cksum }) least most
      (pad ++ seg.payload) (by rw [List.length_append, ← length]; exact Nat.le_add_right _ _)
    rw [← bytes] at parsed
    rw [parse_of_header checksum parsed]
    dsimp only
    rw [length, List.drop_left]

/-- **Round trip.** What `serialize` writes, `parse` reads back under the same pseudo-checksum. -/
theorem segment_round_trip (seg : TCPSegment) (least : 5 ≤ seg.header.doff) (most : seg.header.doff ≤ 15)
    (size : 4 * seg.header.doff.toNat + seg.payload.length ≤ 65535) (lower : UInt32)
    (pseudo : lower = 0 ∨ ∃ h : IPv4Header, lower = h.pseudoCksum) :
    ∃ out, seg.serialize lower = some out ∧
      ∀ seg₀ : TCPSegment, ∃ seg', seg₀.parse out.concatenate lower = some (seg', .noError) ∧
        { seg'.header with cksum := seg.header.cksum } = seg.header ∧ seg'.payload = seg.payload := by
  obtain ⟨cksum, out, run, -, parses⟩ := seg.parse_serialized least most size pseudo
  exact ⟨out, run, fun seg₀ => ⟨_, parses seg₀, rfl, rfl⟩⟩

/-- A segment with options, an odd payload and every flag. -/
def oddSegment : TCPSegment where
  header := ⟨1, 65535, .ofNat 7, .ofNat 4294967295, 6, true, true, true, true, true, true, 512, 9, 3⟩
  payload := [1, 2, 255]

theorem segment_round_trip_odd : 5 ≤ oddSegment.header.doff ∧ ∃ out,
    oddSegment.serialize ({ len := 47, src := 0xffffffff } : IPv4Header).pseudoCksum = some out ∧
    ∃ seg', TCPSegment.parse {} out.concatenate ({ len := 47, src := 0xffffffff } : IPv4Header).pseudoCksum =
      some (seg', .noError) ∧ { seg'.header with cksum := 9 } = oddSegment.header ∧ seg'.payload = [1, 2, 255] := by
  obtain ⟨out, run, parses⟩ := segment_round_trip oddSegment (by decide) (by decide) (by decide) _ (.inr ⟨_, rfl⟩)
  exact ⟨by decide, out, run, parses {}⟩

/-! ### Corruption -/

/-- **A single inverted bit is detected**, wherever it is in the written segment: in the checksum itself, in the header,
or in a trailing odd byte. -/
theorem bit_flip_detected (seg : TCPSegment) (least : 5 ≤ seg.header.doff)
    (size : 4 * seg.header.doff.toNat + seg.payload.length ≤ 65535) (lower : UInt32)
    (pseudo : lower = 0 ∨ ∃ h : IPv4Header, lower = h.pseudoCksum) :
    ∃ out, seg.serialize lower = some out ∧ ∀ i < out.concatenate.length, ∀ (k : Fin 8) (seg₀ : TCPSegment),
      seg₀.parse (flipBit out.concatenate i k) lower = some (seg₀, .badChecksum) := by
  have start : LowerChecksum lower := pseudo
  obtain ⟨cksum, out, run, bytes, checksum⟩ := seg.serialize_eq least lower start.le size
  have words : 5 ≤ seg.header.doff.toNat := UInt8.le_iff_toNat_le.1 least
  have length : out.concatenate.length ≤ 65535 := by
    have twenty : ({ seg.header with cksum } : TCPHeader).bytes.length = headerLength := rfl
    rw [bytes, List.length_append, List.length_append, List.length_replicate, twenty]
    simp only [headerLength]
    omega
  have right := (value_eq_zero_iff length start).1 checksum
  refine ⟨out, run, fun i inside k seg₀ => ?_⟩
  have wrong := internetChecksum_flipBit right inside k
  have value := mt (value_eq_zero_iff (by rw [length_flipBit]; exact length) start).1 wrong
  rw [parse, if_pos value]

/-- The lowest bit of any byte of a segment with options and an odd payload. -/
theorem bit_flip_detected_odd : 5 ≤ oddSegment.header.doff ∧ ∃ out, oddSegment.serialize 0 = some out ∧
    ∀ i < out.concatenate.length, TCPSegment.parse {} (flipBit out.concatenate i 0) 0 = some ({}, .badChecksum) := by
  obtain ⟨out, run, detected⟩ := bit_flip_detected oddSegment (by decide) (by decide) 0 (.inl rfl)
  exact ⟨by decide, out, run, fun i inside => detected i inside 0 {}⟩

end TCPSegment

end Sponge
