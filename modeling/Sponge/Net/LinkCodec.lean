import Sponge.Net.ARPMessage
import Sponge.Util.Codec

/-!
# The formats of the link layer: ARP messages and Ethernet frames

Both directions of each format. An ARP message is its eight fixed bytes and
twenty bytes of addresses; any 28 bytes are those of some message, so `parse`
accepts by the eight bytes alone (`arp_codec`).

`EthernetHeader::parse` returns `PacketTooShort` for fewer than fourteen bytes
and does not tell the parser; `EthernetFrame::parse` returns the parser's error.
A truncated frame is therefore accepted, with the header that was there before
and all of its bytes as payload (`frame_codec_iff`).
-/

namespace Sponge

theorem NetParser.bytes_parses (n : Nat) (l : List UInt8) (length : l.length = n) :
    Parses (NetParser.bytes n) l ⟨l, length⟩ := by
  intro rest
  induction n generalizing l with
  | zero =>
    cases List.length_eq_zero_iff.1 length
    rfl
  | succ n ih =>
    cases l with
    | nil => cases length
    | cons byte l =>
      have first : NetParser.u8 { buffer := byte :: l ++ rest } = some (byte, { buffer := l ++ rest }) := by
        have read := NetUnparser.u8_parses byte (l ++ rest)
        rw [NetUnparser.u8_eq] at read
        exact read
      rw [NetParser.bytes, Parsing.bind_of_some first, Parsing.bind_of_some (ih l (Nat.succ.inj length))]
      rfl

theorem NetUnparser.flatMap_u8 (l : List UInt8) : l.flatMap NetUnparser.u8 = l := by
  rw [funext NetUnparser.u8_eq]
  exact List.flatMap_singleton' l

/-- Any six bytes are an address. -/
theorem EthernetAddress.exists_eq (b : Buffer) (enough : 6 ≤ b.length) :
    ∃ address : EthernetAddress, b = address.bytes ++ b.drop 6 :=
  ⟨⟨b.take 6, List.length_take_of_le enough⟩, (List.take_append_drop 6 b).symm⟩

namespace ARPMessage

/-- The fields of `m` up to the opcode, with the addresses of `m₀`. -/
def withHeader (m₀ m : ARPMessage) : ARPMessage :=
  { m₀ with
    hardwareType := m.hardwareType
    protocolType := m.protocolType
    hardwareAddressSize := m.hardwareAddressSize
    protocolAddressSize := m.protocolAddressSize
    opcode := m.opcode }

theorem supported_withHeader (m₀ m : ARPMessage) : (m₀.withHeader m).supported = m.supported := rfl

/-- The eight bytes up to the opcode. -/
def fixedBytes (m : ARPMessage) : List UInt8 :=
  NetUnparser.u16 m.hardwareType ++ (NetUnparser.u16 m.protocolType ++ (NetUnparser.u8 m.hardwareAddressSize ++
    (NetUnparser.u8 m.protocolAddressSize ++ NetUnparser.u16 m.opcode)))

/-- The twenty bytes of the addresses. -/
def addressBytes (m : ARPMessage) : List UInt8 :=
  m.senderEthernetAddress.bytes ++ (NetUnparser.u32 m.senderIpAddress ++ (m.targetEthernetAddress.bytes ++
    NetUnparser.u32 m.targetIpAddress))

theorem length_fixedBytes (m : ARPMessage) : m.fixedBytes.length = 8 := rfl

theorem length_addressBytes (m : ARPMessage) : m.addressBytes.length = 20 := by
  simp [addressBytes, m.senderEthernetAddress.length, m.targetEthernetAddress.length]

theorem parseHeader_parses (m₀ m : ARPMessage) : Parses m₀.parseHeader m.fixedBytes (m₀.withHeader m) :=
  (NetUnparser.u16_parses _).bind <| (NetUnparser.u16_parses _).bind <| (NetUnparser.u8_parses _).bind <|
    (NetUnparser.u8_parses _).bind <| (NetUnparser.u16_parses _).last _

theorem parseAddresses_parses (m₀ m : ARPMessage) : Parses (m₀.withHeader m).parseAddresses m.addressBytes m :=
  (NetParser.bytes_parses 6 _ m.senderEthernetAddress.length).bind <| (NetUnparser.u32_parses _).bind <|
    (NetParser.bytes_parses 6 _ m.targetEthernetAddress.length).bind <| (NetUnparser.u32_parses _).last _

theorem serialize_eq {m : ARPMessage} (supported : m.supported = true) :
    m.serialize = some (m.fixedBytes ++ m.addressBytes) := by
  rw [serialize, supported]
  simp only [NetUnparser.flatMap_u8, fixedBytes, addressBytes, List.append_assoc]
  rfl

/-- `parse` on the bytes of a message, whatever follows them. -/
theorem parse_bytes (m₀ m : ARPMessage) (rest : Buffer) :
    m₀.parse (m.fixedBytes ++ (m.addressBytes ++ rest)) =
      some (if m.supported then (m, .noError) else (m₀.withHeader m, .unsupported)) := by
  have enough : ¬ (m.fixedBytes ++ (m.addressBytes ++ rest)).length < messageLength := by
    rw [List.length_append, List.length_append, length_fixedBytes, length_addressBytes, messageLength]
    omega
  rw [parse, if_neg enough, parseHeader_parses m₀ m, Option.bind_eq_bind, Option.bind_some]
  dsimp only
  rw [supported_withHeader]
  by_cases supported : m.supported = true
  · rw [if_neg (by rw [supported]; decide), if_pos supported, parseAddresses_parses m₀ m rest]
    rfl
  · rw [if_pos (by rw [Bool.eq_false_of_not_eq_true supported]; rfl), if_neg supported]

/-- A supported message is read back as it was written. -/
theorem parse_serialize {m : ARPMessage} (supported : m.supported = true) :
    ∃ b, m.serialize = some b ∧ ∀ m₀ : ARPMessage, m₀.parse b = some (m, .noError) := by
  refine ⟨_, serialize_eq supported, fun m₀ => ?_⟩
  have read := parse_bytes m₀ m []
  rwa [List.append_nil, if_pos supported] at read

/-- Any 28 bytes are those of some message. -/
theorem exists_eq (b : Buffer) (enough : messageLength ≤ b.length) :
    ∃ m : ARPMessage, b = m.fixedBytes ++ (m.addressBytes ++ b.drop messageLength) := by
  simp only [messageLength] at enough ⊢
  obtain ⟨hardwareType, b0⟩ := NetUnparser.exists_u16 b (by omega)
  obtain ⟨protocolType, b2⟩ := NetUnparser.exists_u16 (b.drop 2) (by simp; omega)
  obtain ⟨hardwareAddressSize, b4⟩ := NetUnparser.exists_u8 (b.drop 4) (by simp; omega)
  obtain ⟨protocolAddressSize, b5⟩ := NetUnparser.exists_u8 (b.drop 5) (by simp; omega)
  obtain ⟨opcode, b6⟩ := NetUnparser.exists_u16 (b.drop 6) (by simp; omega)
  obtain ⟨senderEthernetAddress, b8⟩ := EthernetAddress.exists_eq (b.drop 8) (by simp; omega)
  obtain ⟨senderIpAddress, b14⟩ := NetUnparser.exists_u32 (b.drop 14) (by simp; omega)
  obtain ⟨targetEthernetAddress, b18⟩ := EthernetAddress.exists_eq (b.drop 18) (by simp; omega)
  obtain ⟨targetIpAddress, b24⟩ := NetUnparser.exists_u32 (b.drop 24) (by simp; omega)
  refine ⟨⟨hardwareType, protocolType, hardwareAddressSize, protocolAddressSize, opcode, senderEthernetAddress,
    senderIpAddress, targetEthernetAddress, targetIpAddress⟩, ?_⟩
  simp only [List.drop_drop] at b2 b4 b5 b6 b8 b14 b18 b24
  conv_lhs => rw [b0, b2, b4, b5, b6, b8, b14, b18, b24]
  simp only [fixedBytes, addressBytes, List.append_assoc]

/-- Ethernet and IPv4, addresses of six and four bytes, and a request or a reply. -/
def Ethernet4 (fixed : List UInt8) : Prop := fixed = [0, 1, 8, 0, 6, 4, 0, 1] ∨ fixed = [0, 1, 8, 0, 6, 4, 0, 2]

theorem withHeader_of_fixedBytes {m m' : ARPMessage} (same : m.fixedBytes = m'.fixedBytes) (m₀ : ARPMessage) :
    m₀.withHeader m = m₀.withHeader m' := by
  have read := parseHeader_parses m₀ m []
  rw [same, parseHeader_parses m₀ m' []] at read
  exact (Prod.mk.inj (Option.some.inj read)).1.symm

theorem supported_iff (m : ARPMessage) : m.supported = true ↔ Ethernet4 m.fixedBytes := by
  constructor
  · intro supported
    simp only [ARPMessage.supported, Bool.and_eq_true, Bool.or_eq_true, beq_iff_eq] at supported
    obtain ⟨⟨⟨⟨hardware, protocol⟩, six⟩, four⟩, opcode⟩ := supported
    rw [Ethernet4, fixedBytes, hardware, protocol, six, four]
    rcases opcode with request | reply
    · exact Or.inl (by rw [request]; decide)
    · exact Or.inr (by rw [reply]; decide)
  · -- the eight bytes determine the fields that are compared
    have known : ∀ opcode : UInt16, m.fixedBytes = ({ opcode } : ARPMessage).fixedBytes →
        m.supported = ({ opcode } : ARPMessage).supported := by
      intro opcode same
      rw [← supported_withHeader {} m, withHeader_of_fixedBytes same, supported_withHeader]
    rintro (request | reply)
    · rw [known opcodeRequest (request.trans (by decide))]
      decide
    · rw [known opcodeReply (reply.trans (by decide))]
      decide

/-- **The ARP format**: a supported message is read back; and exactly the strings of at least 28 bytes whose first eight
say so are accepted, as a message that is written with the same 28 bytes. -/
theorem arp_codec :
    (∀ m : ARPMessage, m.supported = true →
      ∃ b, m.serialize = some b ∧ ∀ m₀ : ARPMessage, m₀.parse b = some (m, .noError)) ∧
    ∀ (m₀ : ARPMessage) (b : Buffer), ∃ m r, m₀.parse b = some (m, r) ∧
      (r = .noError ↔ 28 ≤ b.length ∧ Ethernet4 (b.take 8)) ∧ (r = .noError → m.serialize = some (b.take 28)) := by
  refine ⟨fun m supported => parse_serialize supported, fun m₀ b => ?_⟩
  rcases Nat.lt_or_ge b.length messageLength with short | enough
  · refine ⟨m₀, .packetTooShort, if_pos short, ?_, by simp⟩
    exact ⟨by simp, fun ⟨long, _⟩ => absurd long (Nat.not_le.2 short)⟩
  · obtain ⟨m, bytes⟩ := exists_eq b enough
    have fixed : b.take 8 = m.fixedBytes := by
      rw [bytes, ← m.length_fixedBytes, List.take_left]
    have whole : b.take 28 = m.fixedBytes ++ m.addressBytes := by
      have length : (m.fixedBytes ++ m.addressBytes).length = 28 := by
        rw [List.length_append, length_fixedBytes, length_addressBytes]
      rw [bytes, ← List.append_assoc, ← length, List.take_left]
    have run := parse_bytes m₀ m (b.drop messageLength)
    rw [← bytes] at run
    rw [fixed, ← supported_iff, whole]
    by_cases supported : m.supported = true
    · rw [if_pos supported] at run
      exact ⟨m, .noError, run, by simp only [true_iff]; exact ⟨enough, supported⟩, fun _ => serialize_eq supported⟩
    · rw [if_neg supported] at run
      exact ⟨_, .unsupported, run, ⟨by simp, fun ⟨_, h⟩ => absurd h supported⟩, by simp⟩

/-- A request is read back. -/
theorem arp_codec_request : ({ opcode := opcodeRequest, senderIpAddress := 7 } : ARPMessage).supported = true ∧
    ∃ b, ({ opcode := opcodeRequest, senderIpAddress := 7 } : ARPMessage).serialize = some b ∧
      ARPMessage.parse {} b = some ({ opcode := opcodeRequest, senderIpAddress := 7 }, .noError) := by
  obtain ⟨b, written, read⟩ := arp_codec.1 { opcode := opcodeRequest, senderIpAddress := 7 } (by decide)
  exact ⟨by decide, b, written, read {}⟩

end ARPMessage

/-! ### Ethernet frames -/

namespace EthernetHeader

theorem serialize_eq (h : EthernetHeader) : h.serialize = h.dst.bytes ++ (h.src.bytes ++ NetUnparser.u16 h.type) := by
  rw [serialize, NetUnparser.flatMap_u8, NetUnparser.flatMap_u8, List.append_assoc]

theorem length_serialize (h : EthernetHeader) : h.serialize.length = headerLength := by
  rw [serialize_eq, List.length_append, List.length_append, h.dst.length, h.src.length, NetUnparser.length_u16]
  rfl

theorem parseFields_parses (h : EthernetHeader) : Parses parseFields h.serialize h := by
  rw [serialize_eq]
  exact (NetParser.bytes_parses 6 _ h.dst.length).bind <| (NetParser.bytes_parses 6 _ h.src.length).bind <|
    (NetUnparser.u16_parses _).last _

/-- Any fourteen bytes are a header. -/
theorem exists_eq (b : Buffer) (enough : headerLength ≤ b.length) :
    ∃ h : EthernetHeader, b = h.serialize ++ b.drop headerLength := by
  simp only [headerLength] at enough ⊢
  obtain ⟨dst, b0⟩ := EthernetAddress.exists_eq b (by omega)
  obtain ⟨src, b6⟩ := EthernetAddress.exists_eq (b.drop 6) (by simp; omega)
  obtain ⟨type, b12⟩ := NetUnparser.exists_u16 (b.drop 12) (by simp; omega)
  refine ⟨⟨dst, src, type⟩, ?_⟩
  simp only [List.drop_drop] at b6 b12
  conv_lhs => rw [b0, b6, b12]
  simp only [serialize_eq, List.append_assoc]

theorem parse_bytes (h₀ h : EthernetHeader) (rest : Buffer) :
    h₀.parse { buffer := h.serialize ++ rest } = some ((h, .noError), { buffer := rest }) := by
  have enough : ¬ (h.serialize ++ rest).length < headerLength := by
    rw [List.length_append, length_serialize]
    omega
  rw [parse, Parsing.bind_of_some (Parsing.get_eq _), if_neg enough, Parsing.bind_of_some (h.parseFields_parses rest),
    Parsing.bind_of_some (Parsing.get_eq _)]
  rfl

/-- Too few bytes are reported, and the parser is left as it was. -/
theorem parse_short (h : EthernetHeader) {b : Buffer} (short : b.length < headerLength) :
    h.parse { buffer := b } = some ((h, .packetTooShort), { buffer := b }) := by
  rw [parse, Parsing.bind_of_some (Parsing.get_eq _), if_pos short]
  rfl

end EthernetHeader

namespace EthernetFrame

open EthernetHeader (headerLength)

theorem concatenate_serialize (frame : EthernetFrame) :
    frame.serialize.concatenate = frame.header.serialize ++ frame.payload.concatenate := by
  rw [serialize, BufferList.concatenate_append, BufferList.concatenate_append, BufferList.concatenate_ofString]
  rfl

theorem parse_bytes (frame : EthernetFrame) (h : EthernetHeader) (rest : Buffer) :
    frame.parse (h.serialize ++ rest) = some (⟨h, .ofString rest⟩, .noError) := by
  rw [parse, EthernetHeader.parse_bytes]
  rfl

/-- A truncated frame keeps the header it had and takes the bytes for its payload. -/
theorem parse_short (frame : EthernetFrame) {b : Buffer} (short : b.length < headerLength) :
    frame.parse b = some (⟨frame.header, .ofString b⟩, .noError) := by
  rw [parse, EthernetHeader.parse_short _ short]
  rfl

/-- `parse` returns `NoError` for the strings of at least fourteen bytes only, and then for a frame that is written
with the same bytes. -/
def AcceptsExactly (frame : EthernetFrame) (b : Buffer) : Prop :=
  ∃ frame' r, frame.parse b = some (frame', r) ∧ (r = .noError ↔ 14 ≤ b.length) ∧
    (r = .noError → frame'.serialize.concatenate = b)

/-- **The Ethernet format**: every frame is read back, and what is accepted is as it should be exactly for the strings
that are not truncated. -/
theorem frame_codec_iff (frame₀ : EthernetFrame) :
    (∀ frame : EthernetFrame, ∃ frame', frame₀.parse frame.serialize.concatenate = some (frame', .noError) ∧
      frame'.header = frame.header ∧ frame'.payload.concatenate = frame.payload.concatenate) ∧
    ∀ b, AcceptsExactly frame₀ b ↔ headerLength ≤ b.length := by
  refine ⟨fun frame => ?_, fun b => ⟨fun accepts => ?_, fun enough => ?_⟩⟩
  · rw [concatenate_serialize, parse_bytes]
    exact ⟨_, rfl, rfl, BufferList.concatenate_ofString _⟩
  · obtain ⟨frame', r, run, exact, -⟩ := accepts
    refine Nat.le_of_not_lt fun short => ?_
    cases (parse_short frame₀ short).symm.trans run
    exact absurd (exact.1 rfl) (Nat.not_le.2 short)
  · obtain ⟨h, bytes⟩ := EthernetHeader.exists_eq b enough
    have run := parse_bytes frame₀ h (b.drop headerLength)
    rw [← bytes] at run
    refine ⟨_, _, run, by simp only [true_iff]; exact enough, fun _ => ?_⟩
    rw [concatenate_serialize, BufferList.concatenate_ofString, ← bytes]

/-- Three bytes, given to a new frame, are accepted. -/
theorem truncated_frame_accepted :
    ¬ ∀ b : Buffer, AcceptsExactly ⟨⟨.zero, .zero, 0⟩, {}⟩ b := by
  intro claim
  obtain ⟨frame', r, run, exact, -⟩ := claim [1, 2, 3]
  cases (parse_short _ (by decide)).symm.trans run
  exact absurd (exact.1 rfl) (by decide)

end EthernetFrame

end Sponge
