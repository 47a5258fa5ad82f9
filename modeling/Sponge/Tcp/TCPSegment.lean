import Sponge.Logic.Word
import Sponge.Tcp.WrappingIntegers
import Sponge.Util.Parser

/-!
# TCP segments and the configuration

`tcp_helpers/tcp_header.{hh,cc}` and `tcp_helpers/tcp_segment.{hh,cc}`, and the
constants and the fields of `TCPConfig` (`tcp_helpers/tcp_config.hh`).
-/

namespace Sponge

/-- `TCPHeader`, with the source's default values. -/
structure TCPHeader where
  sport : UInt16 := 0
  dport : UInt16 := 0
  seqno : WrappingInt32 := .ofNat 0
  ackno : WrappingInt32 := .ofNat 0
  doff : UInt8 := 5
  urg : Bool := false
  ack : Bool := false
  psh : Bool := false
  rst : Bool := false
  syn : Bool := false
  fin : Bool := false
  win : UInt16 := 0
  cksum : UInt16 := 0
  uptr : UInt16 := 0
  deriving DecidableEq

namespace TCPHeader

/-- `LENGTH`. -/
def headerLength : Nat := 20

/-- The fields of `parse`. -/
def parseFields (h : TCPHeader) : Parsing TCPHeader := do
  let sport ← NetParser.u16
  let dport ← NetParser.u16
  let seqno ← NetParser.u32
  let ackno ← NetParser.u32
  let offset ← NetParser.u8
  let flB ← NetParser.u8
  let win ← NetParser.u16
  let cksum ← NetParser.u16
  let uptr ← NetParser.u16
  pure { h with
    sport, dport
    seqno := .ofNat seqno.toNat
    ackno := .ofNat ackno.toNat
    doff := offset >>> 4
    urg := flB &&& 0b00100000 != 0
    ack := flB &&& 0b00010000 != 0
    psh := flB &&& 0b00001000 != 0
    rst := flB &&& 0b00000100 != 0
    syn := flB &&& 0b00000010 != 0
    fin := flB &&& 0b00000001 != 0
    win, cksum, uptr }

/-- `parse`: the header as it is left, and the result. -/
def parse (h : TCPHeader) : Parsing (TCPHeader × ParseResult) := do
  let h ← h.parseFields
  if h.doff < 5 then return (h, .headerTooShort)
  -- options, or anything extra in the header
  NetParser.dropBytes (h.doff.toNat * 4 - headerLength)
  let error := (← get).error
  if error ≠ .noError then return (h, error)
  return (h, .noError)

/-- `fl_b` of `serialize`. -/
def flagByte (h : TCPHeader) : UInt8 :=
  (if h.urg then 0b00100000 else 0) ||| (if h.ack then 0b00010000 else 0) ||| (if h.psh then 0b00001000 else 0) |||
    (if h.rst then 0b00000100 else 0) ||| (if h.syn then 0b00000010 else 0) ||| (if h.fin then 0b00000001 else 0)

/-- `serialize`, which throws on a header length below the minimum. -/
def serialize (h : TCPHeader) : Option (List UInt8) :=
  if h.doff < 5 then none
  else
    let fields := NetUnparser.u16 h.sport ++ NetUnparser.u16 h.dport ++ NetUnparser.u32 (.ofNat h.seqno.rawValue) ++
      NetUnparser.u32 (.ofNat h.ackno.rawValue) ++ NetUnparser.u8 (h.doff <<< 4) ++ NetUnparser.u8 h.flagByte ++
      NetUnparser.u16 h.win ++ NetUnparser.u16 h.cksum ++ NetUnparser.u16 h.uptr
    -- `ret.resize(4 * doff)` pads with zeros
    some (fields ++ List.replicate (4 * h.doff.toNat - headerLength) 0)

end TCPHeader

/-- `TCPSegment`. -/
structure TCPSegment where
  header : TCPHeader := {}
  payload : Buffer := []
  deriving DecidableEq

/-- `length_in_sequence_space`. -/
def TCPSegment.lengthInSequenceSpace (seg : TCPSegment) : Nat :=
  seg.payload.length + (if seg.header.syn then 1 else 0) + (if seg.header.fin then 1 else 0)

/-- `parse`. The result of the header's `parse` is not looked at, only the parser's error. -/
def TCPSegment.parse (seg : TCPSegment) (buffer : Buffer) (datagramLayerChecksum : UInt32) :
    Option (TCPSegment × ParseResult) :=
  if (({ sum := datagramLayerChecksum } : InternetChecksum).add buffer).value ≠ 0 then some (seg, .badChecksum)
  else do
    let ((header, _), p) ← seg.header.parse { buffer }
    some ({ header, payload := p.buffer }, p.error)

/-- `serialize`. -/
def TCPSegment.serialize (seg : TCPSegment) (datagramLayerChecksum : UInt32) : Option BufferList := do
  let headerZeroChecksum ← { seg.header with cksum := 0 }.serialize
  let check := (({ sum := datagramLayerChecksum } : InternetChecksum).add headerZeroChecksum).add seg.payload
  let header ← { seg.header with cksum := check.value }.serialize
  some ((BufferList.ofString header).append (.ofString seg.payload))

namespace TCPConfig

/-- `DEFAULT_CAPACITY`. -/
def defaultCapacity : Nat := 64000

/-- `MAX_PAYLOAD_SIZE`. -/
def maxPayloadSize : Nat := 1000

/-- `TIMEOUT_DFLT`. -/
def timeoutDflt : UInt16 := 1000

/-- `MAX_RETX_ATTEMPTS`. -/
def maxRetxAttempts : Nat := 8

end TCPConfig

/-- `TCPConfig`; the initial sequence number is the fixed one or, when none is
set, the random one the sender draws. The capacities are 64-bit numbers. -/
structure TCPConfig where
  rtTimeout : UInt16 := TCPConfig.timeoutDflt
  recvCapacity : Nat := TCPConfig.defaultCapacity
  sendCapacity : Nat := TCPConfig.defaultCapacity
  isn : WrappingInt32
  recvFits : recvCapacity < word64 := by decide
  sendFits : sendCapacity < word64 := by decide
  deriving DecidableEq

end Sponge
