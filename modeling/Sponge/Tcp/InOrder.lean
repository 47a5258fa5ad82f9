import Sponge.Tcp.Listening

/-!
# In-order data

The plainest run of a receiver: the next bytes arrive, are written out and read,
and nothing is ever stored. `Drained` is the receiver between two such segments
and `Fed` what one of them leaves, up to and including the segment that ends at
index `2 ^ 64`. There the 64-bit index of the reassembler is 0 again, the check
against the window no longer cuts the segment, and the receiver takes the index
for that of a stream that has not begun. A connection whose sender has nothing to
send answers each segment with one acknowledgment.
-/

namespace Sponge

namespace StreamReassembler

/-- The next bytes arrive with nothing stored: they are written out, as far as there is room. The source compares their
end with the window's in 64 bits, so they are not cut to the window when they end at index `2 ^ 64`. -/
theorem push_next {r : StreamReassembler} (empty : r.unassembled = []) (noEof : r.eof = false) (going : r.eofed = false)
    {data : List UInt8} (some : data ≠ []) (window : r.firstIndex + r.output.remainingCapacity < word64)
    (room : 0 < r.output.remainingCapacity)
    (whole : data.length ≤ r.output.remainingCapacity ∨ r.firstIndex + data.length = word64) :
    r.pushSubstring? data r.firstIndex false = Option.some { r with
      output := r.output.write data
      unassembledBytes := sub64 (add64 r.unassembledBytes data.length) data.length
      firstIndex := add64 r.firstIndex data.length } := by
  have positive : 0 < data.length := List.length_pos_iff.2 some
  have last : sub64 (add64 r.firstIndex data.length) 1 = r.firstIndex + data.length - 1 := by
    simp only [add64, sub64, word64] at *
    omega
  have edge : r.maxAcindex = r.firstIndex + r.output.remainingCapacity := add64_eq window
  have uncut : ¬ add64 r.firstIndex data.length > r.maxAcindex := by
    rw [edge]
    simp only [add64, word64] at *
    omega
  have clipped : r.clip data r.firstIndex =
      Option.some ⟨r.firstIndex, data.length, r.firstIndex + data.length - 1, .ofString data⟩ := by
    rw [clip, last]
    simp only [Nat.lt_irrefl, if_false]
    rw [if_neg (by omega), if_neg uncut, List.drop_zero, List.take_length]
  have noted : r.noteEof data r.firstIndex false = r := rfl
  rw [pushSubstring?, going, noted, accept, clipped]
  simp only [empty, store, target, insertFresh, absorbAt, absorb, flush, endIfComplete, noEof, going, List.takeWhile_nil,
    List.dropWhile_nil, List.getLast?_nil, Option.map_some, if_true, Bool.false_and, Bool.false_eq_true, if_false,
    BufferList.size_ofString, BufferList.concatenate_ofString, List.nil_append]

end StreamReassembler

/-- The segment that brings `data` at index `n` of a stream numbered from `x`. -/
def TCPSegment.carrying (x : WrappingInt32) (n : Nat) (data : List UInt8) : TCPSegment where
  header := { seqno := wrap (1 + n) x }
  payload := data

namespace TCPReceiver

/-- `n` bytes of a stream numbered from `x` were received and read, and `free` more fit. -/
structure Drained (x : WrappingInt32) (free n : Nat) (r : TCPReceiver) : Prop where
  synced : r.Synced x
  waiting : r.fin = .notReceived
  empty : r.reassembler.unassembled = []
  first : r.reassembler.firstIndex = n
  count : r.streamOut.writeCount = n
  room : r.streamOut.remainingCapacity = free

/-- What the next bytes leave. -/
structure Fed (x : WrappingInt32) (n : Nat) (data : List UInt8) (r r' : TCPReceiver) : Prop where
  output : r'.streamOut = r.streamOut.write data
  empty : r'.reassembler.unassembled = []
  first : r'.reassembler.firstIndex = add64 n data.length
  waiting : r'.fin = .notReceived
  synced : n + data.length < word64 → r'.Synced x
  stale : n + data.length = word64 → r'.ackno = r.ackno ∧ r'.isn = r.isn

variable {x : WrappingInt32} {free n : Nat} {r r' : TCPReceiver} {data : List UInt8}

theorem Drained.going (h : r.Drained x free n) : r.reassembler.eof = false ∧ r.reassembler.eofed = false := by
  refine ⟨Bool.eq_false_iff.2 fun eof => h.synced.eof.1 eof h.waiting, Bool.eq_false_iff.2 fun eofed => ?_⟩
  have reached := h.synced.eofed.1 eofed
  rw [h.waiting] at reached
  cases reached

theorem Drained.ackno (h : r.Drained x free n) : r.ackno = some (wrap (1 + n) x) := by
  rw [TCPReceiver.ackno, h.waiting, h.synced.ackno, h.first]
  rfl

/-- The next bytes are taken at their place. -/
theorem Drained.place (h : r.Drained x free n) (below : n + 1 < word64) (data : List UInt8) :
    r.streamIndex (.carrying x n data) = r.reassembler.firstIndex ∧ r.ignores (.carrying x n data) = false := by
  have nearby : ∀ v, n ≤ v → v ≤ n + 1 → unwrap (wrap v x) x r.lastAbseqno = v := by
    intro v low high
    have last := h.synced.last
    rw [h.first] at last
    exact unwrap_wrap_nearest _ (by omega) (by omega) (Or.inl (by omega))
  refine ⟨?_, ?_⟩
  · rw [streamIndex, h.synced.syn, h.synced.isn, h.first, TCPSegment.carrying]
    simp only [if_true]
    rw [Nat.add_comm, wrap_succ_sub_one]
    exact nearby n (by omega) (by omega)
  · rw [ignores, h.synced.syn, h.synced.isn, show (TCPSegment.carrying x n data).header.seqno = wrap (1 + n) x from rfl,
      nearby (1 + n) (by omega) (by omega), beq_eq_false_iff_ne.2 (by omega)]
    rfl

/-- **The next bytes**, if they fit or end at index `2 ^ 64`. -/
theorem Drained.received (h : r.Drained x free n) (nonzero : 0 < free) (below : n + free < word64) (some : data ≠ [])
    (whole : data.length ≤ free ∨ n + data.length = word64) :
    ∃ r', r.segmentReceived? (.carrying x n data) = Option.some r' ∧ Fed x n data r r' := by
  have room : r.reassembler.output.remainingCapacity = free := h.room
  obtain ⟨index, taken⟩ := h.place (by omega) data
  have pushed := StreamReassembler.push_next h.empty h.going.1 h.going.2 some (by rw [room, h.first]; exact below)
    (by rw [room]; exact nonzero) (by rw [room, h.first]; exact whole)
  generalize is : StreamReassembler.mk .. = re at pushed
  have run : r.segmentReceived? (.carrying x n data) =
      Option.some (r.afterPush (TCPSegment.carrying x n data).header re) := by
    rw [segmentReceived?, taken, index, show (TCPSegment.carrying x n data).payload = data from rfl,
      show (TCPSegment.carrying x n data).header.fin = false from rfl, pushed]
    rfl
  have same := afterPush_reassembler r (TCPSegment.carrying x n data).header (h.synced.flagged.pushed pushed).2.2.2
  have first : re.firstIndex = add64 n data.length := by rw [← is, h.first]
  refine ⟨_, run, ?_, ?_, ?_, (h.synced.flagged.took run).fin h.waiting (Or.inl rfl), fun fits => ?_, fun full => ?_⟩
  · rw [streamOut, same, ← is]
    rfl
  · rw [same, ← is]
    exact h.empty
  · rw [same, first]
  · refine h.synced.afterPush rfl pushed ?_
    rw [h.first, first, add64_eq fits]
    omega
  · -- `first_unassembled() != 0` fails, so neither `_ackno` nor `_last_abseqno` is set
    have zero : re.firstIndex = 0 := by rw [first, add64, full, Nat.mod_self]
    have kept : r.afterPush (TCPSegment.carrying x n data).header re = { r with reassembler := re } := by
      simp [afterPush, noteAssembled, noteSyn, noteFin, TCPSegment.carrying, StreamReassembler.firstUnassembled, zero,
        h.waiting]
    rw [kept]
    exact ⟨rfl, rfl⟩

theorem Fed.fullFined (fed : Fed x n data r r') : r'.fullFined = false := by
  rw [TCPReceiver.fullFined, fed.waiting]
  rfl

/-- What is written of the next bytes takes its room. -/
theorem Fed.counts (h : r.Drained x free n) (fed : Fed x n data r r') :
    r'.streamOut.writeCount = n + min data.length free ∧ r'.windowSize = free - min data.length free := by
  have length : r.streamOut.writeLength data = min data.length free := by rw [ByteStream.writeLength, h.room]
  refine ⟨?_, ?_⟩
  · rw [← length, ← h.count, fed.output]
    rfl
  · rw [windowSize, fed.output, ByteStream.remainingCapacity_write, h.room, length]

/-- Bytes that fit are acknowledged, and when they are read the receiver is as before. -/
theorem Fed.drained (h : r.Drained x free n) (below : n + free < word64) (fits : data.length ≤ free)
    (fed : Fed x n data r r') :
    r'.ackno = some (wrap (1 + (n + data.length)) x) ∧ Drained x free (n + data.length) (r'.popOutput data.length) := by
  have synced := fed.synced (by omega)
  have first : r'.reassembler.firstIndex = n + data.length := fed.first.trans (add64_eq (by omega))
  have length : min data.length free = data.length := Nat.min_eq_left fits
  obtain ⟨count, window⟩ := fed.counts h
  rw [length] at count window
  refine ⟨?_, synced.withOutput _ rfl, fed.waiting, fed.empty, first, count, ?_⟩
  · rw [TCPReceiver.ackno, fed.waiting, synced.ackno, first]
    rfl
  · have stored : data.length ≤ r'.streamOut.buffer.size := by
      rw [fed.output, show (r.streamOut.write data).buffer = r.streamOut.writeBuffer data from rfl,
        ByteStream.size_writeBuffer, ByteStream.writeLength, h.room, length]
      omega
    rw [show (r'.popOutput data.length).streamOut = r'.streamOut.popOutput data.length from rfl,
      ByteStream.remainingCapacity_popOutput, ← windowSize, window, Nat.min_eq_right stored]
    omega

end TCPReceiver

/-! ### The answer of an idle connection -/

namespace TCPSender

/-- The SYN is out and there is nothing to send. -/
structure Idle (s : TCPSender) : Prop where
  syned : s.syned = true
  fills : s.fillWindow = s
  queue : s.segmentsOut = []
  few : s.resendTryTimes = 0
  unfinished : s.fullFined = false

/-- An acknowledgment without data. -/
def acknowledgment (s : TCPSender) (ackno : WrappingInt32) (win : UInt16) : TCPSegment where
  header := { seqno := wrap s.nextAbsSeqno s.isn, ack := true, ackno, win }

end TCPSender

namespace TCPConnection

/-- The empty segment leaves as an acknowledgment. -/
theorem judgeDo_answer {c : TCPConnection} {s : TCPSender} (idle : s.Idle) (sender : c.sender = s.sendEmptySegment)
    (active : c.active = true) (noRst : c.rst = false) {ackno : WrappingInt32} (number : c.receiver.ackno = some ackno) :
    c.judgeDo = { c with sender := s, segmentsOut := c.segmentsOut ++ [s.acknowledgment ackno c.advertised] } := by
  have queue := idle.queue
  have pulled : { s.sendEmptySegment with segmentsOut := [] } = s := by
    rw [← queue]
    rfl
  rw [judgeDo_pull active noRst (by rw [sender]; exact idle.few) (by rw [sender]; exact idle.unfinished), pullPushSegments,
    sender, pulled]
  simp [TCPSender.sendEmptySegment, queue, outgoing, noRst, number, TCPSender.emptySegment, TCPSender.acknowledgment]

end TCPConnection

namespace Endpoint

/-- **An endpoint whose sender is idle** answers data with an acknowledgment. -/
theorem step_answers {e : Endpoint} (idle : e.conn.sender.Idle) (active : e.conn.active = true)
    (noRst : e.conn.rst = false) {x : WrappingInt32} {n : Nat} {data : List UInt8} (some : data ≠ []) {r : TCPReceiver}
    (run : e.conn.receiver.segmentReceived? (.carrying x n data) = Option.some r) (going : r.fullFined = false)
    {ackno : WrappingInt32} (number : r.ackno = Option.some ackno) :
    ∃ e', e.step (.segmentReceived (.carrying x n data)) = Option.some e' ∧ e'.conn = { e.conn with
      receiver := r
      lastSegTimer := 0
      segmentsOut := e.conn.segmentsOut ++
        [e.conn.sender.acknowledgment ackno { e.conn with receiver := r }.advertised] } := by
  have reacts : ((e.receive r).react (.carrying x n data)).conn =
      { (e.receive r).conn with sender := e.conn.sender.sendEmptySegment } := by
    simp [react, receive, on, TCPConnection.ackSender, TCPSegment.carrying, fillIfSyned, fill, TCPConnection.noteLinger,
      TCPConnection.replyEmpty, TCPConnection.repliesEmpty, TCPSegment.lengthInSequenceSpace, idle.syned, idle.fills,
      idle.queue, going, some]
  refine ⟨((e.receive r).react (.carrying x n data)).on (·.judgeDo), ?_, ?_⟩
  · rw [step_segment e rfl, run]
    rfl
  · rw [on, reacts]
    exact TCPConnection.judgeDo_answer (c := { (e.receive r).conn with sender := e.conn.sender.sendEmptySegment }) idle rfl
      active noRst number

end Endpoint

end Sponge
