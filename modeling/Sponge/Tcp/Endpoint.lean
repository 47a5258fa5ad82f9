import Sponge.Tcp.SenderTiling
import Sponge.Tcp.TCPConnection

/-!
# A connection and what it has done

`Endpoint` is a connection with its history: the bytes `write` accepted, the
segments its sender created and the bytes its reader took. Every operation is a
chain of phases, each of which changes one part of the connection, followed by
`judge_do`. What `judge_do` can do is said once (`Judged`), and the invariant
`Sends` on everything the endpoint has put out is kept by every phase.
-/

namespace Sponge

namespace TCPConnection

/-- The operations of the class, and the reader of `inbound_stream()`. -/
inductive Op where
  | connect
  | write (data : List UInt8)
  | endInputStream
  | tick (ms : Nat)
  | segmentReceived (seg : TCPSegment)
  | read (len : Nat)
  deriving DecidableEq

def Op.perform? (c : TCPConnection) : Op → Option TCPConnection
  | .connect => some c.connect
  | .write data => some (c.write data)
  | .endInputStream => some c.endInputStream
  | .tick ms => some (c.tick ms)
  | .segmentReceived seg => c.segmentReceived? seg
  | .read len => some (c.popInbound len)

/-- The sender on which the operation calls `fill_window`, if it does. The further call in `fully_dead(0)` is made when
the FIN is out, and creates nothing. -/
def Op.filling (c : TCPConnection) : Op → Option TCPSender
  | .connect => some c.sender
  | .write data => if c.sender.syned then some (c.sender.write data) else none
  | .endInputStream => some c.sender.endInput
  | .tick ms => if c.sender.syned then some (c.sender.tick ms) else none
  | .segmentReceived seg =>
    if seg.header.rst then none
    else if c.sender.syned then some (c.ackSender seg).sender
    else if seg.header.syn then some c.sender
    else none
  | .read _ => none

end TCPConnection

/-- A connection, the bytes `write` reported as written, the segments its sender created and the bytes read. -/
structure Endpoint where
  conn : TCPConnection
  written : List UInt8 := []
  created : List TCPSegment := []
  taken : List UInt8 := []
  deriving DecidableEq

namespace Endpoint

open TCPSender (SameData Tiled appended seqLength)
open TCPConnection (Op)

/-- A new connection. -/
def new (cfg : TCPConfig) : Endpoint := { conn := .new cfg }

def step (e : Endpoint) (op : Op) : Option Endpoint :=
  (op.perform? e.conn).map fun conn => {
    conn
    written := match op with
      | .write data => e.written ++ data.take (e.conn.written data)
      | _ => e.written
    created := match op.filling e.conn with
      | some s => e.created ++ appended s s.fillWindow
      | none => e.created
    taken := match op with
      | .read len => e.taken ++ e.conn.inboundStream.peekOutput len
      | _ => e.taken }

/-! ### The operations as chains of phases -/

/-- A phase that changes the connection only. -/
def on (e : Endpoint) (f : TCPConnection → TCPConnection) : Endpoint := { e with conn := f e.conn }

/-- `fill_window`. -/
def fill (e : Endpoint) : Endpoint :=
  { e with
    conn := { e.conn with sender := e.conn.sender.fillWindow }
    created := e.created ++ appended e.conn.sender e.conn.sender.fillWindow }

def fillIfSyned (e : Endpoint) : Endpoint := if e.conn.sender.syned then e.fill else e

/-- The sender's stream takes what fits of `data`. -/
def accept (e : Endpoint) (data : List UInt8) : Endpoint :=
  { e with
    conn := { e.conn with sender := e.conn.sender.write data }
    written := e.written ++ data.take (e.conn.written data) }

/-- The sender's stream is ended. -/
def endInput (e : Endpoint) : Endpoint := e.on fun c => { c with sender := c.sender.endInput }

/-- The connection's timer and the sender's. -/
def passTime (e : Endpoint) (ms : Nat) : Endpoint :=
  e.on fun c => { c with lastSegTimer := add64 c.lastSegTimer ms, sender := c.sender.tick ms }

/-- A reset has arrived. -/
def reset (e : Endpoint) : Endpoint := e.on fun c => { c with lastSegTimer := 0, rst := true }

/-- The segment has been given to the receiver. -/
def receive (e : Endpoint) (receiver : TCPReceiver) : Endpoint :=
  e.on fun c => { c with lastSegTimer := 0, receiver }

/-- `segment_received` after the receiver. -/
def react (e : Endpoint) (seg : TCPSegment) : Endpoint :=
  if seg.header.syn && !e.conn.sender.syned then e.fill
  else ((e.on (·.ackSender seg)).fillIfSyned.on (·.noteLinger)).on (·.replyEmpty seg)

theorem step_connect (e : Endpoint) : e.step .connect = some (e.fill.on (·.judgeDo)) := rfl

theorem step_write (e : Endpoint) (data : List UInt8) :
    e.step (.write data) = some ((e.accept data).fillIfSyned.on (·.judgeDo)) := by
  have syned : (e.conn.sender.write data).syned = e.conn.sender.syned := rfl
  cases same : e.conn.sender.syned <;>
    simp [step, Op.perform?, Op.filling, TCPConnection.write, TCPConnection.fillIfSyned, fillIfSyned, accept, fill, on,
      same, syned]

theorem step_endInputStream (e : Endpoint) : e.step .endInputStream = some (e.endInput.fill.on (·.judgeDo)) := rfl

theorem step_tick (e : Endpoint) (ms : Nat) :
    e.step (.tick ms) = some ((e.passTime ms).fillIfSyned.on (·.judgeDo)) := by
  have syned : (e.conn.sender.tick ms).syned = e.conn.sender.syned := (e.conn.sender.tick_spec ms).1.syned
  cases same : e.conn.sender.syned <;>
    simp [step, Op.perform?, Op.filling, TCPConnection.tick, TCPConnection.fillIfSyned, fillIfSyned, passTime, fill, on, same,
      syned]

theorem step_read (e : Endpoint) (len : Nat) : e.step (.read len) = some { e with
    conn := e.conn.popInbound len
    taken := e.taken ++ e.conn.inboundStream.peekOutput len } := rfl

theorem step_rst (e : Endpoint) {seg : TCPSegment} (rst : seg.header.rst = true) :
    e.step (.segmentReceived seg) = some (e.reset.on (·.judgeDo)) := by
  simp [step, Op.perform?, Op.filling, TCPConnection.segmentReceived?, rst, reset, on]

/-- The three phases of `segment_received` that change one field. -/
theorem ackSender_eq (c : TCPConnection) (seg : TCPSegment) :
    c.ackSender seg = { c with sender := (c.ackSender seg).sender } := by
  unfold TCPConnection.ackSender
  split <;> rfl

theorem replyEmpty_eq (c : TCPConnection) (seg : TCPSegment) :
    c.replyEmpty seg = { c with sender := (c.replyEmpty seg).sender } := by
  unfold TCPConnection.replyEmpty
  split <;> rfl

theorem noteLinger_eq (c : TCPConnection) :
    c.noteLinger = { c with lingerAfterStreamsFinish := c.noteLinger.lingerAfterStreamsFinish } := by
  unfold TCPConnection.noteLinger
  split <;> rfl

theorem noteLinger_sender (c : TCPConnection) : c.noteLinger.sender = c.sender := by
  rw [noteLinger_eq]

theorem replyEmpty_same (c : TCPConnection) (seg : TCPSegment) : SameData c.sender (c.replyEmpty seg).sender := by
  unfold TCPConnection.replyEmpty
  split <;> exact ⟨rfl, rfl, rfl, rfl, rfl, rfl, rfl, rfl, rfl⟩

theorem ackSender_isn (c : TCPConnection) (seg : TCPSegment) : (c.ackSender seg).sender.isn = c.sender.isn := by
  unfold TCPConnection.ackSender
  split
  · exact (c.sender.ackReceived_spec _ _).isn
  · rfl

theorem ackSender_syned (c : TCPConnection) (seg : TCPSegment) : (c.ackSender seg).sender.syned = c.sender.syned := by
  unfold TCPConnection.ackSender
  split
  · exact (c.sender.ackReceived_spec _ _).syned
  · rfl

theorem step_segment (e : Endpoint) {seg : TCPSegment} (noRst : seg.header.rst = false) :
    e.step (.segmentReceived seg) =
      (e.conn.receiver.segmentReceived? seg).map fun r => ((e.receive r).react seg).on (·.judgeDo) := by
  have syned := ackSender_syned e.conn seg
  have sender : ∀ r, (TCPConnection.ackSender { e.conn with lastSegTimer := 0, receiver := r } seg).sender =
      (e.conn.ackSender seg).sender := by
    intro r
    unfold TCPConnection.ackSender
    split <;> rfl
  cases received : e.conn.receiver.segmentReceived? seg with
  | none => simp [step, Op.perform?, TCPConnection.segmentReceived?, noRst, received]
  | some r =>
    cases already : e.conn.sender.syned <;> cases isSyn : seg.header.syn <;>
      simp [step, Op.perform?, Op.filling, TCPConnection.segmentReceived?, TCPConnection.afterReceive, TCPConnection.connect,
        TCPConnection.fillIfSyned, receive, react, fillIfSyned, fill, on, noRst, received, already, isSyn, syned, sender]

/-- The endpoint as an operation has left it when it calls `judge_do`. -/
def prepare? (e : Endpoint) : Op → Option Endpoint
  | .connect => some e.fill
  | .write data => some (e.accept data).fillIfSyned
  | .endInputStream => some e.endInput.fill
  | .tick ms => some (e.passTime ms).fillIfSyned
  | .segmentReceived seg =>
    if seg.header.rst then some e.reset
    else (e.conn.receiver.segmentReceived? seg).map fun r => (e.receive r).react seg
  | .read _ => none

/-- **Every operation but a read** ends in `judge_do`. -/
theorem step_eq (e : Endpoint) {op : Op} (noRead : ∀ len, op ≠ .read len) :
    e.step op = (e.prepare? op).map fun p => p.on (·.judgeDo) := by
  cases op with
  | connect => exact step_connect e
  | write data => exact step_write e data
  | endInputStream => exact step_endInputStream e
  | tick ms => exact step_tick e ms
  | segmentReceived seg =>
    cases rst : seg.header.rst with
    | true => rw [step_rst e rst, prepare?, if_pos rst, Option.map_some]
    | false => rw [step_segment e rst, prepare?, if_neg (by rw [rst]; decide), Option.map_map, Function.comp_def]
  | read len => exact absurd rfl (noRead len)

/-- A step prepares and judges, or reads. -/
theorem step_cases {e e' : Endpoint} {op : Op} (run : e.step op = some e') :
    (∃ p, e.prepare? op = some p ∧ e' = p.on (·.judgeDo)) ∨
      ∃ len, op = .read len ∧ e' = { e with
        conn := e.conn.popInbound len
        taken := e.taken ++ e.conn.inboundStream.peekOutput len } := by
  by_cases isRead : ∃ len, op = .read len
  · obtain ⟨len, rfl⟩ := isRead
    cases run
    exact Or.inr ⟨len, rfl, rfl⟩
  · rw [step_eq e fun len is => isRead ⟨len, is⟩] at run
    obtain ⟨p, prepared, rfl⟩ := Option.map_eq_some_iff.1 run
    exact Or.inl ⟨p, prepared, rfl⟩

/-- What `prepare?` can be. -/
theorem prepare?_cases {e p : Endpoint} {op : Op} (run : e.prepare? op = some p) :
    (op = .connect ∧ p = e.fill) ∨ (∃ data, op = .write data ∧ p = (e.accept data).fillIfSyned) ∨
      (op = .endInputStream ∧ p = e.endInput.fill) ∨ (∃ ms, op = .tick ms ∧ p = (e.passTime ms).fillIfSyned) ∨
      (∃ seg, op = .segmentReceived seg ∧ seg.header.rst = true ∧ p = e.reset) ∨
      ∃ seg r, op = .segmentReceived seg ∧ seg.header.rst = false ∧ e.conn.receiver.segmentReceived? seg = some r ∧
        p = (e.receive r).react seg := by
  cases op with
  | connect => cases run; simp
  | write data => cases run; simp
  | endInputStream => cases run; simp
  | tick ms => cases run; simp
  | segmentReceived seg =>
    rw [prepare?] at run
    split at run
    · rename_i rst
      cases run
      simp [rst]
    · rename_i rst
      obtain ⟨r, received, rfl⟩ := Option.map_eq_some_iff.1 run
      simp [rst, received]
  | read len => cases run

/-! ### What `judge_do` can do -/

/-- `judge_do`: it does nothing to an inactive connection, pulls what the sender has put out, and may close. The
receiver and the sender keep what they hold; an error is noted on both streams. -/
structure Judged (c c' : TCPConnection) : Prop where
  cfg : c'.cfg = c.cfg
  sender : SameData c.sender c'.sender
  queue : ∀ seg ∈ c'.sender.segmentsOut, seg ∈ c.sender.segmentsOut
  out : ∃ new, c'.segmentsOut = c.segmentsOut ++ new ∧
    ∀ seg ∈ new, seg.header.rst = true ∨ ∃ base ∈ c.sender.segmentsOut, seg = c.outgoing base
  receiver : c'.receiver = c.receiver ∨ c'.receiver = c.receiver.setError
  alive : c'.active = true → c.active = true ∧ c'.receiver = c.receiver ∧
    c'.lingerAfterStreamsFinish = c.lingerAfterStreamsFinish ∧ c'.rst = c.rst
  linger : c'.lingerAfterStreamsFinish = c.lingerAfterStreamsFinish ∨ c.receiver.fullFined = true
  dead : c.active = false → c' = c
  clean : c.active = true → c'.active = false → c'.inboundStream.error = false →
    c.rst = false ∧ c.sender.fullFined = true ∧ (c.lingerAfterStreamsFinish = false ∨ c.receiver.fullFined = true) ∧
      c'.receiver = c.receiver

section Judge

variable {c : TCPConnection}

/-- What is pulled in a state that differs from `c` in flags that do not matter to the header. -/
theorem pull_out (d : TCPConnection) (same : ∀ seg, d.outgoing seg = c.outgoing seg)
    (queue : d.sender.segmentsOut = c.sender.segmentsOut) (out : d.segmentsOut = c.segmentsOut) :
    ∃ new, d.pullPushSegments.segmentsOut = c.segmentsOut ++ new ∧
      ∀ seg ∈ new, seg.header.rst = true ∨ ∃ base ∈ c.sender.segmentsOut, seg = c.outgoing base := by
  refine ⟨_, by rw [TCPConnection.pullPushSegments, out], fun seg member => Or.inr ?_⟩
  obtain ⟨base, made, rfl⟩ := List.mem_map.1 member
  rw [queue] at made
  exact ⟨base, made, same base⟩

theorem judged_pull (active : c.active = true) : Judged c c.pullPushSegments where
  cfg := rfl
  sender := ⟨rfl, rfl, rfl, rfl, rfl, rfl, rfl, rfl, rfl⟩
  queue := by simp [TCPConnection.pullPushSegments]
  out := pull_out c (fun _ => rfl) rfl rfl
  receiver := Or.inl rfl
  alive := fun _ => ⟨active, rfl, rfl, rfl⟩
  linger := Or.inl rfl
  dead := fun inactive => by rw [active] at inactive; cases inactive
  clean := fun active inactive => by
    rw [show c.pullPushSegments.active = c.active from rfl, active] at inactive
    cases inactive

/-- The FIN is out, so the last `fill_window` creates nothing. -/
theorem judged_closeCleanly (active : c.active = true) (noRst : c.rst = false) (finished : c.sender.fullFined = true)
    {linger : Bool} (kept : linger = c.lingerAfterStreamsFinish ∨ c.receiver.fullFined = true)
    (ready : c.lingerAfterStreamsFinish = false ∨ c.receiver.fullFined = true) :
    Judged c { c with lingerAfterStreamsFinish := linger }.closeCleanly := by
  have fined : c.sender.fined = true := (Bool.and_eq_true_iff.1 finished).1
  have idle := TCPSender.fillWindow_fined fined
  have closed : { c with lingerAfterStreamsFinish := linger }.closeCleanly =
      { { c with lingerAfterStreamsFinish := linger }.pullPushSegments with active := false } := by
    simp only [TCPConnection.closeCleanly, idle]
  rw [closed]
  refine ⟨rfl, ⟨rfl, rfl, rfl, rfl, rfl, rfl, rfl, rfl, rfl⟩, ?_, ?_, Or.inl rfl, ?_, kept, ?_, ?_⟩
  · simp [TCPConnection.pullPushSegments]
  · exact pull_out { c with lingerAfterStreamsFinish := linger } (fun _ => rfl) rfl rfl
  · intro alive
    cases alive
  · intro inactive
    rw [active] at inactive
    cases inactive
  · exact fun _ _ _ => ⟨noRst, finished, ready, rfl⟩

theorem judged_closeWithError (active : c.active = true) (ownError : Bool) : Judged c (c.closeWithError ownError) := by
  refine ⟨rfl, ?_, ?_, ?_, Or.inr rfl, ?_, Or.inl rfl, ?_, ?_⟩
  · unfold TCPConnection.closeWithError
    dsimp only
    split <;> exact ⟨rfl, rfl, rfl, rfl, rfl, rfl, rfl, rfl, rfl⟩
  · simp [TCPConnection.closeWithError, TCPConnection.pullPushSegments]
  · refine ⟨_, rfl, fun seg member => Or.inl ?_⟩
    obtain ⟨base, -, rfl⟩ := List.mem_map.1 member
    simp [TCPConnection.outgoing]
  · intro alive
    cases alive
  · intro inactive
    rw [active] at inactive
    cases inactive
  · intro _ _ noError
    cases noError

theorem judged_dead (inactive : c.active = false) : Judged c c where
  cfg := rfl
  sender := ⟨rfl, rfl, rfl, rfl, rfl, rfl, rfl, rfl, rfl⟩
  queue := fun _ member => member
  out := ⟨[], by simp⟩
  receiver := Or.inl rfl
  alive := fun active => ⟨active, rfl, rfl, rfl⟩
  linger := Or.inl rfl
  dead := fun _ => rfl
  clean := fun active => by rw [inactive] at active; cases active

theorem judged (c : TCPConnection) : Judged c c.judgeDo := by
  unfold TCPConnection.judgeDo
  by_cases active : c.active = true
  · rw [if_neg (by simp [active])]
    split
    · exact judged_closeWithError active false
    rename_i noRst
    rw [Bool.not_eq_true] at noRst
    split
    · exact judged_closeWithError active true
    split
    · -- the lingering close
      rename_i lingered
      simp only [TCPConnection.lingered, Bool.and_eq_true] at lingered
      exact judged_closeCleanly active noRst lingered.1.1.2 (Or.inr lingered.1.2) (Or.inr lingered.1.2)
    split
    · -- the passive close
      rename_i passive
      simp only [Bool.and_eq_true, Bool.not_eq_true'] at passive
      exact judged_closeCleanly active noRst passive.2 (Or.inl rfl) (Or.inl passive.1)
    · exact judged_pull active
  · rw [Bool.not_eq_true] at active
    rw [if_pos (by simp [active])]
    exact judged_dead active

end Judge

/-! ### What an endpoint puts out -/

/-- A segment the sender made: one that was created, or an empty one at a number reached. -/
def Makes (e : Endpoint) (seg : TCPSegment) : Prop :=
  seg ∈ e.created ∨ ∃ n ≤ seqLength e.created, seg = { header := { seqno := wrap n e.conn.sender.isn } }

/-- Completing the header leaves what the segment carries. -/
structure SameContent (base seg : TCPSegment) : Prop where
  payload : seg.payload = base.payload
  seqno : seg.header.seqno = base.header.seqno
  syn : seg.header.syn = base.header.syn
  fin : seg.header.fin = base.header.fin

/-- The invariant of an endpoint, for any segments it receives: its sender tiles its sequence space, and everything
it puts out, resets apart, was made by the sender. -/
structure Sends (e : Endpoint) : Prop where
  isn : e.conn.sender.isn = e.conn.cfg.isn
  tiled : Tiled e.created e.written e.conn.sender
  queue : ∀ seg ∈ e.conn.sender.segmentsOut, e.Makes seg
  out : ∀ seg ∈ e.conn.segmentsOut, seg.header.rst = true ∨ ∃ base, e.Makes base ∧ SameContent base seg

section Sends

variable {e : Endpoint}

theorem Sends.new (cfg : TCPConfig) : (Endpoint.new cfg).Sends where
  isn := rfl
  tiled := .new cfg.sendCapacity cfg.rtTimeout cfg.isn
  queue := by simp [Endpoint.new, TCPConnection.new, TCPSender.new]
  out := by simp [Endpoint.new, TCPConnection.new]

theorem outgoing_content (c : TCPConnection) (base : TCPSegment) : SameContent base (c.outgoing base) := by
  unfold TCPConnection.outgoing
  split
  · exact ⟨rfl, rfl, rfl, rfl⟩
  · split <;> exact ⟨rfl, rfl, rfl, rfl⟩

theorem Makes.mono {e' : Endpoint} {seg : TCPSegment} (h : e.Makes seg) (created : e.created <+: e'.created)
    (isn : e'.conn.sender.isn = e.conn.sender.isn) : e'.Makes seg := by
  rcases h with old | ⟨n, reached, rfl⟩
  · exact Or.inl (created.subset old)
  · obtain ⟨new, more⟩ := created
    refine Or.inr ⟨n, Nat.le_trans reached ?_, by rw [isn]⟩
    rw [← more, TCPSender.seqLength_append]
    exact Nat.le_add_right _ _

/-- A phase that makes no new segments. -/
theorem Sends.update (h : e.Sends) {e' : Endpoint} (cfg : e'.conn.cfg = e.conn.cfg)
    (isn : e'.conn.sender.isn = e.conn.sender.isn) (created : e'.created = e.created)
    (tiled : Tiled e'.created e'.written e'.conn.sender)
    (queue : ∀ seg ∈ e'.conn.sender.segmentsOut, seg ∈ e.conn.sender.segmentsOut ∨ e.Makes seg)
    (out : ∀ seg ∈ e'.conn.segmentsOut, seg ∈ e.conn.segmentsOut ∨ seg.header.rst = true ∨
      ∃ base ∈ e.conn.sender.segmentsOut, SameContent base seg) : e'.Sends := by
  have makes : ∀ {seg}, e.Makes seg → e'.Makes seg := fun made =>
    made.mono (created ▸ List.prefix_refl _) isn
  refine ⟨by rw [isn, h.isn, cfg], tiled, fun seg member => ?_, fun seg member => ?_⟩
  · rcases queue seg member with old | made
    · exact makes (h.queue seg old)
    · exact makes made
  · rcases out seg member with old | rst | ⟨base, queued, same⟩
    · rcases h.out seg old with rst | ⟨base, made, same⟩
      · exact Or.inl rst
      · exact Or.inr ⟨base, makes made, same⟩
    · exact Or.inl rst
    · exact Or.inr ⟨base, makes (h.queue base queued), same⟩

theorem Sends.fill (h : e.Sends) : e.fill.Sends := by
  have fills := e.conn.sender.fillWindow_fills
  obtain ⟨new, out, tiled⟩ := h.tiled.fills fills
  have created : e.fill.created = e.created ++ new := by simp only [Endpoint.fill, TCPSender.appended_eq out]
  have makes : ∀ {seg}, e.Makes seg → e.fill.Makes seg := fun made =>
    made.mono (by rw [created]; exact List.prefix_append _ _) fills.isn
  refine ⟨fills.isn.trans h.isn, by rw [created]; exact tiled, fun seg member => ?_, fun seg member => ?_⟩
  · rw [show e.fill.conn.sender.segmentsOut = e.conn.sender.segmentsOut ++ new from out] at member
    rcases List.mem_append.1 member with old | fresh
    · exact makes (h.queue seg old)
    · exact Or.inl (by rw [created]; exact List.mem_append_right _ fresh)
  · rcases h.out seg member with rst | ⟨base, made, same⟩
    · exact Or.inl rst
    · exact Or.inr ⟨base, makes made, same⟩

theorem Sends.fillIfSyned (h : e.Sends) : e.fillIfSyned.Sends := by
  unfold Endpoint.fillIfSyned
  split
  · exact h.fill
  · exact h

/-- A phase that leaves the sender and what was put out. -/
theorem Sends.same_sender (h : e.Sends) {c : TCPConnection} (cfg : c.cfg = e.conn.cfg) (sender : c.sender = e.conn.sender)
    (out : c.segmentsOut = e.conn.segmentsOut) (taken : List UInt8) : Sends { e with conn := c, taken } := by
  refine h.update cfg (by rw [sender]) rfl ?_ ?_ ?_
  · simp only [sender]
    exact h.tiled
  · simp only [sender]
    exact fun _ member => Or.inl member
  · simp only [out]
    exact fun _ member => Or.inl member

theorem Sends.reset (h : e.Sends) : e.reset.Sends :=
  h.same_sender (c := { e.conn with lastSegTimer := 0, rst := true }) rfl rfl rfl e.taken

theorem Sends.receive (h : e.Sends) (r : TCPReceiver) : (e.receive r).Sends :=
  h.same_sender (c := { e.conn with lastSegTimer := 0, receiver := r }) rfl rfl rfl e.taken

theorem Sends.accept (h : e.Sends) (data : List UInt8) : (e.accept data).Sends :=
  h.update rfl rfl rfl (h.tiled.write data) (fun _ member => Or.inl member) (fun _ member => Or.inl member)

theorem Sends.endInput (h : e.Sends) : e.endInput.Sends :=
  h.update rfl rfl rfl h.tiled.endInput (fun _ member => Or.inl member) (fun _ member => Or.inl member)

/-- What is sent again was created. -/
theorem Sends.passTime (h : e.Sends) (ms : Nat) : (e.passTime ms).Sends := by
  obtain ⟨same, -, output⟩ := e.conn.sender.tick_spec ms
  refine h.update rfl same.isn rfl (h.tiled.of_same same) (fun seg member => ?_)
    (fun _ member => Or.inl member)
  simp only [Endpoint.passTime, on] at member
  rcases output with out | ⟨oldest, rest, front, out⟩
  · rw [out] at member
    exact Or.inl member
  · rw [out, List.mem_append, List.mem_singleton] at member
    refine member.imp_right fun resent => Or.inl ?_
    rw [resent]
    exact h.tiled.seg_mem (front ▸ List.mem_cons_self)

theorem Sends.ackSender (h : e.Sends) (seg : TCPSegment) : (e.on (·.ackSender seg)).Sends := by
  show Sends { e with conn := e.conn.ackSender seg }
  unfold TCPConnection.ackSender
  split
  · have acked := e.conn.sender.ackReceived_spec seg.header.ackno seg.header.win
    refine h.update rfl acked.isn rfl (h.tiled.acked acked) (fun seg member => Or.inl ?_)
      (fun _ member => Or.inl member)
    rw [← acked.segmentsOut]
    exact member
  · exact h

theorem Sends.noteLinger (h : e.Sends) : (e.on (·.noteLinger)).Sends := by
  show Sends { e with conn := e.conn.noteLinger }
  unfold TCPConnection.noteLinger
  split
  · exact h.same_sender (c := { e.conn with lingerAfterStreamsFinish := false }) rfl rfl rfl e.taken
  · exact h

theorem Sends.replyEmpty (h : e.Sends) (seg : TCPSegment) : (e.on (·.replyEmpty seg)).Sends := by
  show Sends { e with conn := e.conn.replyEmpty seg }
  unfold TCPConnection.replyEmpty
  split
  · refine h.update rfl rfl rfl (h.tiled.of_same ⟨rfl, rfl, rfl, rfl, rfl, rfl, rfl, rfl, rfl⟩)
      (fun seg member => ?_) (fun _ member => Or.inl member)
    simp only [TCPSender.sendEmptySegment, List.mem_append, List.mem_singleton] at member
    refine member.imp_right fun empty => Or.inr ⟨_, Nat.le_refl _, ?_⟩
    rw [empty, TCPSender.emptySegment, h.tiled.flight.next, wrap_word]
  · exact h

theorem Sends.react (h : e.Sends) (seg : TCPSegment) : (e.react seg).Sends := by
  unfold Endpoint.react
  split
  · exact h.fill
  · exact (h.ackSender seg).fillIfSyned.noteLinger.replyEmpty seg

theorem Sends.judge (h : e.Sends) : (e.on (·.judgeDo)).Sends := by
  have j := judged e.conn
  refine h.update j.cfg j.sender.isn rfl (h.tiled.of_same j.sender) (fun seg member => Or.inl ?_)
    (fun seg member => ?_)
  · exact j.queue seg member
  · obtain ⟨new, out, pulled⟩ := j.out
    rw [show (e.on (·.judgeDo)).conn.segmentsOut = e.conn.segmentsOut ++ new from out] at member
    rcases List.mem_append.1 member with old | fresh
    · exact Or.inl old
    · refine Or.inr ((pulled seg fresh).imp_right ?_)
      rintro ⟨base, queued, rfl⟩
      exact ⟨base, queued, outgoing_content _ _⟩

theorem Sends.prepare (h : e.Sends) {p : Endpoint} {op : Op} (run : e.prepare? op = some p) : p.Sends := by
  rcases prepare?_cases run with ⟨-, rfl⟩ | ⟨data, -, rfl⟩ | ⟨-, rfl⟩ | ⟨ms, -, rfl⟩ | ⟨seg, -, -, rfl⟩ |
    ⟨seg, r, -, -, -, rfl⟩
  · exact h.fill
  · exact (h.accept data).fillIfSyned
  · exact h.endInput.fill
  · exact (h.passTime ms).fillIfSyned
  · exact h.reset
  · exact (h.receive r).react seg

/-- **Every operation** keeps what an endpoint puts out in order, whatever segments arrive. -/
theorem Sends.step (h : e.Sends) {e' : Endpoint} {op : Op} (run : e.step op = some e') : e'.Sends := by
  rcases step_cases run with ⟨p, prepared, rfl⟩ | ⟨len, -, rfl⟩
  · exact (h.prepare prepared).judge
  · exact h.same_sender (c := e.conn.popInbound len) rfl rfl rfl _

end Sends

end Endpoint

end Sponge
