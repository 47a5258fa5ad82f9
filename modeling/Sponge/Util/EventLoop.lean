import Mathlib.Data.List.Forall2
import Mathlib.Data.List.Nodup
import Sponge.Logic.Reach
import Sponge.Util.FileDescriptor

/-!
# The event loop (`util/eventloop.hh`, `util/eventloop.cc`)

A rule has a descriptor, a direction and three functions: its callback, whether
it is interested, and what to do when it is cancelled. The functions work on the
state of the program that owns the loop, so rules are a table over tags and the
list `_rules` is a list of tags.

`wait_next_event` makes two passes over the rules: the first drops those whose
descriptor is at its end or closed and asks the others for their interest, the
second looks at what `poll` has found. What `poll` finds, and what the system
calls of a callback return, are arguments. A call that throws is `none`.

Every call to `wait_next_event` is a run of callbacks and cancellations
(`wait_reaches`), in which a callback is reached only by a rule that was asked
for in the same call. Over all calls a rule is served any number of times and
then cancelled once, which is the last that is heard of it (`rule_lifecycle`).
-/

namespace Sponge

namespace EventLoop

/-- `EventLoop::Direction`. -/
inductive Direction where
  | In
  | Out
  deriving DecidableEq

/-- `EventLoop::Rule`. The callback is given what its system calls return. -/
structure Rule (σ ι : Type) where
  fd : σ → FDWrapper
  direction : Direction
  callback : ι → σ → Option σ
  interest : σ → Bool := fun _ => true
  cancel : σ → Option σ := some

/-- `EventLoop::Result`. -/
inductive Result where
  | success
  | timeout
  | exit
  deriving DecidableEq

/-- The flags of `revents` that are looked at. -/
structure Revents where
  pollin : Bool := false
  pollout : Bool := false
  pollerr : Bool := false
  pollhup : Bool := false
  pollnval : Bool := false
  deriving DecidableEq

/-- What `poll` has found for a descriptor, and what the callback's system calls will return. -/
structure Answer (ι : Type) where
  revents : Revents
  input : ι

/-- What `poll` comes back with: nothing, a signal, another error, or answers for some of the descriptors, by their place in
`pollfds`. -/
inductive Poll (ι : Type) where
  | timeout
  | interrupted
  | failed
  | ready (answers : Nat → Option (Answer ι))

/-- The bit of the direction. -/
def Revents.has (revents : Revents) : Direction → Bool
  | .In => revents.pollin
  | .Out => revents.pollout

/-- A call of one of a rule's functions. -/
inductive Move (τ ι : Type) where
  | callback (tag : τ) (input : ι)
  | cancel (tag : τ)
  deriving DecidableEq

/-- The rule a call belongs to. -/
def Move.tag {τ ι : Type} : Move τ ι → τ
  | .callback t _ => t
  | .cancel t => t

namespace Rule

variable {σ ι : Type}

/-- `Rule::service_count`. -/
def serviceCount (r : Rule σ ι) (s : σ) : UInt32 :=
  match r.direction with
  | .In => (r.fd s).readCount
  | .Out => (r.fd s).writeCount

/-- The first pass drops the rule. -/
def ended (r : Rule σ ι) (s : σ) : Bool := (r.direction == .In && (r.fd s).eof) || (r.fd s).closed

/-- The rule is not dropped, and the first pass asks `poll` for its direction. -/
def polled (r : Rule σ ι) (s : σ) : Bool := !r.ended s && r.interest s

/-- The check for a busy wait: the callback has not touched the descriptor, and the rule is still interested. -/
def busy (r : Rule σ ι) (before after : σ) : Bool := r.serviceCount before == r.serviceCount after && r.interest after

end Rule

section Loop

variable {τ σ ι : Type} (rule : τ → Rule σ ι)

/-- A call takes the state on, or throws. -/
def move (s : σ) : Move τ ι → Option σ
  | .callback t input => (rule t).callback input s
  | .cancel t => (rule t).cancel s

/-- What the first pass leaves: the rules that stay, `events` of the `pollfd` of each, the state, and the calls made. -/
structure SetUp (τ σ ι : Type) where
  rules : List τ
  pollfds : List (Option Direction)
  state : σ
  moves : List (Move τ ι)

/-- The first pass. -/
def setUp : List τ → σ → Option (SetUp τ σ ι)
  | [], s => some ⟨[], [], s, []⟩
  | t :: rest, s =>
    if (rule t).ended s then
      ((rule t).cancel s).bind fun s => (setUp rest s).map fun up => { up with moves := .cancel t :: up.moves }
    else
      let events := if (rule t).interest s then some (rule t).direction else none
      (setUp rest s).map fun up => { up with rules := t :: up.rules, pollfds := events :: up.pollfds }

/-- What the second pass has done with a rule: the state, the call made, and whether the rule stays. -/
structure Served (τ σ ι : Type) where
  state : σ
  moves : List (Move τ ι)
  stays : Bool

/-- The second pass on one rule, with the `events` and the answer at its place. -/
def serve (t : τ) (events : Option Direction) (answer : Option (Answer ι)) (s : σ) : Option (Served τ σ ι) :=
  match answer with
  | none => some ⟨s, [], true⟩
  | some ⟨revents, input⟩ =>
    if revents.pollerr || revents.pollnval then none
    else if revents.pollhup && events.isSome && !events.any revents.has then
      ((rule t).cancel s).map fun s => ⟨s, [.cancel t], false⟩
    else if events.any revents.has then
      ((rule t).callback input s).bind fun s' =>
        if (rule t).busy s s' then none else some ⟨s', [.callback t input], true⟩
    else some ⟨s, [], true⟩

/-- What a pass leaves. -/
structure Pass (τ σ ι : Type) where
  rules : List τ
  state : σ
  moves : List (Move τ ι)

/-- The second pass. A place that `pollfds` does not have is past its end. -/
def dispatch (pollfds : List (Option Direction)) (answers : Nat → Option (Answer ι)) :
    List τ → Nat → σ → Option (Pass τ σ ι)
  | [], _, s => some ⟨[], s, []⟩
  | t :: rest, idx, s =>
    pollfds[idx]?.bind fun events =>
      (serve rule t events (answers idx) s).bind fun served =>
        (dispatch pollfds answers rest (idx + 1) served.state).map fun pass =>
          { pass with
            rules := if served.stays then t :: pass.rules else pass.rules
            moves := served.moves ++ pass.moves }

/-- What `wait_next_event` leaves. -/
structure Outcome (τ σ ι : Type) where
  result : Result
  rules : List τ
  state : σ
  moves : List (Move τ ι)

/-- The answers to look at. An error other than a signal is dropped, and every `revents` is 0. -/
def Poll.answers : Poll ι → Nat → Option (Answer ι)
  | .ready answers => answers
  | _ => fun _ => none

/-- `wait_next_event`. -/
def waitNextEvent (rules : List τ) (s : σ) (poll : Poll ι) : Option (Outcome τ σ ι) :=
  (setUp rule rules s).bind fun up =>
    if up.pollfds.all (·.isNone) then some ⟨.exit, up.rules, up.state, up.moves⟩
    else
      match poll with
      | .timeout => some ⟨.timeout, up.rules, up.state, up.moves⟩
      | .interrupted => some ⟨.exit, up.rules, up.state, up.moves⟩
      | poll => (dispatch rule up.pollfds poll.answers up.rules 0 up.state).map fun pass =>
        ⟨.success, pass.rules, pass.state, up.moves ++ pass.moves⟩

end Loop

/-! ### What the passes can do -/

section Inversion

variable {τ σ ι : Type} {rule : τ → Rule σ ι} {s : σ}

/-- **One rule of the second pass**: it is left alone, cancelled, or served because its own direction is ready. -/
theorem serve_cases {t : τ} {events : Option Direction} {answer : Option (Answer ι)} {served : Served τ σ ι}
    (run : serve rule t events answer s = some served) :
    served = ⟨s, [], true⟩ ∨
      (∃ s', (rule t).cancel s = some s' ∧ served = ⟨s', [.cancel t], false⟩) ∨
      ∃ revents input s', answer = some ⟨revents, input⟩ ∧ events.any revents.has = true ∧
        (rule t).callback input s = some s' ∧ served = ⟨s', [.callback t input], true⟩ := by
  unfold serve at run
  split at run
  · cases run
    exact Or.inl rfl
  · rename_i revents input
    split at run
    · cases run
    split at run
    · obtain ⟨s', cancelled, rfl⟩ := Option.map_eq_some_iff.1 run
      exact Or.inr (Or.inl ⟨s', cancelled, rfl⟩)
    split at run
    · rename_i ready
      obtain ⟨s', called, rest⟩ := Option.bind_eq_some_iff.1 run
      split at rest
      · cases rest
      · cases rest
        exact Or.inr (Or.inr ⟨revents, input, s', rfl, ready, called, rfl⟩)
    · cases run
      exact Or.inl rfl

/-- The rules of a pass and their places in `pollfds`. -/
theorem place_of_forall₂ {R : τ → Option Direction → Prop} {t : τ} {rest : List τ} {pollfds : List (Option Direction)}
    {idx : Nat} (places : List.Forall₂ R (t :: rest) (pollfds.drop idx)) :
    ∃ events, pollfds[idx]? = some events ∧ R t events ∧ List.Forall₂ R rest (pollfds.drop (idx + 1)) := by
  generalize left : pollfds.drop idx = there at places
  cases places with
  | @cons _ events _ others here after =>
    refine ⟨events, ?_, here, ?_⟩
    · rw [← List.head?_drop, left, List.head?_cons]
    · rw [← List.tail_drop, left, List.tail_cons]
      exact after

theorem setUp_sublist {rules : List τ} {up : SetUp τ σ ι} (run : setUp rule rules s = some up) :
    up.rules.Sublist rules := by
  induction rules generalizing s up with
  | nil =>
    cases run
    exact .slnil
  | cons t rest ih =>
    rw [setUp] at run
    split at run
    · obtain ⟨s', -, run⟩ := Option.bind_eq_some_iff.1 run
      obtain ⟨up', run', rfl⟩ := Option.map_eq_some_iff.1 run
      exact (ih run').cons t
    · obtain ⟨up', run', rfl⟩ := Option.map_eq_some_iff.1 run
      exact (ih run').cons_cons t

theorem dispatch_sublist {pollfds : List (Option Direction)} {answers : Nat → Option (Answer ι)} {rules : List τ}
    {idx : Nat} {pass : Pass τ σ ι} (run : dispatch rule pollfds answers rules idx s = some pass) :
    pass.rules.Sublist rules := by
  induction rules generalizing s idx pass with
  | nil =>
    cases run
    exact .slnil
  | cons u rest ih =>
    rw [dispatch] at run
    obtain ⟨events, -, run⟩ := Option.bind_eq_some_iff.1 run
    obtain ⟨served, -, run⟩ := Option.bind_eq_some_iff.1 run
    obtain ⟨pass', run', rfl⟩ := Option.map_eq_some_iff.1 run
    have others := ih run'
    dsimp only
    split
    · exact others.cons_cons u
    · exact others.cons u

/-- What a pass does with one rule: nothing, one callback, or its cancellation. -/
inductive Turn (t : τ) : List (Move τ ι) → Bool → Prop where
  | idle : Turn t [] true
  | served (input : ι) : Turn t [.callback t input] true
  | cancelled : Turn t [.cancel t] false

theorem serve_turn {t : τ} {events : Option Direction} {answer : Option (Answer ι)} {served : Served τ σ ι}
    (run : serve rule t events answer s = some served) : Turn t served.moves served.stays := by
  rcases serve_cases run with rfl | ⟨s', -, rfl⟩ | ⟨revents, input, s', -, -, -, rfl⟩
  · exact .idle
  · exact .cancelled
  · exact .served input

end Inversion

/-! ### A call as a run of callbacks and cancellations -/

section Reached

variable {τ σ ι : Type} {rule : τ → Rule σ ι} {Before : σ → Prop} {Ready : τ → σ → Prop} {okInput : ι → Prop} {s : σ}

/-- A callback is called for a rule that is ready, with an input that may occur. -/
def Legit (Ready : τ → σ → Prop) (okInput : ι → Prop) (s : σ) (m : Move τ ι) : Prop :=
  ∀ t input, m = .callback t input → Ready t s ∧ okInput input

theorem legit_cancel (t : τ) : Legit Ready okInput s (.cancel t) := by
  intro _ _ is
  cases is

/-- What a call promises a rule that is asked for: `Ready` holds then, and the calls of the other rules keep it. The first
pass is made in states of `Before`. -/
structure Promises (rule : τ → Rule σ ι) (Before : σ → Prop) (Ready : τ → σ → Prop) (okInput : ι → Prop) : Prop where
  asked : ∀ t s, Before s → (rule t).polled s = true → Ready t s
  dropped : ∀ t s s', Before s → (rule t).cancel s = some s' → Before s'
  keeps : ∀ t s (m : Move τ ι) s', m.tag ≠ t → Legit Ready okInput s m → move rule s m = some s' → Ready t s → Ready t s'

/-- The rules with a place in `pollfds` that was asked for are ready. -/
def AllReady (Ready : τ → σ → Prop) (s : σ) (t : τ) (events : Option Direction) : Prop := events.isSome = true → Ready t s

/-- A call of one rule keeps the promises to the others. -/
theorem Promises.others (promises : Promises rule Before Ready okInput) {m : Move τ ι} {s' : σ} {rules : List τ}
    {pollfds : List (Option Direction)} (other : m.tag ∉ rules) (legit : Legit Ready okInput s m)
    (run : move rule s m = some s') (ready : List.Forall₂ (AllReady Ready s) rules pollfds) :
    List.Forall₂ (AllReady Ready s') rules pollfds := by
  induction ready with
  | nil => exact .nil
  | cons here _ ih =>
    rw [List.mem_cons, not_or] at other
    exact .cons (fun asked => promises.keeps _ _ m _ other.1 legit run (here asked)) (ih other.2)

theorem setUp_reaches (promises : Promises rule Before Ready okInput) {rules : List τ} {up : SetUp τ σ ι}
    (before : Before s) (run : setUp rule rules s = some up) :
    Reaches (move rule) (Legit Ready okInput) s up.state ∧ (∀ t, t ∉ rules → Ready t s → Ready t up.state) ∧
      (rules.Nodup → List.Forall₂ (AllReady Ready up.state) up.rules up.pollfds) := by
  induction rules generalizing s up with
  | nil =>
    cases run
    exact ⟨.start, fun _ _ ready => ready, fun _ => .nil⟩
  | cons t rest ih =>
    rw [setUp] at run
    split at run
    · obtain ⟨s', cancelled, run⟩ := Option.bind_eq_some_iff.1 run
      obtain ⟨up', run', rfl⟩ := Option.map_eq_some_iff.1 run
      obtain ⟨reached, kept, ready⟩ := ih (promises.dropped t s s' before cancelled) run'
      have first : move rule s (.cancel t : Move τ ι) = some s' := cancelled
      refine ⟨(Reaches.single (legit_cancel t) first).trans reached, fun u other ready => ?_, fun distinct => ?_⟩
      · rw [List.mem_cons, not_or] at other
        exact kept u other.2 (promises.keeps u s (.cancel t) s' (Ne.symm other.1) (legit_cancel t) first ready)
      · exact ready (List.nodup_cons.1 distinct).2
    · rename_i stays
      obtain ⟨up', run', rfl⟩ := Option.map_eq_some_iff.1 run
      obtain ⟨reached, kept, ready⟩ := ih before run'
      refine ⟨reached, fun u other ready => kept u (fun member => other (List.mem_cons_of_mem _ member)) ready,
        fun distinct => ?_⟩
      rw [List.nodup_cons] at distinct
      refine .cons (fun asked => kept t distinct.1 (promises.asked t s before ?_)) (ready distinct.2)
      split at asked
      · rename_i interested
        rw [Bool.not_eq_true] at stays
        rw [Rule.polled, stays, interested]
        rfl
      · cases asked

theorem dispatch_reaches (promises : Promises rule Before Ready okInput) {pollfds : List (Option Direction)}
    {answers : Nat → Option (Answer ι)} (inputs : ∀ idx answer, answers idx = some answer → okInput answer.input)
    {rules : List τ} (distinct : rules.Nodup) {idx : Nat} {pass : Pass τ σ ι}
    (ready : List.Forall₂ (AllReady Ready s) rules (pollfds.drop idx))
    (run : dispatch rule pollfds answers rules idx s = some pass) :
    Reaches (move rule) (Legit Ready okInput) s pass.state := by
  induction rules generalizing s idx pass with
  | nil =>
    cases run
    exact .start
  | cons t rest ih =>
    rw [List.nodup_cons] at distinct
    obtain ⟨events, place, here, others⟩ := place_of_forall₂ ready
    rw [dispatch, place, Option.bind_some] at run
    obtain ⟨served, one, run⟩ := Option.bind_eq_some_iff.1 run
    obtain ⟨pass', run', rfl⟩ := Option.map_eq_some_iff.1 run
    rcases serve_cases one with rfl | ⟨s', cancelled, rfl⟩ | ⟨revents, input, s', answered, has, called, rfl⟩
    · have after := ih distinct.2 others run'
      exact after
    · have first : move rule s (.cancel t : Move τ ι) = some s' := cancelled
      have others := promises.others (m := .cancel t) distinct.1 (legit_cancel t) first others
      have after := ih distinct.2 others run'
      exact (Reaches.single (legit_cancel t) first).trans after
    · have first : move rule s (.callback t input : Move τ ι) = some s' := called
      have asked : events.isSome = true := Option.isSome_of_any has
      have legit : Legit Ready okInput s (.callback t input : Move τ ι) := by
        intro u given is
        cases is
        exact ⟨here asked, inputs idx _ answered⟩
      have others := promises.others (m := .callback t input) distinct.1 legit first others
      have after := ih distinct.2 others run'
      exact (Reaches.single legit first).trans after

/-- **A call of `wait_next_event`** is a run of callbacks and cancellations. -/
theorem wait_reaches (promises : Promises rule Before Ready okInput) {rules : List τ} (distinct : rules.Nodup) {poll : Poll ι}
    (inputs : ∀ idx answer, poll.answers idx = some answer → okInput answer.input) {out : Outcome τ σ ι} (before : Before s)
    (run : waitNextEvent rule rules s poll = some out) : Reaches (move rule) (Legit Ready okInput) s out.state := by
  obtain ⟨up, first, run⟩ := Option.bind_eq_some_iff.1 run
  obtain ⟨reached, -, ready⟩ := setUp_reaches promises before first
  have ready := ready distinct
  have distinct := distinct.sublist (setUp_sublist first)
  have second : ∀ {pass : Pass τ σ ι}, dispatch rule up.pollfds poll.answers up.rules 0 up.state = some pass →
      Reaches (move rule) (Legit Ready okInput) s pass.state := fun run =>
    reached.trans (dispatch_reaches promises inputs distinct (by rwa [List.drop_zero]) run)
  split at run
  · cases run
    exact reached
  · split at run
    · cases run
      exact reached
    · cases run
      exact reached
    · obtain ⟨pass, run', rfl⟩ := Option.map_eq_some_iff.1 run
      exact second run'

end Reached

/-! ### A call that does not throw -/

section Returns

variable {τ σ ι : Type} {rule : τ → Rule σ ι} {Before : σ → Prop} {Ready : τ → σ → Prop} {okInput : ι → Prop}
  {Inv : σ → Prop} {s : σ}

/-- What the rules must keep for a call to return: no function throws, and a callback does what it is asked for. -/
structure Sound (rule : τ → Rule σ ι) (Before : σ → Prop) (Ready : τ → σ → Prop) (okInput : ι → Prop) (Inv : σ → Prop) :
    Prop where
  promises : Promises rule Before Ready okInput
  cancels : ∀ t s, Inv s → ∃ s', (rule t).cancel s = some s' ∧ Inv s'
  serves : ∀ t s input, Inv s → Ready t s → okInput input →
    ∃ s', (rule t).callback input s = some s' ∧ (rule t).busy s s' = false ∧ Inv s'

/-- What `poll` may answer: no error on a descriptor, and an input that may occur. -/
def Answer.Fine (okInput : ι → Prop) (answer : Answer ι) : Prop :=
  answer.revents.pollerr = false ∧ answer.revents.pollnval = false ∧ okInput answer.input

theorem setUp_returns (sound : Sound rule Before Ready okInput Inv) (rules : List τ) (inv : Inv s) :
    ∃ up, setUp rule rules s = some up ∧ Inv up.state := by
  induction rules generalizing s with
  | nil => exact ⟨_, rfl, inv⟩
  | cons t rest ih =>
    rw [setUp]
    split
    · obtain ⟨s', cancelled, inv'⟩ := sound.cancels t s inv
      obtain ⟨up, run, last⟩ := ih inv'
      rw [cancelled, Option.bind_some, run]
      exact ⟨_, rfl, last⟩
    · obtain ⟨up, run, last⟩ := ih inv
      rw [run]
      exact ⟨_, rfl, last⟩

theorem serve_returns (sound : Sound rule Before Ready okInput Inv) {t : τ} {events : Option Direction}
    {answer : Option (Answer ι)} (fine : ∀ a, answer = some a → a.Fine okInput) (inv : Inv s)
    (ready : AllReady Ready s t events) : ∃ served, serve rule t events answer s = some served ∧ Inv served.state := by
  unfold serve
  split
  · exact ⟨_, rfl, inv⟩
  · rename_i revents input
    obtain ⟨noErr, noNval, ok⟩ := fine _ rfl
    dsimp only at noErr noNval
    rw [noErr, noNval, Bool.or_false, if_neg (by decide)]
    split
    · obtain ⟨s', cancelled, inv'⟩ := sound.cancels t s inv
      rw [cancelled]
      exact ⟨_, rfl, inv'⟩
    split
    · rename_i has
      have asked : events.isSome = true := Option.isSome_of_any has
      obtain ⟨s', called, served, inv'⟩ := sound.serves t s input inv (ready asked) ok
      rw [called, Option.bind_some, served]
      exact ⟨_, rfl, inv'⟩
    · exact ⟨_, rfl, inv⟩

/-- The second pass: the place of every rule is inside `pollfds`. -/
theorem dispatch_returns (sound : Sound rule Before Ready okInput Inv) {pollfds : List (Option Direction)}
    {answers : Nat → Option (Answer ι)} (fine : ∀ idx a, answers idx = some a → a.Fine okInput) {rules : List τ}
    (distinct : rules.Nodup) {idx : Nat} (inv : Inv s)
    (ready : List.Forall₂ (AllReady Ready s) rules (pollfds.drop idx)) :
    ∃ pass, dispatch rule pollfds answers rules idx s = some pass ∧ Inv pass.state := by
  induction rules generalizing s idx with
  | nil => exact ⟨_, rfl, inv⟩
  | cons t rest ih =>
    rw [List.nodup_cons] at distinct
    obtain ⟨events, place, here, others⟩ := place_of_forall₂ ready
    obtain ⟨served, one, inv'⟩ := serve_returns sound (fine idx) inv here
    have others : List.Forall₂ (AllReady Ready served.state) rest (pollfds.drop (idx + 1)) := by
      rcases serve_cases one with rfl | ⟨s', cancelled, rfl⟩ | ⟨revents, input, s', answered, has, called, rfl⟩
      · exact others
      · exact sound.promises.others (m := .cancel t) distinct.1 (legit_cancel t) cancelled others
      · refine sound.promises.others (m := .callback t input) distinct.1 ?_ called others
        intro u given is
        cases is
        exact ⟨here (Option.isSome_of_any has), (fine idx _ answered).2.2⟩
    obtain ⟨pass, run, last⟩ := ih distinct.2 inv' others
    rw [dispatch, place, Option.bind_some, one, Option.bind_some, run]
    exact ⟨_, rfl, last⟩

/-- **A call returns**, whatever `poll` finds, unless it reports an error on a descriptor. -/
theorem wait_returns (sound : Sound rule Before Ready okInput Inv) {rules : List τ} (distinct : rules.Nodup) {poll : Poll ι}
    (fine : ∀ idx a, poll.answers idx = some a → a.Fine okInput) (before : Before s) (inv : Inv s) :
    ∃ out, waitNextEvent rule rules s poll = some out ∧ Inv out.state := by
  obtain ⟨up, first, inv'⟩ := setUp_returns sound rules inv
  obtain ⟨-, -, ready⟩ := setUp_reaches sound.promises before first
  have ready := ready distinct
  have distinct := distinct.sublist (setUp_sublist first)
  obtain ⟨pass, run, last⟩ := dispatch_returns sound fine distinct inv' (by rwa [List.drop_zero] : List.Forall₂
    (AllReady Ready up.state) up.rules (up.pollfds.drop 0))
  rw [waitNextEvent, first, Option.bind_some]
  split
  · exact ⟨_, rfl, inv'⟩
  · split
    · exact ⟨_, rfl, inv'⟩
    · exact ⟨_, rfl, inv'⟩
    · rw [run]
      exact ⟨_, rfl, last⟩

end Returns

/-! ### A call that throws -/

section Throws

variable {τ σ ι : Type} {rule : τ → Rule σ ι} {Inv : σ → Prop} {t : τ} {s : σ}

/-- A rule that keeps asking for its direction, and whose callback throws. -/
structure Doomed (rule : τ → Rule σ ι) (Inv : σ → Prop) (t : τ) : Prop where
  keeps : ∀ s (m : Move τ ι) s', Inv s → move rule s m = some s' → Inv s'
  asks : ∀ s, Inv s → (rule t).interest s = true
  throws : ∀ s input, Inv s → (rule t).callback input s = none

/-- The first pass asks for it. -/
theorem Doomed.setUp (doomed : Doomed rule Inv t) {rules : List τ} {up : SetUp τ σ ι} (inv : Inv s)
    (run : setUp rule rules s = some up) :
    Inv up.state ∧ List.Forall₂ (fun u events => u = t → events = some (rule t).direction) up.rules up.pollfds := by
  induction rules generalizing s up with
  | nil =>
    cases run
    exact ⟨inv, .nil⟩
  | cons u rest ih =>
    rw [EventLoop.setUp] at run
    split at run
    · obtain ⟨s', cancelled, run⟩ := Option.bind_eq_some_iff.1 run
      obtain ⟨up', run', rfl⟩ := Option.map_eq_some_iff.1 run
      have after := ih (doomed.keeps s (.cancel u) s' inv cancelled) run'
      exact after
    · obtain ⟨up', run', rfl⟩ := Option.map_eq_some_iff.1 run
      obtain ⟨inv', asked⟩ := ih inv run'
      refine ⟨inv', .cons ?_ asked⟩
      rintro rfl
      rw [if_pos (doomed.asks s inv)]

/-- The other rules keep it so. -/
theorem Doomed.serve (doomed : Doomed rule Inv t) {u : τ} {events : Option Direction} {answer : Option (Answer ι)}
    {served : Served τ σ ι} (inv : Inv s) (run : serve rule u events answer s = some served) : Inv served.state := by
  rcases serve_cases run with rfl | ⟨s', cancelled, rfl⟩ | ⟨revents, input, s', -, -, called, rfl⟩
  · exact inv
  · exact doomed.keeps s (.cancel u) s' inv cancelled
  · exact doomed.keeps s (.callback u input) s' inv called

/-- Its own turn throws, if its direction is reported. -/
theorem Doomed.serve_throws (doomed : Doomed rule Inv t) {revents : Revents} (has : revents.has (rule t).direction = true)
    (input : ι) (inv : Inv s) : EventLoop.serve rule t (some (rule t).direction) (some ⟨revents, input⟩) s = none := by
  have ready : (some (rule t).direction).any revents.has = true := has
  rw [EventLoop.serve, ready, doomed.throws s input inv]
  simp

/-- The second pass does not come past it. -/
theorem Doomed.dispatch_throws (doomed : Doomed rule Inv t) {pollfds : List (Option Direction)}
    {answers : Nat → Option (Answer ι)} {rules : List τ} {idx place : Nat} {revents : Revents} {input : ι}
    (asked : List.Forall₂ (fun u events => u = t → events = some (rule t).direction) rules (pollfds.drop idx))
    (there : rules[place]? = some t) (answered : answers (idx + place) = some ⟨revents, input⟩)
    (has : revents.has (rule t).direction = true) (inv : Inv s) : dispatch rule pollfds answers rules idx s = none := by
  induction rules generalizing s idx place with
  | nil => cases there
  | cons u rest ih =>
    obtain ⟨events, found, here, others⟩ := place_of_forall₂ asked
    rw [dispatch, found, Option.bind_some]
    cases place with
    | zero =>
      cases there
      rw [here rfl, show answers idx = _ from answered, doomed.serve_throws has input inv, Option.bind_none]
    | succ place =>
      rw [Option.bind_eq_none_iff]
      intro served one
      have answered : answers (idx + 1 + place) = some ⟨revents, input⟩ := by
        rw [← answered]
        congr 1
        omega
      rw [ih others there answered (doomed.serve inv one), Option.map_none]

/-- **A call throws** when `poll` reports the direction of such a rule, at the place that the first pass has given it. -/
theorem Doomed.wait_throws (doomed : Doomed rule Inv t) {rules : List τ} {up : SetUp τ σ ι} {poll : Poll ι} {idx : Nat}
    {revents : Revents} {input : ι} (inv : Inv s) (first : EventLoop.setUp rule rules s = some up)
    (there : up.rules[idx]? = some t) (answered : poll.answers idx = some ⟨revents, input⟩)
    (has : revents.has (rule t).direction = true) : waitNextEvent rule rules s poll = none := by
  obtain ⟨inv', asked⟩ := doomed.setUp inv first
  have throws : dispatch rule up.pollfds poll.answers up.rules 0 up.state = none :=
    doomed.dispatch_throws (by rwa [List.drop_zero]) there (by rwa [Nat.zero_add]) has inv'
  have polled : ¬up.pollfds.all (·.isNone) = true := by
    intro nothing
    obtain ⟨inside, rfl⟩ := List.getElem?_eq_some_iff.1 there
    have wanted := asked.get inside (asked.length_eq ▸ inside) rfl
    have silent := List.all_eq_true.1 nothing _ (List.get_mem up.pollfds ⟨idx, asked.length_eq ▸ inside⟩)
    rw [wanted] at silent
    cases silent
  rw [waitNextEvent, first, Option.bind_some, if_neg polled]
  cases poll with
  | ready answers => exact Option.map_eq_none_iff.2 throws
  | _ => cases answered

end Throws

/-! ### A call that exits -/

section Exit

variable {τ σ ι : Type} {rule : τ → Rule σ ι} {Quiet : τ → σ → Prop} {s : σ}

/-- What is quiet is not disturbed by the cancellation of a rule further back. -/
def Undisturbed (rule : τ → Rule σ ι) (Quiet : τ → σ → Prop) (t u : τ) : Prop :=
  ∀ s s', Quiet t s → (rule u).cancel s = some s' → Quiet t s'

theorem setUp_keeps {rules : List τ} {up : SetUp τ σ ι} (run : setUp rule rules s = some up) {t : τ}
    (others : ∀ u ∈ rules, Undisturbed rule Quiet t u) (quiet : Quiet t s) : Quiet t up.state := by
  induction rules generalizing s up with
  | nil =>
    cases run
    exact quiet
  | cons u rest ih =>
    have later : ∀ u ∈ rest, Undisturbed rule Quiet t u := fun u member => others u (List.mem_cons_of_mem _ member)
    rw [setUp] at run
    split at run
    · obtain ⟨s', cancelled, run⟩ := Option.bind_eq_some_iff.1 run
      obtain ⟨up', run', rfl⟩ := Option.map_eq_some_iff.1 run
      have after := ih run' later (others u List.mem_cons_self s s' quiet cancelled)
      exact after
    · obtain ⟨up', run', rfl⟩ := Option.map_eq_some_iff.1 run
      have after := ih run' later quiet
      exact after

theorem setUp_quiet (idle : ∀ t s, (rule t).interest s = false → Quiet t s) {rules : List τ}
    (apart : rules.Pairwise (Undisturbed rule Quiet)) {up : SetUp τ σ ι} (run : setUp rule rules s = some up)
    (nothing : up.pollfds.all (·.isNone) = true) : ∀ t ∈ up.rules, Quiet t up.state := by
  induction rules generalizing s up with
  | nil =>
    cases run
    intro t member
    cases member
  | cons u rest ih =>
    rw [List.pairwise_cons] at apart
    rw [setUp] at run
    split at run
    · obtain ⟨s', -, run⟩ := Option.bind_eq_some_iff.1 run
      obtain ⟨up', run', rfl⟩ := Option.map_eq_some_iff.1 run
      have after := ih apart.2 run' nothing
      exact after
    · obtain ⟨up', run', rfl⟩ := Option.map_eq_some_iff.1 run
      rw [List.all_cons, Bool.and_eq_true] at nothing
      refine List.forall_mem_cons.2 ⟨setUp_keeps run' apart.1 (idle u s ?_), ih apart.2 run' nothing.2⟩
      by_contra interested
      rw [if_pos (by simpa using interested)] at nothing
      cases nothing.1

/-- **A call that exits**, but for a signal, leaves rules that want nothing. -/
theorem wait_exit (idle : ∀ t s, (rule t).interest s = false → Quiet t s) {rules : List τ}
    (apart : rules.Pairwise (Undisturbed rule Quiet)) {poll : Poll ι} {out : Outcome τ σ ι}
    (run : waitNextEvent rule rules s poll = some out) (exit : out.result = .exit) (noSignal : poll ≠ .interrupted) :
    ∀ t ∈ out.rules, Quiet t out.state := by
  obtain ⟨up, first, run⟩ := Option.bind_eq_some_iff.1 run
  split at run
  · rename_i nothing
    cases run
    exact setUp_quiet idle apart first nothing
  · split at run
    · cases run
      cases exit
    · exact absurd rfl noSignal
    · obtain ⟨pass, -, rfl⟩ := Option.map_eq_some_iff.1 run
      cases exit

end Exit

/-! ### The life of a rule -/

section Lifecycle

variable {τ σ ι : Type} [DecidableEq τ] {rule : τ → Rule σ ι} {s : σ}

/-- The calls that belong to a rule. -/
def movesOf (t : τ) (moves : List (Move τ ι)) : List (Move τ ι) := moves.filter fun m => m.tag = t

theorem movesOf_append (t : τ) (l l' : List (Move τ ι)) : movesOf t (l ++ l') = movesOf t l ++ movesOf t l' :=
  List.filter_append ..

/-- From the rules `before` to the rules `after`, with the calls made between: a rule is not there, or it stays and may
be served, or it is served, cancelled and gone. -/
inductive Lives (t : τ) (before after : List τ) (moves : List (Move τ ι)) : Prop where
  | absent (unknown : t ∉ before) (still : t ∉ after) (quiet : movesOf t moves = [])
  | stays (there : t ∈ before) (still : t ∈ after) (inputs : List ι) (served : movesOf t moves = inputs.map (.callback t))
  | ends (there : t ∈ before) (gone : t ∉ after) (inputs : List ι)
      (served : movesOf t moves = inputs.map (.callback t) ++ [.cancel t])

theorem Lives.refl (t : τ) (rules : List τ) : Lives t rules rules ([] : List (Move τ ι)) := by
  by_cases there : t ∈ rules
  · exact .stays there there [] rfl
  · exact .absent there there rfl

theorem Lives.trans {t : τ} {before mid after : List τ} {l l' : List (Move τ ι)} (first : Lives t before mid l)
    (second : Lives t mid after l') : Lives t before after (l ++ l') := by
  cases first with
  | absent unknown still quiet =>
    cases second with
    | absent _ still' quiet' => exact .absent unknown still' (by rw [movesOf_append, quiet, quiet', List.append_nil])
    | stays there => exact absurd there still
    | ends there => exact absurd there still
  | stays there still inputs served =>
    cases second with
    | absent unknown => exact absurd still unknown
    | stays _ still' inputs' served' =>
      exact .stays there still' (inputs ++ inputs') (by rw [movesOf_append, served, served', List.map_append])
    | ends _ gone inputs' served' =>
      refine .ends there gone (inputs ++ inputs') ?_
      rw [movesOf_append, served, served', List.map_append, List.append_assoc]
  | ends there gone inputs served =>
    cases second with
    | absent _ still quiet =>
      exact .ends there still inputs (by rw [movesOf_append, served, quiet, List.append_nil])
    | stays again => exact absurd again gone
    | ends again => exact absurd again gone

/-- The turn of the first rule, then those of the rest. -/
theorem Lives.cons {t u : τ} {rest after : List τ} {own moves : List (Move τ ι)} {stays : Bool} (turn : Turn u own stays)
    (distinct : u ∉ rest) (others : Lives t rest after moves) :
    Lives t (u :: rest) (if stays then u :: after else after) (own ++ moves) := by
  by_cases same : t = u
  · subst same
    cases others with
    | absent _ still quiet =>
      cases turn with
      | idle => exact .stays List.mem_cons_self List.mem_cons_self [] quiet
      | served input =>
        refine .stays List.mem_cons_self List.mem_cons_self [input] ?_
        rw [movesOf_append, quiet]
        simp [movesOf, Move.tag]
      | cancelled =>
        refine .ends List.mem_cons_self still [] ?_
        rw [movesOf_append, quiet]
        simp [movesOf, Move.tag]
    | stays there => exact absurd there distinct
    | ends there => exact absurd there distinct
  · have silent : movesOf t own = [] := by
      cases turn <;> simp [movesOf, Move.tag, Ne.symm same]
    have quietly : movesOf t (own ++ moves) = movesOf t moves := by rw [movesOf_append, silent, List.nil_append]
    have member : t ∈ (if stays then u :: after else after) ↔ t ∈ after := by
      split <;> simp [same]
    have before : t ∈ u :: rest ↔ t ∈ rest := by simp [same]
    cases others with
    | absent unknown still quiet => exact .absent (by rwa [before]) (by rwa [member]) (by rwa [quietly])
    | stays there still inputs served => exact .stays (before.2 there) (member.2 still) inputs (by rwa [quietly])
    | ends there gone inputs served => exact .ends (before.2 there) (by rwa [member]) inputs (by rwa [quietly])

theorem setUp_lives (t : τ) {rules : List τ} (distinct : rules.Nodup) {up : SetUp τ σ ι}
    (run : setUp rule rules s = some up) : Lives t rules up.rules up.moves := by
  induction rules generalizing s up with
  | nil =>
    cases run
    exact .refl t []
  | cons u rest ih =>
    rw [List.nodup_cons] at distinct
    rw [setUp] at run
    split at run
    · obtain ⟨s', -, run⟩ := Option.bind_eq_some_iff.1 run
      obtain ⟨up', run', rfl⟩ := Option.map_eq_some_iff.1 run
      have others := ih distinct.2 run'
      have turn : Turn u ([.cancel u] : List (Move τ ι)) false := .cancelled
      exact .cons turn distinct.1 others
    · obtain ⟨up', run', rfl⟩ := Option.map_eq_some_iff.1 run
      have others := ih distinct.2 run'
      have turn : Turn u ([] : List (Move τ ι)) true := .idle
      exact .cons turn distinct.1 others

theorem dispatch_lives (t : τ) {pollfds : List (Option Direction)} {answers : Nat → Option (Answer ι)} {rules : List τ}
    (distinct : rules.Nodup) {idx : Nat} {pass : Pass τ σ ι}
    (run : dispatch rule pollfds answers rules idx s = some pass) : Lives t rules pass.rules pass.moves := by
  induction rules generalizing s idx pass with
  | nil =>
    cases run
    exact .refl t []
  | cons u rest ih =>
    rw [List.nodup_cons] at distinct
    rw [dispatch] at run
    obtain ⟨events, -, run⟩ := Option.bind_eq_some_iff.1 run
    obtain ⟨served, one, run⟩ := Option.bind_eq_some_iff.1 run
    obtain ⟨pass', run', rfl⟩ := Option.map_eq_some_iff.1 run
    have others := ih distinct.2 run'
    exact .cons (serve_turn one) distinct.1 others

/-- **One call**: the rules that stay keep their order, and each rule has its turn. -/
theorem wait_lives {rules : List τ} (distinct : rules.Nodup) {poll : Poll ι} {out : Outcome τ σ ι}
    (run : waitNextEvent rule rules s poll = some out) :
    out.rules.Sublist rules ∧ ∀ t, Lives t rules out.rules out.moves := by
  obtain ⟨up, first, run⟩ := Option.bind_eq_some_iff.1 run
  have sublist := setUp_sublist first
  split at run
  · cases run
    exact ⟨sublist, fun t => setUp_lives t distinct first⟩
  · split at run
    · cases run
      exact ⟨sublist, fun t => setUp_lives t distinct first⟩
    · cases run
      exact ⟨sublist, fun t => setUp_lives t distinct first⟩
    · obtain ⟨pass, second, rfl⟩ := Option.map_eq_some_iff.1 run
      exact ⟨(dispatch_sublist second).trans sublist,
        fun t => (setUp_lives t distinct first).trans (dispatch_lives t (distinct.sublist sublist) second)⟩

/-- A loop between two calls of `wait_next_event`: its rules, the state, and every call made so far. -/
structure Running (τ σ ι : Type) where
  rules : List τ
  state : σ
  log : List (Move τ ι) := []

/-- One call of `wait_next_event`. -/
def Running.step (rule : τ → Rule σ ι) (r : Running τ σ ι) (poll : Poll ι) : Option (Running τ σ ι) :=
  (waitNextEvent rule r.rules r.state poll).map fun out => ⟨out.rules, out.state, r.log ++ out.moves⟩

/-- **The life of a rule**, over any number of calls, whatever the rules do and whatever `poll` finds: the rules that are
left are in the order in which they were added; those of a rule's calls are callbacks, and then, if it has been removed,
one cancellation and nothing after it; and nothing is called for a rule that was not added. -/
theorem rule_lifecycle (rule : τ → Rule σ ι) {first : List τ} (distinct : first.Nodup) (s : σ) {r : Running τ σ ι}
    (reached : Reaches (Running.step rule) (fun _ _ => True) ⟨first, s, []⟩ r) :
    r.rules.Sublist first ∧
      (∀ t ∈ first, ∃ inputs : List ι,
        movesOf t r.log = inputs.map (.callback t) ++ if t ∈ r.rules then [] else [.cancel t]) ∧
      ∀ t, t ∉ first → movesOf t r.log = [] := by
  have lives : r.rules.Sublist first ∧ ∀ t, Lives t first r.rules r.log := by
    refine reached.invariant ?_
      fun r poll r' (inv : r.rules.Sublist first ∧ ∀ t, Lives t first r.rules r.log) _ run => ?_
    · exact ⟨.refl _, fun t => .refl t first⟩
    obtain ⟨out, call, rfl⟩ := Option.map_eq_some_iff.1 run
    obtain ⟨sublist, lives⟩ := wait_lives (distinct.sublist inv.1) call
    exact ⟨sublist.trans inv.1, fun t => (inv.2 t).trans (lives t)⟩
  refine ⟨lives.1, fun t there => ?_, fun t unknown => ?_⟩
  · cases lives.2 t with
    | absent unknown => exact absurd there unknown
    | stays _ still inputs served => exact ⟨inputs, by rw [if_pos still, List.append_nil, served]⟩
    | ends _ gone inputs served => exact ⟨inputs, by rw [if_neg gone, served]⟩
  · cases lives.2 t with
    | absent _ _ quiet => exact quiet
    | stays there => exact absurd there unknown
    | ends there => exact absurd there unknown

/-- A reader and a writer of one descriptor, for a witness: the reader counts what it is given. -/
def counting : Bool → Rule (FDWrapper × Nat) Nat
  | true => { fd := Prod.fst, direction := .In, callback := fun n s => some (s.1.registerRead, s.2 + n) }
  | false => { fd := Prod.fst, direction := .Out, callback := fun _ s => some (s.1.registerWrite, s.2) }

/-- The reader is served twice, and cancelled on a hangup. -/
def countingPolls : List (Poll Nat) := [
  .ready fun _ => some ⟨{ pollin := true }, 3⟩,
  .timeout,
  .ready fun idx => if idx = 0 then some ⟨{ pollin := true, pollhup := true }, 4⟩ else none,
  .ready fun idx => if idx = 0 then some ⟨{ pollhup := true }, 0⟩ else some ⟨{ pollout := true }, 0⟩]

theorem rule_lifecycle_hangup :
    ∃ r, follow (Running.step counting) (fun _ _ => True) ⟨[true, false], ({}, 0), []⟩ countingPolls = some r ∧
      r.rules = [false] ∧ r.state.2 = 7 ∧ r.rules.Sublist [true, false] ∧
      ∃ inputs : List Nat, movesOf true r.log = inputs.map (.callback true) ++ [.cancel true] := by
  obtain ⟨r, run, seen⟩ := Option.map_eq_some_iff.1
    (show (follow (Running.step counting) (fun _ _ => True) ⟨[true, false], ({}, 0), []⟩ countingPolls).map
      (fun r => (r.rules, r.state.2)) = some ([false], 7) by decide +kernel)
  obtain ⟨rules, count⟩ := Prod.mk.inj seen
  obtain ⟨sublist, lives, -⟩ := rule_lifecycle counting (by decide) ({}, 0) (Reaches.start.follow run)
  obtain ⟨inputs, served⟩ := lives true (by decide)
  rw [rules, if_neg (by decide)] at served
  exact ⟨r, run, rules, count, sublist, inputs, served⟩

end Lifecycle

end EventLoop

end Sponge
