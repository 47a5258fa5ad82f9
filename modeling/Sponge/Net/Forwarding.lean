import Mathlib.Data.List.ReduceOption
import Sponge.Net.AdapterTotal
import Sponge.Net.Conservation
import Sponge.Net.RouteLookup

/-!
# Forwarding (`Router::route`)

`route` goes through the queues of all interfaces. What becomes of a datagram is
decided by the table alone, which no call of `route` changes, so the whole call
can be said at once: the queues are emptied, and each interface is given the
datagrams that are forwarded on it, in the order of the queues. A datagram that
cannot be serialized and whose next hop is known makes `send_datagram` throw. The
exception leaves `route`, and the datagram stays at the front of its queue, one
older, with all that is behind it (`routed_of_route`).

For a table whose routes were added in a good order the decision is the longest
prefix match, and `route` always comes to an end.
-/

namespace Sponge

namespace NetworkInterface

variable {n n' : NetworkInterface}

/-- Whether there is a mapping to use depends on what was learned and on the time. -/
theorem usable_isNone (n : NetworkInterface) (ip : UInt32) : (n.usable ip).isNone =
    !(n.mapping ip).any fun known => decide (sub64 n.timer known.2 ≤ 30 * 1000) := by
  rw [usable, mapping]
  cases n.arpTable ip with
  | none => rfl
  | some se =>
    rw [Option.bind_some, EtbNode.learned]
    cases known : se.exist with
    | false => simp [known]
    | true =>
      by_cases fresh : sub64 n.timer se.updatedTime ≤ 30 * 1000
      · simp [known, fresh]
      · simp [known, fresh]

/-- **`send_datagram`** throws on a datagram that cannot be written for a next hop that is known, and nothing has been done
then. -/
theorem sendDatagram_result (n : NetworkInterface) (dgram : InternetDatagram) (hop : UInt32) :
    (n.sendDatagram dgram hop).result.isSome = ((n.usable hop).isNone || sendable dgram) := by
  cases known : n.usable hop with
  | none =>
    rw [sendDatagram_eq dgram known]
    rfl
  | some se =>
    rw [sendDatagram_of_some dgram known, sendable]
    rcases n.sendDgram_spec dgram se.eAddr with ⟨run, written⟩ | ⟨payload, written, run⟩
    · rw [run, written]
      rfl
    · rw [run, written]
      rfl

theorem sendDatagram_refused {dgram : InternetDatagram} {hop : UInt32} (refused : (n.sendDatagram dgram hop).result.isSome = false) :
    (n.sendDatagram dgram hop).interface = n := by
  cases known : n.usable hop with
  | none =>
    rw [sendDatagram_result, known] at refused
    cases refused
  | some se =>
    rw [sendDatagram_of_some dgram known] at refused ⊢
    rcases n.sendDgram_spec dgram se.eAddr with ⟨run, -⟩ | ⟨payload, -, run⟩
    · rw [run]
    · rw [run] at refused
      cases refused

/-- Nothing is learned by sending. -/
theorem sendDatagram_usable (n : NetworkInterface) (dgram : InternetDatagram) (hop ip : UInt32) :
    ((n.sendDatagram dgram hop).interface.usable ip).isNone = (n.usable ip).isNone := by
  have same : (n.sendDatagram dgram hop).interface.mapping = n.mapping ∧
      (n.sendDatagram dgram hop).interface.timer = n.timer := by
    cases known : n.usable hop with
    | none =>
      obtain ⟨m, asks, run⟩ := n.sendDatagram_of_none dgram known
      rw [run]
      exact ⟨asks.mapping, asks.timer⟩
    | some se =>
      rw [sendDatagram_of_some dgram known]
      rcases n.sendDgram_spec dgram se.eAddr with ⟨run, -⟩ | ⟨payload, -, run⟩
      · rw [run]
        exact ⟨rfl, rfl⟩
      · rw [run]
        exact ⟨rfl, rfl⟩
  rw [usable_isNone, usable_isNone, same.1, same.2]

end NetworkInterface

namespace Router

open NetworkInterface (sendable)

/-- A datagram on its way: the interface it leaves by, and the next hop. -/
structure Forward where
  interfaceNum : Nat
  dgram : InternetDatagram
  nextHop : UInt32

/-- What the table decides: the datagram is dropped, or forwarded. -/
def forward (t : RouterTable) (dgram : InternetDatagram) : Option (Option Forward) :=
  if (aged dgram).header.ttl = 0 then some none
  else (t.lookup dgram.header.dst.toNat).map fun found => found.map fun k => {
    interfaceNum := (t.value k).interfaceNum
    dgram := aged dgram
    nextHop := if (t.value k).nextHop = 0 then dgram.header.dst else (t.value k).nextHop }

/-- The datagram can be handed over: there is the interface, and it can write the datagram or has to ask for the next hop
before it does. -/
def accepts (r : Router) (f : Forward) : Bool :=
  r.interfaces[f.interfaceNum]?.any fun i => (i.usable f.nextHop).isNone || sendable f.dgram

/-- One datagram is given to the interface. -/
def give (i : AsyncNetworkInterface) (f : Forward) : AsyncNetworkInterface := (i.sendDatagram f.dgram f.nextHop).left

/-- The interface with the number `m` is given its share. -/
def share (fs : List Forward) (m : Nat) (i : AsyncNetworkInterface) : AsyncNetworkInterface :=
  (fs.filter fun f => f.interfaceNum = m).foldl give i

/-- All that waits in the router. -/
def queued (r : Router) : List InternetDatagram := r.interfaces.flatMap (·.datagramsOut)

variable {r : Router} {n : Nat} {fs : List Forward}

@[simp] theorem give_datagramsOut (i : AsyncNetworkInterface) (f : Forward) : (give i f).datagramsOut = i.datagramsOut := rfl

@[simp] theorem share_nil (m : Nat) (i : AsyncNetworkInterface) : share [] m i = i := rfl

theorem share_append (fs gs : List Forward) (m : Nat) (i : AsyncNetworkInterface) :
    share (fs ++ gs) m i = share gs m (share fs m i) := by
  rw [share, List.filter_append, List.foldl_append]
  rfl

/-- The queue plays no part in what an interface is given. -/
theorem share_with (fs : List Forward) (m : Nat) (i : AsyncNetworkInterface) (q : List InternetDatagram) :
    share fs m { i with datagramsOut := q } = { share fs m i with datagramsOut := q } := by
  rw [share, share]
  generalize fs.filter _ = l
  induction l generalizing i with
  | nil => rfl
  | cons f rest ih => exact ih (give i f)

theorem share_usable (fs : List Forward) (m : Nat) (i : AsyncNetworkInterface) (ip : UInt32) :
    ((share fs m i).usable ip).isNone = (i.usable ip).isNone := by
  rw [share]
  generalize fs.filter _ = l
  induction l generalizing i with
  | nil => rfl
  | cons f rest ih => exact (ih (give i f)).trans (i.toNetworkInterface.sendDatagram_usable f.dgram f.nextHop ip)

/-- The router once the datagrams of `fs` are handed to its interfaces. -/
def handed (fs : List Forward) (r : Router) : Router := { r with interfaces := r.interfaces.mapIdx (share fs) }

/-- **One datagram** is handed over, or the call throws and nothing has changed. -/
theorem sendOn_eq (r : Router) (f : Forward) : r.sendOn f.interfaceNum f.dgram f.nextHop =
    if r.accepts f then ⟨handed [f] r, true⟩ else ⟨r, false⟩ := by
  rw [accepts]
  cases there : r.interfaces[f.interfaceNum]? with
  | none =>
    rw [sendOn, onInterface, there]
    rfl
  | some i =>
    have inside : f.interfaceNum < r.interfaces.length := (List.getElem?_eq_some_iff.1 there).1
    rw [sendOn_of_some there, Option.any_some, ← NetworkInterface.sendDatagram_result]
    cases returns : (i.toNetworkInterface.sendDatagram f.dgram f.nextHop).result.isSome with
    | false =>
      have same : (i.sendDatagram f.dgram f.nextHop).left = i := by
        rw [AsyncNetworkInterface.sendDatagram]
        dsimp only
        rw [NetworkInterface.sendDatagram_refused returns]
      have kept : r.interfaces.set f.interfaceNum i = r.interfaces := by
        rw [← (List.getElem?_eq_some_iff.1 there).2, List.set_getElem_self]
      rw [same, kept]
      exact congrArg _ returns
    | true =>
      rw [if_pos rfl, show (i.sendDatagram f.dgram f.nextHop).returns = true from returns]
      congr 2
      refine List.ext_getElem? fun m => ?_
      rw [List.getElem?_set, List.getElem?_mapIdx]
      by_cases here : f.interfaceNum = m
      · subst here
        rw [if_pos rfl, if_pos inside, there, Option.map_some, share, List.filter_cons_of_pos (by simp)]
        rfl
      · have nothing : share [f] m = id := by
          funext i
          rw [share, List.filter_cons_of_neg (by simpa using here)]
          rfl
        rw [if_neg here, nothing, Option.map_id]
        rfl

@[simp] theorem handed_nil (r : Router) : handed [] r = r := by
  show { r with interfaces := r.interfaces.mapIdx fun _ i => i } = r
  rw [List.mapIdx_eq_iff.2 fun m => by rw [Option.map_id']]

/-- **`route_one_datagram`**: the datagram is dropped, or sent as it was decided. -/
theorem routeOneDatagram_eq (r : Router) (dgram : InternetDatagram) : r.routeOneDatagram dgram =
    (forward r.table dgram).map fun decision =>
      if decision.all r.accepts then ⟨handed decision.toList r, true⟩ else ⟨r, false⟩ := by
  rw [routeOneDatagram, forward]
  dsimp only
  split
  · exact congrArg some (congrArg (CallEnd.mk · true) (handed_nil r).symm)
  · cases found : r.table.lookup dgram.header.dst.toNat with
    | none =>
      rw [show (aged dgram).header.dst = dgram.header.dst from rfl, found]
      rfl
    | some last =>
      rw [show (aged dgram).header.dst = dgram.header.dst from rfl, found]
      cases last with
      | none => exact congrArg some (congrArg (CallEnd.mk · true) (handed_nil r).symm)
      | some k => exact congrArg some (r.sendOn_eq ⟨_, aged dgram, _⟩)

/-- What the table decides of each datagram. -/
def Decides (t : RouterTable) : List InternetDatagram → List (Option Forward) → Prop :=
  List.Forall₂ fun dgram decision => forward t dgram = some decision

/-- What is forwarded of a decision and of those behind it. -/
theorem reduceOption_cons (decision : Option Forward) (ds : List (Option Forward)) :
    (decision :: ds).reduceOption = decision.toList ++ ds.reduceOption := by
  cases decision <;> rfl

/-! ### The loops -/

/-- The router in the middle of `route`: the datagrams of `fs` are handed over, the queues before that of the interface `m`
are empty, and `q` is what is left of that one. -/
def midway (r : Router) (fs : List Forward) (m : Nat) (q : List InternetDatagram) : Router :=
  { r with interfaces := r.interfaces.mapIdx fun j i =>
      { share fs j i with datagramsOut := if j < m then [] else if j = m then q else i.datagramsOut } }

section Midway

variable {m : Nat} {q q' : List InternetDatagram}

theorem midway_zero (r : Router) : r.midway [] 0 (r.queue 0) = r := by
  rw [midway, List.mapIdx_eq_iff.2 fun j => ?_]
  cases there : r.interfaces[j]? with
  | none => rfl
  | some i =>
    by_cases here : j = 0
    · subst here
      rw [queue, there]
      rfl
    · simp [here]

theorem midway_next (r : Router) (fs : List Forward) (m : Nat) : r.midway fs m [] = r.midway fs (m + 1) (r.queue (m + 1)) := by
  rw [midway, midway]
  congr 1
  refine List.ext_getElem? fun j => ?_
  rw [List.getElem?_mapIdx, List.getElem?_mapIdx]
  cases there : r.interfaces[j]? with
  | none => rfl
  | some i =>
    rcases Nat.lt_trichotomy j m with less | rfl | more
    · simp [less, Nat.lt_succ_of_lt less]
    · simp
    · by_cases here : j = m + 1
      · subst here
        rw [queue, there]
        simp
      · have behind : ¬ j < m + 1 := by omega
        simp [Nat.not_lt.2 (Nat.le_of_lt more), Nat.ne_of_gt more, behind, here]

theorem midway_queue (inside : m < r.interfaces.length) : (r.midway fs m q).queue m = q := by
  rw [queue, midway, List.getElem?_mapIdx, List.getElem?_eq_getElem inside]
  simp

theorem setQueue_eq (r : Router) (n : Nat) (q : List InternetDatagram) : r.setQueue n q =
    { r with interfaces := r.interfaces.mapIdx fun m i => if m = n then { i with datagramsOut := q } else i } := by
  rw [setQueue]
  congr 1
  refine List.ext_getElem? fun m => ?_
  rw [List.getElem?_modify, List.getElem?_mapIdx]
  by_cases here : m = n
  · simp [here]
  · simp [here, Ne.symm here]

/-- More is handed over, and the queue is what is left of it. -/
theorem midway_handed (gs : List Forward) : (handed gs (r.midway fs m q)).setQueue m q' = r.midway (fs ++ gs) m q' := by
  simp only [setQueue_eq, midway, handed, List.mapIdx_mapIdx]
  congr 2
  funext j i
  simp only [Function.comp_apply, share_append, share_with]
  by_cases here : j = m
  · simp [here]
  · simp [here]

theorem midway_setQueue : (r.midway fs m q).setQueue m q' = r.midway fs m q' := by
  have same : (handed [] (r.midway fs m q)).setQueue m q' = r.midway (fs ++ []) m q' := midway_handed []
  rwa [handed_nil, List.append_nil] at same

theorem accepts_midway (f : Forward) : (r.midway fs m q).accepts f = r.accepts f := by
  rw [accepts, accepts, midway, List.getElem?_mapIdx]
  cases r.interfaces[f.interfaceNum]? with
  | none => rfl
  | some i =>
    rw [Option.map_some, Option.any_some, Option.any_some, share_usable]

theorem routeOneDatagram_midway (dgram : InternetDatagram) : (r.midway fs m q).routeOneDatagram dgram =
    (forward r.table dgram).map fun decision =>
      if decision.all r.accepts then ⟨handed decision.toList (r.midway fs m q), true⟩ else ⟨r.midway fs m q, false⟩ := by
  rw [routeOneDatagram_eq, show accepts (r.midway fs m q) = r.accepts from funext accepts_midway]
  rfl

end Midway

/-- How the loops over the first `k` queues can end, where `D` is what should become of a datagram: all of it is done, or the
loops are stuck at the first datagram that cannot be handed over. -/
inductive Routed (D : InternetDatagram → Option Forward → Prop) (r : Router) (k : Nat) : CallEnd Router → Prop where
  | all {ds : List (Option Forward)} (decided : List.Forall₂ D ((r.interfaces.take k).flatMap (·.datagramsOut)) ds)
      (taken : ∀ f ∈ ds.reduceOption, r.accepts f = true) : Routed D r k ⟨r.midway ds.reduceOption k (r.queue k), true⟩
  | stuck {m : Nat} {seen rest : List InternetDatagram} {dgram : InternetDatagram} {ds : List (Option Forward)} {f : Forward}
      (here : r.queue m = seen ++ dgram :: rest)
      (decided : List.Forall₂ D ((r.interfaces.take m).flatMap (·.datagramsOut) ++ seen) ds)
      (taken : ∀ f ∈ ds.reduceOption, r.accepts f = true) (next : D dgram (some f)) (refused : r.accepts f = false) :
      Routed D r k ⟨r.midway ds.reduceOption m (aged dgram :: rest), false⟩

theorem Routed.mono {D D' : InternetDatagram → Option Forward → Prop} (weaker : ∀ dgram decision, D dgram decision → D' dgram decision)
    {k : Nat} {o : CallEnd Router} (h : Routed D r k o) : Routed D' r k o := by
  cases h with
  | all decided taken => exact .all (decided.imp weaker) taken
  | stuck here decided taken next refused => exact .stuck here (decided.imp weaker) taken (weaker _ _ next) refused

/-- **The loop over one queue** hands over one datagram after the other, up to the first that is refused. -/
theorem drain_midway {m : Nat} {q : List InternetDatagram} {o : CallEnd Router} (run : drain m q (r.midway fs m q) = some o) :
    ∃ seen ds, Decides r.table seen ds ∧ (∀ f ∈ ds.reduceOption, r.accepts f = true) ∧
      (seen = q ∧ o = ⟨r.midway (fs ++ ds.reduceOption) m [], true⟩ ∨
        ∃ dgram rest f, q = seen ++ dgram :: rest ∧ forward r.table dgram = some (some f) ∧ r.accepts f = false ∧
          o = ⟨r.midway (fs ++ ds.reduceOption) m (aged dgram :: rest), false⟩) := by
  induction q generalizing fs with
  | nil =>
    cases run
    exact ⟨[], [], .nil, by simp, .inl ⟨rfl, by simp⟩⟩
  | cons dgram rest ih =>
    obtain ⟨call, one, run⟩ := Option.bind_eq_some_iff.1 run
    rw [routeOneDatagram_midway] at one
    obtain ⟨decision, decided, rfl⟩ := Option.map_eq_some_iff.1 one
    by_cases fine : decision.all r.accepts = true
    · rw [if_pos fine, if_pos rfl, midway_handed] at run
      obtain ⟨seen, ds, others, taken, ending⟩ := ih run
      refine ⟨dgram :: seen, decision :: ds, .cons decided others, ?_, ?_⟩
      · rw [reduceOption_cons, List.forall_mem_append]
        exact ⟨fun f is => (Option.all_eq_true _ _).1 fine f (Option.mem_toList.1 is), taken⟩
      rw [reduceOption_cons, ← List.append_assoc]
      rcases ending with ⟨rfl, last⟩ | ⟨next, rest', f, rfl, found, refused, last⟩
      · exact .inl ⟨rfl, last⟩
      · exact .inr ⟨next, rest', f, rfl, found, refused, last⟩
    · rw [if_neg fine, if_neg Bool.false_ne_true, midway_setQueue] at run
      cases decision with
      | none => exact absurd rfl fine
      | some f =>
        refine ⟨[], [], .nil, by simp, .inr ⟨dgram, rest, f, rfl, decided, ?_, ?_⟩⟩
        · exact Bool.eq_false_iff.2 fine
        · rw [List.reduceOption_nil, List.append_nil]
          exact (Option.some.inj run).symm

/-- The first `k` queues. -/
theorem routed_of_foldlM {k : Nat} (inside : k ≤ r.interfaces.length) {o : CallEnd Router}
    (run : (List.range k).foldlM (fun call n => call.andThen fun r => r.drain n (r.queue n)) ⟨r, true⟩ = some o) :
    Routed (fun dgram decision => forward r.table dgram = some decision) r k o := by
  induction k generalizing o with
  | zero =>
    cases run
    have nothing : Routed (fun dgram decision => forward r.table dgram = some decision) r 0
        ⟨r.midway (List.reduceOption []) 0 (r.queue 0), true⟩ := .all .nil (by simp)
    rwa [List.reduceOption_nil, midway_zero] at nothing
  | succ k ih =>
    rw [List.range_succ, List.foldlM_append] at run
    obtain ⟨mid, first, last⟩ := Option.bind_eq_some_iff.1 run
    obtain ⟨final, last, same⟩ := Option.bind_eq_some_iff.1 last
    cases same
    cases ih (Nat.le_of_succ_le inside) first with
    | stuck here decided taken next refused =>
      cases last
      exact .stuck here decided taken next refused
    | @all ds decided taken =>
      have there : r.interfaces[k]? = some r.interfaces[k] := List.getElem?_eq_getElem inside
      have last : drain k ((r.midway ds.reduceOption k (r.queue k)).queue k) (r.midway ds.reduceOption k (r.queue k)) =
          some o := last
      rw [midway_queue inside] at last
      obtain ⟨seen, ds', decided', taken', ending⟩ := drain_midway last
      have both : List.Forall₂ (fun dgram decision => forward r.table dgram = some decision)
          ((r.interfaces.take k).flatMap (·.datagramsOut) ++ seen) (ds ++ ds') := List.rel_append decided decided'
      have accepted : ∀ f ∈ (ds ++ ds').reduceOption, r.accepts f = true := by
        rw [List.reduceOption_append]
        exact List.forall_mem_append.2 ⟨taken, taken'⟩
      rw [← List.reduceOption_append] at ending
      rcases ending with ⟨rfl, rfl⟩ | ⟨dgram, rest, f, here, next, refused, rfl⟩
      · have waiting : (r.interfaces.take (k + 1)).flatMap (·.datagramsOut) =
            (r.interfaces.take k).flatMap (·.datagramsOut) ++ r.queue k := by
          rw [List.take_add_one, there, List.flatMap_append, queue, there]
          simp
        rw [midway_next]
        exact .all (waiting ▸ both) accepted
      · exact .stuck here both accepted next refused

/-- **`route`** empties the queues one after the other, as the table decides, and stops at the first datagram that is refused.
What it does with a datagram does not depend on the others. -/
theorem routed_of_route {o : CallEnd Router} (run : r.route = some o) :
    Routed (fun dgram decision => forward r.table dgram = some decision) r r.interfaces.length o :=
  routed_of_foldlM (Nat.le_refl _) run

section Ends

variable {t : RouterTable} (decides : ∀ dgram, ∃ decision, forward t dgram = some decision)

include decides

theorem drain_ends (m : Nat) (q : List InternetDatagram) {r : Router} (table : r.table = t) :
    ∃ o, drain m q r = some o ∧ o.left.table = t := by
  induction q generalizing r with
  | nil => exact ⟨_, rfl, table⟩
  | cons dgram rest ih =>
    obtain ⟨decision, decided⟩ := decides dgram
    rw [drain, routeOneDatagram_eq, table, decided, Option.map_some, Option.bind_some]
    split
    · exact ih table
    · exact ⟨_, rfl, table⟩

/-- If every lookup ends, so does `route`. -/
theorem route_ends (table : r.table = t) : ∃ o, r.route = some o := by
  have loop : ∀ (l : List Nat) (c : CallEnd Router), c.left.table = t →
      ∃ o, l.foldlM (fun call n => call.andThen fun r => r.drain n (r.queue n)) c = some o := by
    intro l
    induction l with
    | nil => exact fun c _ => ⟨c, rfl⟩
    | cons n rest ih =>
      intro c table
      obtain ⟨o, run, kept⟩ : ∃ o, (c.andThen fun r => r.drain n (r.queue n)) = some o ∧ o.left.table = t := by
        rw [CallEnd.andThen]
        split
        · exact drain_ends decides n _ table
        · exact ⟨c, rfl, table⟩
      obtain ⟨last, done⟩ := ih o kept
      refine ⟨last, ?_⟩
      rw [List.foldlM_cons, run]
      exact done
  exact loop _ _ table

end Ends

/-! ### By the longest prefix -/

/-- What should become of a datagram. -/
inductive Fate (routes : List Route) (dgram : InternetDatagram) : Option Forward → Prop where
  | expired (last : dgram.header.ttl ≤ 1) : Fate routes dgram none
  | unrouted (alive : 1 < dgram.header.ttl) (nowhere : ∀ r ∈ routes, ¬ r.Matches dgram.header.dst) : Fate routes dgram none
  | forwarded (alive : 1 < dgram.header.ttl) {r : Route} (best : Best routes dgram.header.dst r) :
      Fate routes dgram (some ⟨r.interfaceNum, aged dgram, r.nextHop.getD dgram.header.dst⟩)

theorem aged_ttl_eq_zero (dgram : InternetDatagram) : (aged dgram).header.ttl = 0 ↔ dgram.header.ttl ≤ 1 := by
  show (if dgram.header.ttl ≠ 0 then dgram.header.ttl - 1 else dgram.header.ttl) = 0 ↔ _
  constructor
  · intro zero
    by_contra alive
    obtain ⟨positive, more⟩ := ttl_pos (UInt8.not_le.1 alive)
    rw [if_pos positive] at zero
    exact more zero
  · intro last
    have small : dgram.header.ttl.toNat ≤ 1 := UInt8.le_iff_toNat_le.1 last
    rcases Nat.le_one_iff_eq_zero_or_eq_one.1 small with none | one
    · rw [show dgram.header.ttl = 0 from UInt8.toNat_inj.1 none]
      rfl
    · rw [show dgram.header.ttl = 1 from UInt8.toNat_inj.1 one]
      rfl

/-- **The decision is the longest prefix match.** -/
theorem forward_fate {routes : List Route} {interfaces : Nat} (proper : ∀ r ∈ routes, Proper interfaces r)
    (noHost : ∀ r ∈ routes, r.routePrefix = 0 → r.prefixLength ≠ 32) {t : RouterTable} (table : RouterTable.Of routes t)
    (dgram : InternetDatagram) : ∃ decision, forward t dgram = some decision ∧ Fate routes dgram decision := by
  have valid : ∀ r ∈ routes, r.Valid := fun r member => (proper r member).valid
  rw [forward]
  split
  · rename_i dead
    exact ⟨none, rfl, .expired ((aged_ttl_eq_zero dgram).1 dead)⟩
  rename_i living
  have alive : 1 < dgram.header.ttl := UInt8.not_le.1 fun last => living ((aged_ttl_eq_zero dgram).2 last)
  have host : dgram.header.dst.toNat = 0 → (⟨0, 0⟩ : RouteKey) ∉ t.keys := by
    intro _ member
    obtain ⟨r, among, key⟩ := (table.keys _).1 member
    obtain ⟨first, length⟩ := Route.host_of_key_zero (valid r among) key
    exact noHost r among first length
  obtain ⟨last, lookup, found, covers⟩ := RouterTable.lookup_spec table.linked host
  have matched : ∀ r ∈ routes, r.Matches dgram.header.dst → t.Covers last r.key := fun r member holds =>
    covers r.key ((table.keys r.key).2 ⟨r, member, rfl⟩) ((Route.matches_iff (valid r member) _).1 holds)
  rw [lookup]
  cases last with
  | none =>
    refine ⟨none, rfl, .unrouted alive fun r member holds => ?_⟩
    obtain ⟨s, none_, -⟩ := matched r member holds
    cases none_
  | some s =>
    obtain ⟨member, holds⟩ := found s rfl
    obtain ⟨r, among, rfl⟩ := (table.keys s).1 member
    have best : Best routes dgram.header.dst r := by
      refine ⟨among, (Route.matches_iff (valid r among) _).2 holds, fun r' other holds' => ?_⟩
      obtain ⟨s, same, longer⟩ := matched r' other holds'
      cases same
      rwa [table.values r' other, table.values r among] at longer
    rw [Option.map_some, Option.map_some, table.values r among]
    dsimp only
    rw [nextHop_eq (proper r among).nextHop]
    exact ⟨_, rfl, .forwarded alive best⟩

/-- What can be sent: a datagram of version 4 with a whole header, whose payload has the length of its header. -/
theorem sendable_iff (dgram : InternetDatagram) : sendable dgram = true ↔
    NetworkInterface.Watched.WellFormed dgram ∧ 5 ≤ dgram.header.hlen := by
  refine ⟨fun fine => ?_, fun ⟨formed, words⟩ => NetworkInterface.sendable_of_wellFormed formed words⟩
  obtain ⟨out, written⟩ := Option.isSome_iff_exists.1 fine
  unfold IPv4Datagram.serialize at written
  split at written
  · cases written
  rename_i length
  obtain ⟨bytes, header, -⟩ := Option.bind_eq_some_iff.1 written
  unfold IPv4Header.serialize at header
  split at header
  · cases header
  rename_i version
  split at header
  · cases header
  rename_i words
  refine ⟨⟨not_not.1 length, not_not.1 version⟩, UInt8.le_iff_toNat_le.2 ?_⟩
  show 5 ≤ dgram.header.hlen.toNat
  rw [IPv4Header.headerLength] at words
  dsimp only at words
  omega

/-- A datagram that can be sent can be sent when it is older. -/
theorem sendable_aged {dgram : InternetDatagram} (fine : sendable dgram = true) : sendable (aged dgram) = true := by
  rw [sendable_iff] at fine ⊢
  exact fine

theorem Fate.sendable {routes : List Route} {dgram : InternetDatagram} {f : Forward} (fate : Fate routes dgram (some f))
    (fine : NetworkInterface.sendable dgram = true) : NetworkInterface.sendable f.dgram = true := by
  cases fate with
  | forwarded => exact sendable_aged fine

theorem Fate.inside {routes : List Route} {interfaces : Nat} (proper : ∀ r ∈ routes, Proper interfaces r)
    {dgram : InternetDatagram} {f : Forward} (fate : Fate routes dgram (some f)) : f.interfaceNum < interfaces := by
  cases fate with
  | forwarded _ best => exact (proper _ best.member).interface

/-- A datagram with a header and nothing else. -/
def bare (dst : UInt32) (ttl : UInt8) : InternetDatagram := { header := { dst, ttl, len := 20 } }

/-- Two datagrams wait at the first interface, of which one is too old, and one at the third. -/
def waitingInterfaces : List AsyncNetworkInterface :=
  threeInterfaces.mapIdx fun m i => { i with
    datagramsOut := if m = 0 then [bare 0x0a010203 9, bare 0x0a010203 1] else if m = 2 then [bare 0x08080808 2] else [] }

/-- An interface that knows 10.0.0.1 and has received two datagrams for it, the first of version 6. -/
def blockedInterface : AsyncNetworkInterface where
  ethernetAddress := ⟨[2, 0, 0, 0, 6, 0], rfl⟩
  ipAddress := 0xc0a80001
  arpTable := fun ip => if ip = 0x0a000001 then some { exist := true } else none
  datagramsOut := [{ header := { dst := 0x0a000001, ttl := 9, len := 20, ver := 6 } }, bare 0x0a000001 9]

/-- `route` throws, and both stay. -/
example : ((addRoutes { interfaces := [blockedInterface] } [{ routePrefix := 0x0a000000, prefixLength := 8, interfaceNum := 0 }]).bind
    route).map (fun o => (o.returns, (o.left.queue 0).map (·.header.ttl))) = some (false, [8, 9]) := by decide +kernel

end Router

end Sponge
