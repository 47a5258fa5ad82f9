import Sponge.Net.InterfaceSteps
import Sponge.Net.MergeLoop
import Sponge.Net.RouteLookup

/-!
# The host bits of a route

`add_route` computes the end of a prefix from the masked address, but keeps the
address as it is as the start. The search does not look at entries that start
after the destination, so a route does not hold for the addresses of its prefix
below its own (`host_bits_ignored_iff`).
-/

namespace Sponge

namespace Route

/-- The route with the low bits of the address cleared. -/
def masked (r : Route) : Route :=
  { r with routePrefix := UInt32.ofNat (2 ^ (32 - r.prefixLength) * (r.routePrefix.toNat / 2 ^ (32 - r.prefixLength))) }

variable {r : Route}

theorem masked_toNat (r : Route) : r.masked.routePrefix.toNat =
    2 ^ (32 - r.prefixLength) * (r.routePrefix.toNat / 2 ^ (32 - r.prefixLength)) := by
  refine UInt32.toNat_ofNat_of_lt' ?_
  exact Nat.lt_of_le_of_lt (Nat.mul_div_le _ _) r.routePrefix.toNat_lt

theorem masked_valid (length : r.prefixLength ≤ 32) : r.masked.Valid := ⟨length, ⟨_, masked_toNat r⟩⟩

/-- Without host bits nothing is cleared. -/
theorem masked_eq (aligned : 2 ^ (32 - r.prefixLength) ∣ r.routePrefix.toNat) : r.masked = r := by
  have same : r.masked.routePrefix = r.routePrefix := by
    rw [← UInt32.toNat_inj, masked_toNat]
    exact Nat.mul_div_cancel' aligned
  calc r.masked = { r with routePrefix := r.masked.routePrefix } := rfl
    _ = r := by rw [same]

theorem masked_lt (host : ¬ 2 ^ (32 - r.prefixLength) ∣ r.routePrefix.toNat) :
    r.masked.routePrefix.toNat < r.routePrefix.toNat := by
  rw [masked_toNat]
  refine Nat.lt_of_le_of_ne (Nat.mul_div_le _ _) fun same => host ⟨_, same.symm⟩

end Route

namespace RouterTable

/-! ### A table of one route -/

theorem addRoute_empty (r : Route) : ({} : RouterTable).addRoute r = some (entered {} r) := by
  rw [addRoute_eq, next_entered]
  rfl

/-- An entry that starts after the destination is not found. -/
theorem lookup_below {r : Route} {dst : Nat} (below : dst < r.routePrefix.toNat) :
    (entered {} r).lookup dst = some none := by
  have keys : (entered {} r).keys = [r.key] := by
    rw [keys_entered]
    rfl
  have start : (entered {} r).lowerBound ⟨dst, 0⟩ = (entered {} r).keys.head? := by
    rw [lowerBound, keys]
    refine List.find?_cons_of_pos (decide_eq_true ?_)
    rw [RouteKey.lt_iff]
    have first : r.key.first = r.routePrefix.toNat := rfl
    dsimp only
    omega
  rw [lookup, start, search, if_pos rfl]

theorem of_single {r : Route} (valid : r.Valid) : Of [r] (entered {} r) := by
  obtain ⟨t, added, table⟩ := Of.empty.addRoute (t := {}) (r := r) ⟨valid, by simp, by simp⟩
  rw [addRoute_empty] at added
  cases added
  exact table

/-- The entry of a route that matches the destination is found, if it is not that of 0.0.0.0/32. -/
theorem lookup_single {r : Route} (valid : r.Valid) {dst : UInt32} (holds : r.Matches dst) (short : r.prefixLength < 32) :
    (entered {} r).lookup dst.toNat = some (some r.key) := by
  have table := of_single valid
  have only : ∀ k ∈ (entered {} r).keys, k = r.key := by
    intro k member
    obtain ⟨r', among, rfl⟩ := (table.keys k).1 member
    rw [List.mem_singleton.1 among]
  have zero : dst.toNat = 0 → (⟨0, 0⟩ : RouteKey) ∉ (entered {} r).keys := by
    intro _ member
    have := (Route.host_of_key_zero valid (only _ member).symm).2
    omega
  obtain ⟨last, found, inside, covers⟩ := lookup_spec table.linked zero
  obtain ⟨s, rfl, -⟩ := covers r.key ((table.keys _).2 ⟨r, by simp, rfl⟩) ((Route.matches_iff valid dst).1 holds)
  rw [found, only s (inside s rfl).1]

end RouterTable

namespace Router

/-! ### The calls on a router -/

inductive Operation where
  | addRoute (r : Route)
  | recvFrame (interfaceNum : Nat) (frame : EthernetFrame)
  | route

/-- The router that a call leaves, whether it returns or throws. -/
def Operation.apply (router : Router) : Operation → Option Router
  | .addRoute r => router.addRoute r
  | .recvFrame interfaceNum frame => some (router.recvFrame interfaceNum frame).left
  | .route => router.route.map CallEnd.left

def run (router : Router) (operations : List Operation) : Option Router := operations.foldlM Operation.apply router

/-- Adding one route or the other makes no difference to what the interfaces send, after any calls before and with any
calls after. -/
def ForwardsAlike (r r' : Route) : Prop :=
  ∀ (interfaces : List AsyncNetworkInterface) (before after : List Operation) (router : Router),
    run { interfaces } before = some router →
      ((router.addRoute r).bind fun router => run router after).map Router.interfaces =
        ((router.addRoute r').bind fun router => run router after).map Router.interfaces

/-! ### Routing one datagram -/

variable {router router' : Router} {dgram : InternetDatagram} {hop : UInt32} {n : Nat}

/-- Interfaces with nothing in their queues leave the router as it is. -/
theorem drain_idle {interfaces : List Nat} (idle : ∀ m ∈ interfaces, router.queue m = []) :
    interfaces.foldlM (fun call m => CallEnd.andThen call fun r => drain m (r.queue m) r) ⟨router, true⟩ =
      some ⟨router, true⟩ := by
  induction interfaces with
  | nil => rfl
  | cons m rest ih =>
    rw [List.foldlM_cons, CallEnd.andThen, if_pos rfl, idle m (by simp)]
    exact ih fun m' member => idle m' (by simp [member])

/-- What interface `n` keeps for an address until it knows the next hop. -/
def waiting (router : Router) (n : Nat) (hop : UInt32) : Option (List InternetDatagram) :=
  router.interfaces[n]?.map fun i => i.sentDgram hop

/-- `route` with one datagram in the queue of the first interface. -/
theorem route_single (single : router.queue 0 = [dgram]) (idle : ∀ m, router.queue (m + 1) = [])
    (routed : router.routeOneDatagram dgram = some ⟨router', true⟩) (same : ∀ m, router'.queue m = router.queue m) :
    ∃ last, router.route = some ⟨last, true⟩ ∧ last.waiting n hop = router'.waiting n hop := by
  obtain ⟨count, length⟩ : ∃ count, router.interfaces.length = count + 1 := by
    cases interfaces : router.interfaces with
    | nil => simp [queue, interfaces] at single
    | cons i rest => exact ⟨rest.length, rfl⟩
  -- the datagram is taken off the queue of the first interface, and nothing else is changed
  have kept : ∀ m, (router'.interfaces.modify 0 fun i => { i with datagramsOut := [] })[m]? =
      router'.interfaces[m]?.map fun i => if 0 = m then { i with datagramsOut := [] } else i :=
    fun m => List.getElem?_modify _ _ _ m
  refine ⟨router'.setQueue 0 [], ?_, ?_⟩
  · have drained : drain 0 (router.queue 0) router = some ⟨router'.setQueue 0 [], true⟩ := by
      rw [single, drain, routed]
      rfl
    rw [route, length, List.range_succ_eq_map, List.foldlM_cons, CallEnd.andThen, if_pos rfl, drained]
    refine drain_idle fun m member => ?_
    obtain ⟨m, -, rfl⟩ := List.mem_map.1 member
    refine Eq.trans ?_ ((same (m + 1)).trans (idle m))
    rw [queue, setQueue, kept, queue]
    cases router'.interfaces[m + 1]? <;> rfl
  · rw [waiting, setQueue, kept, waiting]
    cases router'.interfaces[n]? with
    | none => rfl
    | some i => by_cases first : 0 = n <;> simp [first]

theorem waiting_sendOn {i : AsyncNetworkInterface} (place : router.interfaces[n]? = some i) (unknown : i.usable hop = none) :
    ∃ router', router.sendOn n dgram hop = ⟨router', true⟩ ∧ router'.waiting n hop = some (i.sentDgram hop ++ [dgram]) := by
  obtain ⟨m, asks, call⟩ := NetworkInterface.sendDatagram_of_none dgram unknown
  rw [sendOn_of_some place _ _, AsyncNetworkInterface.sendDatagram, call]
  refine ⟨_, rfl, ?_⟩
  rw [waiting, List.getElem?_set_self (List.getElem?_eq_some_iff.1 place).1]
  show some (Function.update m.sentDgram hop (m.sentDgram hop ++ [dgram]) hop) = _
  rw [Function.update_self, asks.queue]

/-! ### The routers that tell two routes apart -/

/-- Interfaces up to number `n`, of which the first has received a datagram. -/
def received (n : Nat) (dgram : InternetDatagram) : List AsyncNetworkInterface :=
  { ethernetAddress := .zero, ipAddress := 0, datagramsOut := [dgram] } ::
    List.replicate n { ethernetAddress := .zero, ipAddress := 0 }

/-- A datagram for an address. -/
def probe (dst : UInt32) : InternetDatagram := { header := { dst, len := 20 } }

/-- A router with these interfaces and one route. -/
def single (r : Route) (n : Nat) (dgram : InternetDatagram) : Router :=
  { interfaces := received n dgram, table := .entered {} r }

theorem queue_single (r : Route) (n : Nat) (dgram : InternetDatagram) (m : Nat) :
    (single r n dgram).queue (m + 1) = [] := by
  unfold queue single received
  rw [List.getElem?_cons_succ, List.getElem?_replicate]
  split <;> rfl

theorem received_get (n : Nat) (dgram : InternetDatagram) : ∃ i, (received n dgram)[n]? = some i ∧
    (∀ hop, i.usable hop = none) ∧ ∀ hop, i.sentDgram hop = [] := by
  cases n with
  | zero => exact ⟨_, rfl, fun _ => rfl, fun _ => rfl⟩
  | succ n =>
    rw [received, List.getElem?_cons_succ, List.getElem?_replicate, if_pos (Nat.lt_succ_self n)]
    exact ⟨_, rfl, fun _ => rfl, fun _ => rfl⟩

section Apart

variable {r : Route} (alive : 1 < dgram.header.ttl)

include alive

/-- A datagram for an address below that of the only route is dropped. -/
theorem route_below (below : dgram.header.dst.toNat < r.routePrefix.toNat) :
    ∃ last, (single r n dgram).route = some ⟨last, true⟩ ∧ last.waiting n hop = some [] := by
  have routed : (single r n dgram).routeOneDatagram dgram = some ⟨single r n dgram, true⟩ :=
    routeOneDatagram_of_none alive (RouterTable.lookup_below below)
  obtain ⟨last, run, kept⟩ := route_single rfl (queue_single r n dgram) routed fun _ => rfl
  obtain ⟨i, place, -, empty⟩ := received_get n dgram
  refine ⟨last, run, kept.trans ?_⟩
  rw [waiting, single, place, Option.map_some, empty]

/-- A datagram that the only route matches waits at the interface of the route. -/
theorem route_matching (valid : r.Valid) (short : r.prefixLength < 32) (holds : r.Matches dgram.header.dst) :
    ∃ last hop sent, (single r r.interfaceNum dgram).route = some ⟨last, true⟩ ∧
      last.waiting r.interfaceNum hop = some [sent] := by
  have value : (single r r.interfaceNum dgram).table.value r.key = _ := (RouterTable.of_single valid).values r (by simp)
  have routed : (single r r.interfaceNum dgram).routeOneDatagram dgram = _ :=
    routeOneDatagram_of_some alive (RouterTable.lookup_single valid holds short)
  rw [value] at routed
  obtain ⟨i, place, unknown, empty⟩ := received_get r.interfaceNum dgram
  have here : (single r r.interfaceNum dgram).interfaces[r.interfaceNum]? = some i := place
  obtain ⟨router', sent, waits⟩ := waiting_sendOn here (unknown _)
  rw [sent] at routed
  obtain ⟨last, run, kept⟩ := route_single rfl (queue_single r r.interfaceNum dgram) routed fun m =>
    (congrArg (fun call => call.left.queue m) sent).symm.trans (queue_sendOn m)
  rw [empty, List.nil_append] at waits
  exact ⟨last, _, _, run, kept.trans waits⟩

end Apart

/-- Adding a route to a new router and then routing what has been received. -/
theorem run_single (r : Route) (n : Nat) (dgram : InternetDatagram) :
    ((addRoute { interfaces := received n dgram } r).bind fun router => run router [.route]) =
      (single r n dgram).route.map CallEnd.left := by
  rw [addRoute, RouterTable.addRoute_empty]
  show ((single r n dgram).route.map CallEnd.left).bind some = _
  exact Option.bind_fun_some _

/-- A datagram for the first address of the prefix tells a route with host bits and the masked one apart. -/
theorem ForwardsAlike.aligned {r : Route} (length : r.prefixLength ≤ 32) (alike : ForwardsAlike r r.masked) :
    2 ^ (32 - r.prefixLength) ∣ r.routePrefix.toNat := by
  by_contra host
  have short : r.masked.prefixLength < 32 := by
    refine Nat.lt_of_le_of_ne length fun full => host ?_
    rw [show r.prefixLength = 32 from full]
    exact ⟨_, (Nat.one_mul _).symm⟩
  have alive : 1 < (probe r.masked.routePrefix).header.ttl := show (1 : UInt8) < 128 by decide
  obtain ⟨last, hop, sent, routed, waits⟩ : ∃ last hop sent,
      (single r.masked r.interfaceNum (probe r.masked.routePrefix)).route = some ⟨last, true⟩ ∧
        last.waiting r.interfaceNum hop = some [sent] := route_matching alive (Route.masked_valid length) short rfl
  obtain ⟨last', routed', waits'⟩ : ∃ last',
      (single r r.interfaceNum (probe r.masked.routePrefix)).route = some ⟨last', true⟩ ∧
        last'.waiting r.interfaceNum hop = some [] := route_below alive (Route.masked_lt host)
  have same := alike (received r.interfaceNum (probe r.masked.routePrefix)) [] [.route] _ rfl
  rw [run_single, run_single, routed', routed] at same
  have interfaces : last'.interfaces = last.interfaces := Option.some.inj same
  rw [waiting, interfaces] at waits'
  cases waits'.symm.trans waits

/-- **The host bits of a route** make no difference exactly if there are none. -/
theorem host_bits_ignored_iff (r : Route) (length : r.prefixLength ≤ 32) :
    ForwardsAlike r r.masked ↔ 2 ^ (32 - r.prefixLength) ∣ r.routePrefix.toNat := by
  refine ⟨fun alike => alike.aligned length, fun aligned => ?_⟩
  rw [Route.masked_eq aligned]
  exact fun _ _ _ _ _ => rfl

/-- 18.243.0.0/16 has no host bits, 18.243.0.1/16 has. -/
theorem host_bits_ignored_iff_network :
    ForwardsAlike { routePrefix := 0x12f30000, prefixLength := 16, interfaceNum := 3 }
        (Route.masked { routePrefix := 0x12f30000, prefixLength := 16, interfaceNum := 3 }) ∧
      ¬ ForwardsAlike { routePrefix := 0x12f30001, prefixLength := 16, interfaceNum := 3 }
        (Route.masked { routePrefix := 0x12f30001, prefixLength := 16, interfaceNum := 3 }) := by
  constructor
  · exact (host_bits_ignored_iff { routePrefix := 0x12f30000, prefixLength := 16, interfaceNum := 3 } (by decide)).2
      (by decide)
  · rw [host_bits_ignored_iff { routePrefix := 0x12f30001, prefixLength := 16, interfaceNum := 3 } (by decide)]
    decide

/-- The route 128.30.76.255/16 does not hold for 128.30.0.0. -/
theorem host_bits_kept : ¬ ∀ r : Route, r.prefixLength ≤ 32 → ForwardsAlike r r.masked := by
  intro claim
  have alike := claim { routePrefix := 0x801e4cff, prefixLength := 16, interfaceNum := 5 } (by decide)
  exact absurd (alike.aligned (by decide)) (by decide)

end Router

end Sponge
