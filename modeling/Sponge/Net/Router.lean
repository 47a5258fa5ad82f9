import Sponge.Net.NetworkInterface

/-!
# The router (`router.hh`, `router.cc`)

The routes are kept in a map from the first and last address of a prefix, in the
order of `cmp_map`: by the first address, the larger prefix before the smaller.
Each entry has a link to another one, `nearest_prefix`, meant to be the smallest
prefix that includes it. Nothing is ever erased, so an iterator is the key it
points to, or none for `end()`. The map is the list of its keys in order, with
the components of the values as functions of the key.

A loop that does not end and an access to `end()` are `none`. A call that throws
keeps what it has done so far (`CallEnd`).
-/

namespace Sponge

/-- `_rt_k`: the first and the last address. -/
structure RouteKey where
  first : Nat
  second : Nat
  deriving DecidableEq

namespace RouteKey

/-- `cmp_map`. -/
def cmpMap (ts tb : RouteKey) : Bool :=
  if ts.first = tb.first then decide (ts.second > tb.second) else decide (ts.first < tb.first)

instance : LT RouteKey := ⟨fun ts tb => cmpMap ts tb = true⟩

instance (ts tb : RouteKey) : Decidable (ts < tb) := inferInstanceAs (Decidable (cmpMap ts tb = true))

theorem lt_iff {ts tb : RouteKey} :
    ts < tb ↔ ts.first < tb.first ∨ ts.first = tb.first ∧ tb.second < ts.second := by
  show cmpMap ts tb = true ↔ _
  unfold cmpMap
  split
  · rw [decide_eq_true_eq]
    omega
  · rw [decide_eq_true_eq]
    omega

/-- The number of addresses, in 32 bits. -/
def size (k : RouteKey) : Nat := (2 ^ 32 - k.first + k.second + 1) % 2 ^ 32

end RouteKey

/-- The arguments of `add_route`. -/
structure Route where
  routePrefix : UInt32
  prefixLength : Nat
  nextHop : Option UInt32 := none
  interfaceNum : Nat
  deriving DecidableEq

namespace Route

/-- `start_index`. -/
def startIndex (r : Route) : UInt32 :=
  let shift := if r.prefixLength = 0 then 0 else 32 - r.prefixLength
  r.routePrefix &&& ((0xffffffff : UInt32) <<< UInt32.ofNat shift)

/-- `end_index`. -/
def endIndex (r : Route) : Nat := (r.startIndex.toNat + (2 ^ (32 - r.prefixLength) - 1)) % 2 ^ 32

def key (r : Route) : RouteKey := ⟨r.routePrefix.toNat, r.endIndex⟩

/-- The numbers at which the natural logarithm passes the next whole number. -/
def expCeilings : List Nat :=
  [3, 8, 21, 55, 149, 404, 1097, 2981, 8104, 22027, 59875, 162755, 442414, 1202605, 3269018, 8886111, 24154953,
    65659970, 178482301, 485165196, 1318815735, 3584912847]

/-- `log_length`: the natural logarithm of the size, rounded down. -/
def logLength (r : Route) : Nat := (expCeilings.filter fun n => decide (n ≤ r.key.size)).length

end Route

/-- `_rt_v` but for the link. The next hop 0 stands for none. -/
structure RouteValue where
  interfaceNum : Nat := 0
  nextHop : UInt32 := 0
  prefixLength : Nat := 0
  deriving DecidableEq

/-- `_router_table`. -/
structure RouterTable where
  keys : List RouteKey := []
  nearest : RouteKey → Option RouteKey := fun _ => none
  value : RouteKey → RouteValue := fun _ => {}

namespace RouterTable

/-- The place of a new key. -/
def insertKey (key : RouteKey) : List RouteKey → List RouteKey
  | [] => [key]
  | k :: rest => if k < key then k :: insertKey key rest else key :: k :: rest

/-- `insert`, which leaves an entry that is there already. The link of a new entry is `begin()`, or `end()` if the
table is empty. -/
def insert (t : RouterTable) (key : RouteKey) (value : RouteValue) : RouterTable :=
  if key ∈ t.keys then t
  else {
    keys := insertKey key t.keys
    nearest := Function.update t.nearest key t.keys.head?
    value := Function.update t.value key value }

/-- `get<0>(it->second) = target`. -/
def setNearest (t : RouterTable) (key target : RouteKey) : RouterTable :=
  { t with nearest := Function.update t.nearest key (some target) }

/-- `++it`. -/
def next (t : RouterTable) (it : RouteKey) : Option RouteKey := t.keys.find? fun k => decide (it < k)

/-- `--it`. -/
def before (t : RouterTable) (it : Option RouteKey) : Option RouteKey :=
  (t.keys.filter fun k => it.all fun bound => decide (k < bound)).getLast?

/-- `lower_bound`. -/
def lowerBound (t : RouterTable) (key : RouteKey) : Option RouteKey := t.keys.find? fun k => decide ¬ k < key

/-- The first loop of `add_route`: back to the first entry that ends after the new one. -/
def linkBack (t : RouterTable) (key : RouteKey) : RouterTable :=
  match (t.keys.filter fun k => decide (k < key) && decide (k.second > key.second)).getLast? with
  | some it => t.setNearest key it
  | none => t

/-- Where the second loop of `add_route` goes from `it`: step by step while the entries start before the end of `it`,
or with `lower_bound`. -/
def skip (t : RouterTable) (logLength : Nat) (it : RouteKey) : Option RouteKey :=
  if it.size < logLength then t.keys.find? fun k => decide (it < k) && !decide (k.first < it.second)
  else t.lowerBound ⟨it.second, 2 ^ 32 - 1⟩

/-- The second loop of `add_route`. Where it does not end within as many rounds as there are entries, it never does. -/
def mergeLoop (key : RouteKey) (logLength : Nat) : Nat → RouterTable → Option RouteKey → Option RouterTable
  | 0, _, _ => none
  | _ + 1, t, none => some t
  | fuel + 1, t, some it =>
    if key.second ≥ it.second then some t
    else mergeLoop key logLength fuel (t.setNearest it key) ((t.setNearest it key).skip logLength it)

/-- `add_route`. -/
def addRoute (t : RouterTable) (r : Route) : Option RouterTable :=
  let t := t.insert r.key ⟨r.interfaceNum, r.nextHop.getD 0, r.prefixLength⟩
  let t := t.linkBack r.key
  mergeLoop r.key r.logLength (t.keys.length + 1) t (t.next r.key)

/-- The loop of `route_one_datagram`: `saved` is the entry whose length, interface and next hop are kept. -/
def search (t : RouterTable) (dst : Nat) : Nat → Option RouteKey → Bool → Option RouteKey → Option (Option RouteKey)
  | 0, _, _, _ => none
  | fuel + 1, it, fastSearch, saved =>
    if it = t.keys.head? then some saved
    else
      match if fastSearch then it.bind t.nearest else t.before it with
      | none => none
      | some k =>
        let tarPlen := saved.elim 0 fun s => (t.value s).prefixLength
        t.search dst fuel (some k) (fastSearch || decide (k.second ≤ dst))
          (if k.second ≥ dst ∧ (t.value k).prefixLength ≥ tarPlen then some k else saved)

/-- The entry that `route_one_datagram` finds for an address. Each of the two ways to go on passes an entry at most once,
or the loop never ends. -/
def lookup (t : RouterTable) (dst : Nat) : Option (Option RouteKey) :=
  t.search dst (2 * t.keys.length + 2) (t.lowerBound ⟨dst, 0⟩) false none

end RouterTable

/-- How a call ends: the object that it leaves, and whether it returns or throws. -/
structure CallEnd (σ : Type) where
  left : σ
  returns : Bool

/-- What follows a call that does not throw. -/
def CallEnd.andThen {σ : Type} (c : CallEnd σ) (next : σ → Option (CallEnd σ)) : Option (CallEnd σ) :=
  if c.returns then next c.left else some c

/-- `AsyncNetworkInterface`. -/
structure AsyncNetworkInterface extends NetworkInterface where
  datagramsOut : List InternetDatagram := []

namespace AsyncNetworkInterface

/-- `AsyncNetworkInterface::recv_frame`. Where the call that it makes throws, so does this one, and the queue is left as
it is. -/
def recvFrame (i : AsyncNetworkInterface) (frame : EthernetFrame) : CallEnd AsyncNetworkInterface :=
  let call := i.toNetworkInterface.recvFrame frame
  { left := { toNetworkInterface := call.interface, datagramsOut := i.datagramsOut ++ (call.result.getD none).toList }
    returns := call.result.isSome }

/-- `send_datagram`, which is inherited. -/
def sendDatagram (i : AsyncNetworkInterface) (dgram : InternetDatagram) (nextHop : UInt32) : CallEnd AsyncNetworkInterface :=
  let call := i.toNetworkInterface.sendDatagram dgram nextHop
  { left := { i with toNetworkInterface := call.interface }, returns := call.result.isSome }

end AsyncNetworkInterface

/-- `Router`. -/
structure Router where
  interfaces : List AsyncNetworkInterface := []
  table : RouterTable := {}

namespace Router

/-- `add_route`. -/
def addRoute (r : Router) (route : Route) : Option Router := (r.table.addRoute route).map fun table => { r with table }

/-- A call of a member of `interface(N)`, which throws without that interface. -/
def onInterface (r : Router) (interfaceNum : Nat) (call : AsyncNetworkInterface → CallEnd AsyncNetworkInterface) :
    CallEnd Router :=
  match r.interfaces[interfaceNum]? with
  | none => ⟨r, false⟩
  | some i => ⟨{ r with interfaces := r.interfaces.set interfaceNum (call i).left }, (call i).returns⟩

/-- `interface(N).send_datagram(dgram, next_hop)`. -/
def sendOn (r : Router) (interfaceNum : Nat) (dgram : InternetDatagram) (nextHop : UInt32) : CallEnd Router :=
  r.onInterface interfaceNum fun i => i.sendDatagram dgram nextHop

/-- `interface(N).recv_frame(frame)`. -/
def recvFrame (r : Router) (interfaceNum : Nat) (frame : EthernetFrame) : CallEnd Router :=
  r.onInterface interfaceNum fun i => i.recvFrame frame

/-- The datagram as `route_one_datagram` leaves it: with one less to live. -/
def aged (dgram : InternetDatagram) : InternetDatagram :=
  { dgram with header := { dgram.header with
      ttl := if dgram.header.ttl ≠ 0 then dgram.header.ttl - 1 else dgram.header.ttl } }

/-- `route_one_datagram`. -/
def routeOneDatagram (r : Router) (dgram : InternetDatagram) : Option (CallEnd Router) :=
  let dgram := aged dgram
  if dgram.header.ttl = 0 then some ⟨r, true⟩
  else
    (r.table.lookup dgram.header.dst.toNat).map fun
      | none => ⟨r, true⟩
      | some k =>
        let tarNexthop := (r.table.value k).nextHop
        r.sendOn (r.table.value k).interfaceNum dgram (if tarNexthop = 0 then dgram.header.dst else tarNexthop)

/-- `interface(N).datagrams_out()`. -/
def queue (r : Router) (interfaceNum : Nat) : List InternetDatagram :=
  r.interfaces[interfaceNum]?.elim [] fun i => i.datagramsOut

def setQueue (r : Router) (interfaceNum : Nat) (q : List InternetDatagram) : Router :=
  { r with interfaces := r.interfaces.modify interfaceNum fun i => { i with datagramsOut := q } }

/-- The loop of `route` over the queue of one interface. The datagram at the front is popped when `route_one_datagram`
returns. Where that throws, it stays at the front, and has been aged in place. -/
def drain (interfaceNum : Nat) : List InternetDatagram → Router → Option (CallEnd Router)
  | [], r => some ⟨r, true⟩
  | dgram :: rest, r => (r.routeOneDatagram dgram).bind fun call =>
    if call.returns then drain interfaceNum rest (call.left.setQueue interfaceNum rest)
    else some ⟨call.left.setQueue interfaceNum (aged dgram :: rest), false⟩

/-- `route`. -/
def route (r : Router) : Option (CallEnd Router) :=
  (List.range r.interfaces.length).foldlM
    (fun call interfaceNum => call.andThen fun r => r.drain interfaceNum (r.queue interfaceNum)) ⟨r, true⟩

end Router

end Sponge
