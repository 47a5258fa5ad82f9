import Mathlib.Data.List.Induction
import Sponge.Net.RouteTable

/-!
# Longest-prefix match

The search of `route_one_datagram` goes back from the last entry that starts at
the destination or before, one by one at first, and by the links once it has met
an entry that ends at the destination or before. What it passes over is apart
from the destination or includes an entry it has saved (`Searched`), so what it
saves in the end is the longest match (`lookup_spec`).
-/

namespace Sponge

/-- The addresses of an entry. -/
def RouteKey.Holds (k : RouteKey) (dst : Nat) : Prop := k.first ≤ dst ∧ dst ≤ k.second

namespace RouterTable

variable {t : RouterTable} {dst : Nat} {saved : Option RouteKey} {k p : RouteKey}

/-- What the search saves after it has looked at `k`. -/
def save (t : RouterTable) (dst : Nat) (saved : Option RouteKey) (k : RouteKey) : Option RouteKey :=
  if k.second ≥ dst ∧ (t.value k).prefixLength ≥ saved.elim 0 fun s => (t.value s).prefixLength then some k else saved

/-- What is saved is at least as long as `k`. -/
def Covers (t : RouterTable) (saved : Option RouteKey) (k : RouteKey) : Prop :=
  ∃ s, saved = some s ∧ (t.value k).prefixLength ≤ (t.value s).prefixLength

section Save

theorem covers_save (covers : t.Covers saved p) : t.Covers (t.save dst saved k) p := by
  obtain ⟨s, rfl, longer⟩ := covers
  unfold save
  split
  · rename_i better
    exact ⟨k, rfl, Nat.le_trans longer better.2⟩
  · exact ⟨s, rfl, longer⟩

theorem covers_save_self (reaches : dst ≤ k.second) : t.Covers (t.save dst saved k) k := by
  unfold save
  split
  · exact ⟨k, rfl, Nat.le_refl _⟩
  · rename_i shorter
    cases saved with
    | none => exact absurd ⟨reaches, Nat.zero_le _⟩ shorter
    | some s => exact ⟨s, rfl, Nat.le_of_lt (Nat.lt_of_not_le fun longer => shorter ⟨reaches, longer⟩)⟩

end Save

/-- What is saved holds the destination. -/
def Found (t : RouterTable) (dst : Nat) (saved : Option RouteKey) : Prop :=
  ∀ s, saved = some s → s ∈ t.keys ∧ s.Holds dst

theorem Found.save (h : t.Found dst saved) (member : k ∈ t.keys) (start : k.first ≤ dst) :
    t.Found dst (t.save dst saved k) := by
  intro s is
  unfold RouterTable.save at is
  split at is
  · rename_i better
    cases is
    exact ⟨member, start, better.1⟩
  · exact h s is

/-- The state of the search: an entry that holds the destination and is not covered is still ahead, and in the fast
search it ends after the entry that the search has reached. -/
inductive Searched (t : RouterTable) (dst : Nat) (saved : Option RouteKey) : Option RouteKey → Bool → Prop where
  | slow {it : Option RouteKey} (low : ∀ k ∈ t.keys, (∀ x, it = some x → k < x) → k.first ≤ dst)
      (ahead : ∀ k ∈ t.keys, k.Holds dst → t.Covers saved k ∨ ∀ x, it = some x → k < x) : Searched t dst saved it false
  | fast {x : RouteKey} (low : x.first ≤ dst)
      (ahead : ∀ k ∈ t.keys, k.Holds dst → t.Covers saved k ∨ k < x ∧ x.second < k.second) :
      Searched t dst saved (some x) true

/-- An entry that is nested in one that holds the destination and reaches it covers it. -/
theorem covers_of_nested (h : t.Linked) (member : k ∈ t.keys) (inside : p ∈ t.keys) (order : p < k) (start : k.first ≤ dst)
    (holds : p.Holds dst) : p.second ≤ k.second → t.Covers (t.save dst saved k) p := by
  intro ends
  obtain ⟨nested, longer⟩ := (h.blocks p inside).nested (h.blocks k member) order (Nat.le_trans start holds.2)
  have covers : t.Covers (t.save dst saved k) k := covers_save_self (Nat.le_trans holds.2 ends)
  obtain ⟨s, is, most⟩ := covers
  exact ⟨s, is, Nat.le_trans longer most⟩

/-- `--it` goes to the last entry before. -/
theorem before_spec (sorted : t.keys.Pairwise (· < ·)) {it : Option RouteKey} (prev : t.before it = some k) :
    k ∈ t.keys ∧ (∀ x, it = some x → k < x) ∧ ∀ p ∈ t.keys, (∀ x, it = some x → p < x) → p = k ∨ p < k := by
  obtain ⟨member, before, greatest⟩ := getLast?_filter_greatest sorted prev
  refine ⟨member, ?_, fun p inside earlier => greatest p inside ?_⟩
  · simpa [Option.all_eq_true] using before
  · simpa [Option.all_eq_true] using earlier

theorem Searched.slow_step (h : t.Linked) {it : Option RouteKey} (s : t.Searched dst saved it false)
    (prev : t.before it = some k) :
    k ∈ t.keys ∧ k.first ≤ dst ∧ t.Searched dst (t.save dst saved k) (some k) (decide (k.second ≤ dst)) := by
  obtain ⟨member, before, greatest⟩ := before_spec h.sorted prev
  cases s with
  | slow low ahead =>
    have start := low k member before
    have next : ∀ p ∈ t.keys, p.Holds dst → t.Covers (t.save dst saved k) p ∨ p < k := by
      intro p inside holds
      rcases ahead p inside holds with covers | earlier
      · exact Or.inl (covers_save covers)
      · rcases greatest p inside earlier with rfl | less
        · exact Or.inl (covers_save_self holds.2)
        · exact Or.inr less
    refine ⟨member, start, ?_⟩
    by_cases reached : k.second ≤ dst
    · rw [decide_eq_true reached]
      refine .fast start fun p inside holds => ?_
      rcases next p inside holds with covers | less
      · exact Or.inl covers
      · by_cases longer : k.second < p.second
        · exact Or.inr ⟨less, longer⟩
        · exact Or.inl (covers_of_nested h member inside less start holds (Nat.le_of_not_lt longer))
    · rw [decide_eq_false reached]
      refine .slow (fun p inside earlier => ?_) fun p inside holds => ?_
      · have less := earlier k rfl
        rw [RouteKey.lt_iff] at less
        omega
      · refine (next p inside holds).imp_right fun less x is => ?_
        cases is
        exact less

theorem Searched.fast_step (h : t.Linked) {x : RouteKey} (s : t.Searched dst saved (some x) true) (links : t.LinksTo x k) :
    k.first ≤ dst ∧ t.Searched dst (t.save dst saved k) (some k) true := by
  obtain ⟨member, before, past⟩ := links
  cases s with
  | fast low ahead =>
    have start : k.first ≤ dst := by
      rw [RouteKey.lt_iff] at before
      omega
    refine ⟨start, .fast start fun p inside holds => ?_⟩
    rcases ahead p inside holds with covers | ⟨earlier, later⟩
    · exact Or.inl (covers_save covers)
    · rcases past p inside earlier later with rfl | less
      · exact Or.inl (covers_save_self holds.2)
      · by_cases longer : k.second < p.second
        · exact Or.inr ⟨less, longer⟩
        · exact Or.inl (covers_of_nested h member inside less start holds (Nat.le_of_not_lt longer))

/-- At the first entry nothing is ahead. -/
theorem Searched.finish (h : t.Linked) {it : Option RouteKey} {fast : Bool} (s : t.Searched dst saved it fast)
    (first : it = t.keys.head?) : ∀ k ∈ t.keys, k.Holds dst → t.Covers saved k := by
  intro k member holds
  obtain ⟨b, head⟩ := Option.isSome_iff_exists.1 (List.isSome_head?.2 (List.ne_nil_of_mem member))
  have least : ¬ k < b := by
    rcases head?_least h.sorted head k member with rfl | more
    · exact RouteKey.lt_irrefl k
    · exact RouteKey.not_lt_of_lt more
  cases s with
  | slow low ahead => exact (ahead k member holds).resolve_right fun earlier => least (earlier b (first.trans head))
  | fast low ahead =>
    refine (ahead k member holds).resolve_right fun ⟨earlier, _⟩ => ?_
    cases first.trans head
    exact least earlier

/-- The number of entries before a position. -/
def rank (t : RouterTable) (it : Option RouteKey) : Nat :=
  (t.keys.filter fun k => it.all fun bound => decide (k < bound)).length

/-- Going back lowers the rank. -/
theorem rank_lt {it : Option RouteKey} (member : k ∈ t.keys) (before : ∀ x, it = some x → k < x) :
    t.rank (some k) < t.rank it := by
  have fewer : (t.keys.filter fun p => decide (p < k)) =
      (t.keys.filter fun p => it.all fun bound => decide (p < bound)).filter fun p => decide (p < k) := by
    rw [List.filter_filter]
    refine List.filter_congr fun p _ => ?_
    rw [Bool.eq_iff_iff, Bool.and_eq_true]
    refine ⟨fun less => ⟨less, ?_⟩, And.left⟩
    rw [Option.all_eq_true]
    exact fun x is => decide_eq_true (RouteKey.lt_trans (of_decide_eq_true less) (before x is))
  show (t.keys.filter fun p => decide (p < k)).length < _
  rw [fewer]
  refine List.length_filter_lt_length_iff_exists.2 ⟨k, List.mem_filter.2 ⟨member, ?_⟩, ?_⟩
  · rw [Option.all_eq_true]
    exact fun x is => decide_eq_true (before x is)
  · rw [decide_eq_true_eq]
    exact RouteKey.lt_irrefl k

/-- Away from the first entry there is one to go back to. -/
theorem exists_before (sorted : t.keys.Pairwise (· < ·)) {it : Option RouteKey} (place : ∀ x, it = some x → x ∈ t.keys)
    (notFirst : it ≠ t.keys.head?) : ∃ k, t.before it = some k := by
  cases prev : t.before it with
  | some k => exact ⟨k, rfl⟩
  | none =>
    have nothing := getLast?_filter_eq_none.1 prev
    cases head : t.keys.head? with
    | none =>
      rw [head] at notFirst
      obtain ⟨x, is⟩ := Option.ne_none_iff_exists'.1 notFirst
      rw [List.head?_eq_none_iff.1 head] at place
      exact absurd (place x is) (by simp)
    | some b =>
      have lacks := nothing b (List.mem_of_head? head)
      cases it with
      | none => cases lacks
      | some x =>
        rcases head?_least sorted head x (place x rfl) with rfl | less
        · exact absurd head.symm notFirst
        · simp [less] at lacks

/-- **The search ends**, and what it has saved covers every entry that holds the destination. -/
theorem search_spec (h : t.Linked) {it : Option RouteKey} {fast : Bool} {fuel : Nat} (s : t.Searched dst saved it fast)
    (place : ∀ x, it = some x → x ∈ t.keys) (found : t.Found dst saved) (enough : t.rank it < fuel) :
    ∃ last, t.search dst fuel it fast saved = some last ∧ t.Found dst last ∧
      ∀ k ∈ t.keys, k.Holds dst → t.Covers last k := by
  induction fuel generalizing it fast saved with
  | zero => omega
  | succ fuel ih =>
    rw [search]
    split
    · rename_i first
      exact ⟨saved, rfl, found, s.finish h first⟩
    · rename_i notFirst
      obtain ⟨k, goes, member, start, before, next⟩ : ∃ k, (if fast then it.bind t.nearest else t.before it) = some k ∧
          k ∈ t.keys ∧ k.first ≤ dst ∧ (∀ x, it = some x → k < x) ∧
          t.Searched dst (t.save dst saved k) (some k) (fast || decide (k.second ≤ dst)) := by
        cases fast with
        | false =>
          obtain ⟨k, prev⟩ := exists_before h.sorted place notFirst
          obtain ⟨member, start, next⟩ := s.slow_step h prev
          exact ⟨k, prev, member, start, (before_spec h.sorted prev).2.1, next⟩
        | true =>
          obtain ⟨x, rfl⟩ : ∃ x, it = some x := by
            cases s
            exact ⟨_, rfl⟩
          obtain ⟨k, link, links⟩ := h.links x (place x rfl) (Ne.symm notFirst)
          obtain ⟨start, next⟩ := s.fast_step h links
          refine ⟨k, link, links.1, start, fun y is => ?_, next⟩
          cases is
          exact links.2.1
      have lower := rank_lt member before
      rw [goes]
      refine ih next (fun x is => ?_) (found.save member start) (by omega)
      cases is
      exact member

/-- **The lookup** finds an entry with the longest prefix that holds the destination. The search does not look at the
entry of 0.0.0.0/32 for the destination 0.0.0.0. -/
theorem lookup_spec (h : t.Linked) (zero : dst = 0 → ⟨0, 0⟩ ∉ t.keys) :
    ∃ last, t.lookup dst = some last ∧ t.Found dst last ∧ ∀ k ∈ t.keys, k.Holds dst → t.Covers last k := by
  have least : ∀ x, t.lowerBound ⟨dst, 0⟩ = some x → ∀ p ∈ t.keys, p < x ↔ p < ⟨dst, 0⟩ := by
    intro x found p inside
    obtain ⟨-, holds, least⟩ := find?_least h.sorted found
    rw [decide_eq_true_eq] at holds
    refine ⟨fun before => ?_, fun before => ?_⟩
    · by_contra notBefore
      rcases least p inside (decide_eq_true notBefore) with rfl | less
      · exact RouteKey.lt_irrefl p before
      · exact RouteKey.not_lt_of_lt before less
    · rcases RouteKey.lt_trichotomy p x with less | rfl | more
      · exact less
      · exact absurd before holds
      · exact absurd (RouteKey.lt_trans more before) holds
  refine search_spec h (.slow (fun p inside before => ?_) fun p inside holds => ?_) (fun x found => ?_) nofun ?_
  · have less : p < ⟨dst, 0⟩ := by
      cases found : t.lowerBound ⟨dst, 0⟩ with
      | none => simpa using List.find?_eq_none.1 found p inside
      | some x => exact (least x found p inside).1 (before x found)
    rw [RouteKey.lt_iff] at less
    dsimp only at less
    omega
  · refine Or.inr fun x found => (least x found p inside).2 ?_
    obtain ⟨start, ends⟩ := holds
    rw [RouteKey.lt_iff]
    dsimp only
    by_contra notBefore
    have same : p = ⟨0, 0⟩ := by
      obtain ⟨first, second⟩ := p
      simp only [RouteKey.mk.injEq]
      dsimp only at start ends notBefore
      omega
    rw [same] at inside ends
    exact zero (Nat.le_zero.1 ends) inside
  · exact (find?_least h.sorted found).1
  · have bound := List.length_filter_le (fun k => (t.lowerBound ⟨dst, 0⟩).all fun bound => decide (k < bound)) t.keys
    unfold rank
    omega

end RouterTable

/-! ### Routes and their table -/

namespace Route

/-- The first `prefix_length` bits of the destination are those of the prefix. -/
def Matches (r : Route) (dst : UInt32) : Prop :=
  dst.toNat / 2 ^ (32 - r.prefixLength) = r.routePrefix.toNat / 2 ^ (32 - r.prefixLength)

instance (r : Route) (dst : UInt32) : Decidable (r.Matches dst) := inferInstanceAs (Decidable (_ = _))

theorem matches_iff {r : Route} (valid : r.Valid) (dst : UInt32) : r.Matches dst ↔ r.key.Holds dst.toNat := by
  have ends := (key_isBlock valid).ends
  have positive := Nat.two_pow_pos (32 - r.prefixLength)
  rw [Matches, div_eq_div_iff_mem valid.aligned, RouteKey.Holds]
  have first : r.key.first = r.routePrefix.toNat := rfl
  omega

/-- The entry from 0 to 0 is that of 0.0.0.0/32. -/
theorem host_of_key_zero {r : Route} (valid : r.Valid) (zero : r.key = ⟨0, 0⟩) :
    r.routePrefix = 0 ∧ r.prefixLength = 32 := by
  have first : r.routePrefix.toNat = 0 := congrArg RouteKey.first zero
  have ends := (key_isBlock valid).ends
  have length := valid.length
  rw [zero] at ends
  dsimp only at ends
  refine ⟨UInt32.toNat_inj.1 first, ?_⟩
  by_contra shorter
  have two : 2 ^ 1 ≤ 2 ^ (32 - r.prefixLength) := Nat.pow_le_pow_right (by decide) (by omega)
  omega

/-- A prefix that includes that of `r'`. -/
def Includes (r r' : Route) : Prop := r.prefixLength ≤ r'.prefixLength ∧ r.Matches r'.routePrefix

/-- The order in which two routes may be added: no route after one that it includes, and none of length 30 or more after
a host route above it. -/
def Compatible (earlier later : Route) : Prop :=
  ¬ later.Includes earlier ∧
    (30 ≤ later.prefixLength → earlier.prefixLength = 32 → earlier.routePrefix ≤ later.routePrefix)

instance (r r' : Route) : Decidable (r.Includes r') := inferInstanceAs (Decidable (_ ∧ _))

instance (earlier later : Route) : Decidable (earlier.Compatible later) := inferInstanceAs (Decidable (_ ∧ (_ → _ → _)))

end Route

/-- Prefixes of one length that hold an address are the same. -/
theorem RouteKey.IsBlock.eq_of_holds {k l : RouteKey} {len dst : Nat} (left : k.IsBlock len) (right : l.IsBlock len)
    (holds : k.Holds dst) (holds' : l.Holds dst) : k = l := by
  have ends := left.ends
  have ends' := right.ends
  rcases RouteKey.lt_trichotomy k l with less | same | more
  · have nested := (left.nested right less (Nat.le_trans holds'.1 holds.2)).1
    rw [RouteKey.lt_iff] at less
    omega
  · exact same
  · have nested := (right.nested left more (Nat.le_trans holds.1 holds'.2)).1
    rw [RouteKey.lt_iff] at more
    omega

namespace RouterTable

/-- The table of the routes. -/
structure Of (routes : List Route) (t : RouterTable) : Prop where
  linked : t.Linked
  keys : ∀ k, k ∈ t.keys ↔ ∃ r ∈ routes, r.key = k
  values : ∀ r ∈ routes, t.value r.key = ⟨r.interfaceNum, r.nextHop.getD 0, r.prefixLength⟩

theorem Of.empty : Of [] {} := ⟨⟨.nil, nofun, nofun⟩, by simp, by simp⟩

/-- A route that may be added after the others is admitted by their table. -/
theorem Of.admits {routes : List Route} {t : RouterTable} {r : Route} (h : Of routes t) (valid : r.Valid)
    (others : ∀ r' ∈ routes, r'.Valid) (order : ∀ r' ∈ routes, r'.Compatible r) : t.Admits r := by
  refine ⟨valid, fun k member ⟨starts, ends⟩ => ?_, fun long k member host => ?_⟩
  · obtain ⟨r', among, rfl⟩ := (h.keys k).1 member
    have block := Route.key_isBlock valid
    have block' := Route.key_isBlock (others r' among)
    have sizes := block.ends
    have sizes' := block'.ends
    refine (order r' among).1 ⟨?_, (Route.matches_iff valid _).2 ⟨starts, Nat.le_trans block'.order ends⟩⟩
    by_contra longer
    have := block.length
    have bigger : 2 ^ (32 - r.prefixLength) < 2 ^ (32 - r'.prefixLength) := Nat.pow_lt_pow_right (by decide) (by omega)
    omega
  · obtain ⟨r', among, rfl⟩ := (h.keys k).1 member
    rw [h.values r' among] at host
    exact UInt32.le_iff_toNat_le.1 ((order r' among).2 long host)

/-- **One more route.** -/
theorem Of.addRoute {routes : List Route} {t : RouterTable} {r : Route} (h : Of routes t) (admits : t.Admits r) :
    ∃ t', t.addRoute r = some t' ∧ Of (routes ++ [r]) t' := by
  obtain ⟨t', run, linked, keys, value⟩ := addRoute_linked h.linked admits
  refine ⟨t', run, linked, fun k => ?_, fun r' member => ?_⟩
  · rw [keys, h.keys]
    simp only [List.mem_append, List.mem_singleton, or_and_right, exists_or, exists_eq_left]
    rw [or_comm, eq_comm]
  · rw [value]
    rcases List.mem_append.1 member with old | new
    · have other : r'.key ≠ r.key := fun same => admits.fresh (same ▸ (h.keys r'.key).2 ⟨r', old, rfl⟩)
      rw [Function.update_of_ne other]
      exact h.values r' old
    · rw [List.mem_singleton.1 new, Function.update_self]

end RouterTable

namespace Router

/-- The calls of `add_route`, one after the other. -/
def addRoutes (router : Router) (routes : List Route) : Option Router := routes.foldlM addRoute router

theorem addRoutes_spec (interfaces : List AsyncNetworkInterface) (routes : List Route) (valid : ∀ r ∈ routes, r.Valid)
    (order : routes.Pairwise Route.Compatible) :
    ∃ router, addRoutes { interfaces } routes = some router ∧ router.interfaces = interfaces ∧
      RouterTable.Of routes router.table := by
  induction routes using List.reverseRecOn with
  | nil => exact ⟨_, rfl, rfl, .empty⟩
  | append_singleton routes r ih =>
    obtain ⟨before, -, last⟩ := List.pairwise_append.1 order
    obtain ⟨router, run, same, table⟩ := ih (fun r' member => valid r' (by simp [member])) before
    have admits := table.admits (valid r (by simp)) (fun r' member => valid r' (by simp [member]))
      fun r' member => last r' member r (by simp)
    obtain ⟨t', added, table'⟩ := table.addRoute admits
    refine ⟨{ router with table := t' }, ?_, same, table'⟩
    rw [addRoutes] at run ⊢
    rw [List.foldlM_append, run]
    show (router.addRoute r).bind some = _
    rw [Router.addRoute, added]
    rfl

/-- The route with the longest prefix among those that match. -/
structure Best (routes : List Route) (dst : UInt32) (r : Route) : Prop where
  member : r ∈ routes
  holds : r.Matches dst
  longest : ∀ r' ∈ routes, r'.Matches dst → r'.prefixLength ≤ r.prefixLength

/-- The datagram with its time to live decremented goes to the interface of the best route, to its next hop or else to
the destination: the call ends as that of `send_datagram` does. Without a match it returns, and nothing is sent. -/
def Forwards (router : Router) (routes : List Route) (dgram : InternetDatagram) : Prop :=
  (∀ r, Best routes dgram.header.dst r → r.interfaceNum < router.interfaces.length ∧
    router.routeOneDatagram dgram = some (router.sendOn r.interfaceNum
      { dgram with header := { dgram.header with ttl := dgram.header.ttl - 1 } } (r.nextHop.getD dgram.header.dst))) ∧
  ((∀ r ∈ routes, ¬ r.Matches dgram.header.dst) → router.routeOneDatagram dgram = some ⟨router, true⟩)

/-- What is asked of each route: an interface that exists, and a next hop, if any, other than 0.0.0.0. -/
structure Proper (interfaces : Nat) (r : Route) : Prop where
  valid : r.Valid
  interface : r.interfaceNum < interfaces
  nextHop : r.nextHop ≠ some 0

/-- The next hop that is kept as a number is read back. -/
theorem nextHop_eq {hop : Option UInt32} (proper : hop ≠ some 0) (dst : UInt32) :
    (if hop.getD 0 = 0 then dst else hop.getD 0) = hop.getD dst := by
  cases hop with
  | none => rfl
  | some address =>
    have other : address ≠ 0 := fun zero => proper (congrArg some zero)
    exact if_neg other

theorem ttl_pos {ttl : UInt8} (alive : 1 < ttl) : ttl ≠ 0 ∧ ttl - 1 ≠ 0 := by
  have more : 1 < ttl.toNat := UInt8.lt_iff_toNat_lt.1 alive
  have less : (ttl - 1).toNat = ttl.toNat - 1 := UInt8.toNat_sub_of_le ttl 1 (UInt8.le_of_lt alive)
  refine ⟨fun zero => ?_, fun zero => ?_⟩
  · rw [zero] at more
    exact absurd more (by decide)
  · rw [zero] at less
    have : (0 : UInt8).toNat = 0 := rfl
    omega

theorem sendOn_of_some {router : Router} {n : Nat} {i : AsyncNetworkInterface} (place : router.interfaces[n]? = some i)
    (dgram : InternetDatagram) (hop : UInt32) : router.sendOn n dgram hop =
    ⟨{ router with interfaces := router.interfaces.set n (i.sendDatagram dgram hop).left },
      (i.sendDatagram dgram hop).returns⟩ := by
  rw [sendOn, onInterface, place]

theorem queue_sendOn {router : Router} {n : Nat} {dgram : InternetDatagram} {hop : UInt32} (m : Nat) :
    (router.sendOn n dgram hop).left.queue m = router.queue m := by
  cases place : router.interfaces[n]? with
  | none =>
    rw [sendOn, onInterface, place]
  | some i =>
    rw [sendOn_of_some place _ _, queue, queue]
    dsimp only
    rw [List.getElem?_set]
    split
    · rename_i same
      subst same
      rw [place, if_pos (List.getElem?_eq_some_iff.1 place).1]
      rfl
    · rfl

section RouteOne

variable {router : Router} {dgram : InternetDatagram} (alive : 1 < dgram.header.ttl)

include alive

omit router in
theorem aged_of_alive : aged dgram = { dgram with header := { dgram.header with ttl := dgram.header.ttl - 1 } } := by
  rw [aged, if_pos (ttl_pos alive).1]

/-- Past the time to live, `route_one_datagram` sends by the entry it finds. -/
theorem routeOneDatagram_of_some {k : RouteKey} (found : router.table.lookup dgram.header.dst.toNat = some (some k)) :
    router.routeOneDatagram dgram = some (router.sendOn (router.table.value k).interfaceNum
      { dgram with header := { dgram.header with ttl := dgram.header.ttl - 1 } }
      (if (router.table.value k).nextHop = 0 then dgram.header.dst else (router.table.value k).nextHop)) := by
  rw [routeOneDatagram, aged_of_alive alive]
  dsimp only
  rw [if_neg (ttl_pos alive).2, found]
  rfl

theorem routeOneDatagram_of_none (found : router.table.lookup dgram.header.dst.toNat = some none) :
    router.routeOneDatagram dgram = some ⟨router, true⟩ := by
  rw [routeOneDatagram, aged_of_alive alive]
  dsimp only
  rw [if_neg (ttl_pos alive).2, found]
  rfl

end RouteOne

/-- The entry of the best route is the one that covers it. -/
theorem Best.key_eq {routes : List Route} {t : RouterTable} {dst : UInt32} {r : Route} (best : Best routes dst r)
    (valid : ∀ r ∈ routes, r.Valid) (table : RouterTable.Of routes t) {last : Option RouteKey}
    (found : t.Found dst.toNat last) (covers : t.Covers last r.key) : last = some r.key := by
  obtain ⟨s, rfl, longer⟩ := covers
  obtain ⟨member, holds⟩ := found s rfl
  obtain ⟨r', among, rfl⟩ := (table.keys s).1 member
  have shorter := best.longest r' among ((Route.matches_iff (valid r' among) dst).2 holds)
  rw [table.values r best.member, table.values r' among] at longer
  have block := Route.key_isBlock (valid r best.member)
  have block' := Route.key_isBlock (valid r' among)
  rw [show r'.prefixLength = r.prefixLength from Nat.le_antisymm shorter longer] at block'
  rw [block.eq_of_holds block' ((Route.matches_iff (valid r best.member) dst).1 best.holds) holds]

/-- **Longest-prefix match**, for routes added in an order in which no route follows one that it includes. -/
theorem longest_prefix_match (interfaces : List AsyncNetworkInterface) (routes : List Route)
    (proper : ∀ r ∈ routes, Proper interfaces.length r) (order : routes.Pairwise Route.Compatible) :
    ∃ router, addRoutes { interfaces } routes = some router ∧ router.interfaces = interfaces ∧
      ∀ dgram : InternetDatagram, 1 < dgram.header.ttl →
        (dgram.header.dst = 0 → ∀ r ∈ routes, r.routePrefix = 0 → r.prefixLength ≠ 32) →
        router.Forwards routes dgram := by
  obtain ⟨router, run, same, table⟩ := addRoutes_spec interfaces routes (fun r member => (proper r member).valid) order
  have valid : ∀ r ∈ routes, r.Valid := fun r member => (proper r member).valid
  refine ⟨router, run, same, fun dgram alive zero => ?_⟩
  have host : dgram.header.dst.toNat = 0 → (⟨0, 0⟩ : RouteKey) ∉ router.table.keys := by
    intro none member
    obtain ⟨r, among, key⟩ := (table.keys _).1 member
    obtain ⟨first, length⟩ := Route.host_of_key_zero (valid r among) key
    exact zero (UInt32.toNat_inj.1 none) r among first length
  obtain ⟨last, lookup, found, covers⟩ := RouterTable.lookup_spec table.linked host
  have matched : ∀ r ∈ routes, r.Matches dgram.header.dst → router.table.Covers last r.key := fun r member holds =>
    covers r.key ((table.keys r.key).2 ⟨r, member, rfl⟩) ((Route.matches_iff (valid r member) _).1 holds)
  refine ⟨fun r best => ?_, fun nothing => ?_⟩
  · have key := best.key_eq valid table found (matched r best.member best.holds)
    rw [key] at lookup
    refine ⟨same ▸ (proper r best.member).interface, ?_⟩
    rw [routeOneDatagram_of_some alive lookup, table.values r best.member]
    dsimp only
    rw [nextHop_eq (proper r best.member).nextHop]
  · cases last with
    | none => exact routeOneDatagram_of_none alive lookup
    | some s =>
      obtain ⟨member, holds⟩ := found s rfl
      obtain ⟨r, among, rfl⟩ := (table.keys s).1 member
      exact absurd ((Route.matches_iff (valid r among) _).2 holds) (nothing r among)

/-- The interfaces of the routers below. -/
def threeInterfaces : List AsyncNetworkInterface :=
  List.replicate 3 { ethernetAddress := ⟨[2, 0, 0, 0, 1, 0], rfl⟩, ipAddress := 0xc0a80001 }

/-- A default route by a gateway, 10.0.0.0/8 and 10.1.0.0/16, each on its interface. -/
def nestedRoutes : List Route := [
  { routePrefix := 0, prefixLength := 0, nextHop := some 0xc0a800fe, interfaceNum := 0 },
  { routePrefix := 0x0a000000, prefixLength := 8, interfaceNum := 1 },
  { routePrefix := 0x0a010000, prefixLength := 16, interfaceNum := 2 }]

/-- A datagram for 10.1.2.3 takes the third route, which is the best. -/
theorem longest_prefix_match_nested :
    (∀ r ∈ nestedRoutes, Proper 3 r) ∧ nestedRoutes.Pairwise Route.Compatible ∧
      Best nestedRoutes 0x0a010203 { routePrefix := 0x0a010000, prefixLength := 16, interfaceNum := 2 } ∧
      ∃ router, addRoutes { interfaces := threeInterfaces } nestedRoutes = some router ∧
        router.Forwards nestedRoutes { header := { dst := 0x0a010203, len := 20 } } := by
  have proper : ∀ r ∈ nestedRoutes, Proper 3 r := by
    intro r member
    simp only [nestedRoutes, List.mem_cons, List.not_mem_nil, or_false] at member
    rcases member with rfl | rfl | rfl <;> exact ⟨⟨by decide, by decide⟩, by decide, by decide⟩
  have order : nestedRoutes.Pairwise Route.Compatible := by decide +kernel
  have best : Best nestedRoutes 0x0a010203 { routePrefix := 0x0a010000, prefixLength := 16, interfaceNum := 2 } :=
    ⟨by decide, by decide +kernel, by decide +kernel⟩
  obtain ⟨router, run, -, forwards⟩ := longest_prefix_match threeInterfaces nestedRoutes proper order
  exact ⟨proper, order, best, router, run, forwards _ (by decide) (by decide)⟩

/-- The default route, then 10.1.0.0/16, then 10.0.0.0/8, which includes it. -/
def outOfOrder : List Route := [
  { routePrefix := 0, prefixLength := 0, interfaceNum := 0 },
  { routePrefix := 0x0a010000, prefixLength := 16, interfaceNum := 1 },
  { routePrefix := 0x0a000000, prefixLength := 8, interfaceNum := 2 }]

/-- A datagram for 10.2.0.1 is sent by the default route: the link of 10.1.0.0/16 still jumps over 10.0.0.0/8. -/
theorem included_route_first :
    ¬ ∀ (interfaces : List AsyncNetworkInterface) (routes : List Route),
      (∀ r ∈ routes, r.Valid ∧ r.interfaceNum < interfaces.length) →
      routes.Pairwise (fun r r' => ¬ (r.routePrefix = r'.routePrefix ∧ r.prefixLength = r'.prefixLength)) →
      ∃ router, addRoutes { interfaces } routes = some router ∧
        ∀ dgram : InternetDatagram, 1 < dgram.header.ttl → router.Forwards routes dgram := by
  intro claim
  have valid : ∀ r ∈ outOfOrder, r.Valid ∧ r.interfaceNum < threeInterfaces.length := by
    intro r member
    simp only [outOfOrder, List.mem_cons, List.not_mem_nil, or_false] at member
    rcases member with rfl | rfl | rfl <;> exact ⟨⟨by decide, by decide⟩, by decide⟩
  obtain ⟨router, run, forwards⟩ := claim threeInterfaces outOfOrder valid (by decide +kernel)
  have best : Best outOfOrder 0x0a020001 { routePrefix := 0x0a000000, prefixLength := 8, interfaceNum := 2 } :=
    ⟨by decide, by decide +kernel, by decide +kernel⟩
  obtain ⟨-, routed⟩ := (forwards { header := { dst := 0x0a020001, len := 20 } } (by decide)).1 _ best
  -- the request for the next hop's address goes out on the first interface, not on the third
  have actual : ((addRoutes { interfaces := threeInterfaces } outOfOrder).bind fun router =>
      (router.routeOneDatagram { header := { dst := 0x0a020001, len := 20 } }).map fun call =>
        call.left.interfaces.map fun i => i.framesOut.length) = some [1, 0, 0] := by decide +kernel
  have expected : ((addRoutes { interfaces := threeInterfaces } outOfOrder).map fun router =>
      (router.sendOn 2 { header := { dst := 0x0a020001, len := 20, ttl := 127 } } 0x0a020001).left.interfaces.map fun i =>
        i.framesOut.length) = some [0, 0, 1] := by decide +kernel
  rw [run, Option.bind_some, routed, Option.map_some] at actual
  rw [run, Option.map_some] at expected
  cases actual.symm.trans expected

end Router

end Sponge
