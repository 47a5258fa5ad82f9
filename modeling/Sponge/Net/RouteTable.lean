import Sponge.Logic.Cursor
import Sponge.Logic.Dyadic
import Sponge.Net.Router

/-!
# The links of the router's table

A prefix is a dyadic block of addresses, so two entries are nested or apart. The
search needs of the link of an entry only that it does not jump over an entry
that ends after it (`Linked`). `add_route` keeps that as long as no route is
added after one that it includes, and ends as long as no route of length 30 or
more is added below a host route (`addRoute_linked`).
-/

namespace Sponge

namespace RouteKey

variable {k l m : RouteKey}

theorem lt_irrefl (k : RouteKey) : ¬ k < k := by
  rw [lt_iff]
  omega

theorem lt_trans (first : k < l) (second : l < m) : k < m := by
  rw [lt_iff] at *
  omega

theorem lt_trichotomy (k l : RouteKey) : k < l ∨ k = l ∨ l < k := by
  rw [lt_iff, lt_iff]
  by_cases first : k.first = l.first
  · by_cases second : k.second = l.second
    · exact Or.inr (Or.inl (by cases k; cases l; simp_all))
    · omega
  · omega

theorem not_lt_of_lt (h : k < l) : ¬ l < k := fun other => lt_irrefl k (lt_trans h other)

/-- The key of a prefix of length `len`. -/
structure IsBlock (k : RouteKey) (len : Nat) : Prop where
  length : len ≤ 32
  aligned : 2 ^ (32 - len) ∣ k.first
  ends : k.second + 1 = k.first + 2 ^ (32 - len)
  bound : k.second < 2 ^ 32

theorem IsBlock.order {len : Nat} (h : k.IsBlock len) : k.first ≤ k.second := by
  have ends := h.ends
  have positive := Nat.two_pow_pos (32 - len)
  omega

/-- An entry that starts in an earlier one is nested in it, and its prefix is no shorter. -/
theorem IsBlock.nested {a b : Nat} (left : k.IsBlock a) (right : l.IsBlock b) (order : k < l) (meets : l.first ≤ k.second) :
    l.second ≤ k.second ∧ a ≤ b := by
  have leftEnds := left.ends
  have rightEnds := right.ends
  have before : k.first < l.first ∨ k.first = l.first ∧ 32 - b ≤ 32 - a := by
    rw [lt_iff] at order
    refine order.imp_right fun ⟨same, longer⟩ => ⟨same, ?_⟩
    by_contra short
    have smaller : 2 ^ (32 - a) < 2 ^ (32 - b) := Nat.pow_lt_pow_right (by decide) (by omega)
    omega
  obtain ⟨exponents, inside⟩ := block_nested left.aligned right.aligned before (by omega)
  have := left.length
  have := right.length
  exact ⟨by omega, by omega⟩

end RouteKey

namespace Route

/-- A route as `add_route` is meant to be called: the host bits are zero. -/
structure Valid (r : Route) : Prop where
  length : r.prefixLength ≤ 32
  aligned : 2 ^ (32 - r.prefixLength) ∣ r.routePrefix.toNat

/-- Unless the length is 0, the low bits are masked. -/
theorem startIndex_toNat {r : Route} (some : r.prefixLength ≠ 0) :
    r.startIndex.toNat = 2 ^ (32 - r.prefixLength) * (r.routePrefix.toNat / 2 ^ (32 - r.prefixLength)) := by
  have word : 32 - r.prefixLength < UInt32.size := by
    simp only [UInt32.size]
    omega
  rw [startIndex, if_neg some, UInt32.toNat_and, UInt32.toNat_shiftLeft, UInt32.toNat_ofNat_of_lt' word,
    show (32 - r.prefixLength) % 32 = 32 - r.prefixLength from Nat.mod_eq_of_lt (by omega)]
  exact land_mask r.routePrefix.toNat_lt

theorem startIndex_zero {r : Route} (zero : r.prefixLength = 0) : r.startIndex = r.routePrefix := by
  rw [startIndex, if_pos zero]
  exact UInt32.and_neg_one

theorem startIndex_eq {r : Route} (valid : r.Valid) : r.startIndex = r.routePrefix := by
  by_cases zero : r.prefixLength = 0
  · exact startIndex_zero zero
  · rw [← UInt32.toNat_inj, startIndex_toNat zero]
    exact Nat.mul_div_cancel' valid.aligned

theorem key_isBlock {r : Route} (valid : r.Valid) : r.key.IsBlock r.prefixLength := by
  have small := r.routePrefix.toNat_lt
  have positive := Nat.two_pow_pos (32 - r.prefixLength)
  have fits : r.routePrefix.toNat + 2 ^ (32 - r.prefixLength) ≤ 0 + 2 ^ 32 :=
    (block_nested (a := 32) (b := 32 - r.prefixLength) (by simp) valid.aligned (by omega) (by omega)).2
  have ends : r.key.second = r.routePrefix.toNat + (2 ^ (32 - r.prefixLength) - 1) := by
    rw [key, endIndex, startIndex_eq valid]
    exact Nat.mod_eq_of_lt (by omega)
  refine ⟨valid.length, valid.aligned, ?_, ?_⟩
  · rw [ends]
    show _ = r.routePrefix.toNat + _
    omega
  · rw [ends]
    omega

/-- The second loop of `add_route` leaves host routes behind step by step, unless the new route is of length 30 or
more. -/
theorem two_le_logLength {r : Route} (valid : r.Valid) (some : 1 ≤ r.prefixLength) (large : r.prefixLength < 30) :
    2 ≤ r.logLength := by
  have block := key_isBlock valid
  have ends := block.ends
  have order := block.order
  have bound := block.bound
  have low : 2 ^ 3 ≤ 2 ^ (32 - r.prefixLength) := Nat.pow_le_pow_right (by decide) (by omega)
  have high : 2 ^ (32 - r.prefixLength) ≤ 2 ^ 31 := Nat.pow_le_pow_right (by decide) (by omega)
  have size : r.key.size = 2 ^ (32 - r.prefixLength) := by
    unfold RouteKey.size
    omega
  rw [logLength, size]
  simp only [expCeilings, List.filter_cons, show 3 ≤ 2 ^ (32 - r.prefixLength) by omega,
    show 8 ≤ 2 ^ (32 - r.prefixLength) by omega, decide_true, if_true, List.length_cons]
  exact Nat.le_add_left 2 _

end Route

namespace RouterTable

/-- A link of an entry: it goes back, but not past an entry that ends later. -/
def LinksTo (t : RouterTable) (k l : RouteKey) : Prop :=
  l ∈ t.keys ∧ l < k ∧ ∀ p ∈ t.keys, p < k → k.second < p.second → p = l ∨ p < l

/-- The invariant: the keys are in order and are prefixes, and each but the first is linked. -/
structure Linked (t : RouterTable) : Prop where
  sorted : t.keys.Pairwise (· < ·)
  blocks : ∀ k ∈ t.keys, k.IsBlock (t.value k).prefixLength
  links : ∀ k ∈ t.keys, t.keys.head? ≠ some k → ∃ l, t.nearest k = some l ∧ t.LinksTo k l

/-! ### The new key -/

section Insert

variable {key k : RouteKey} {keys : List RouteKey}

@[simp] theorem mem_insertKey : k ∈ insertKey key keys ↔ k = key ∨ k ∈ keys := by
  induction keys with
  | nil => simp [insertKey]
  | cons x rest ih =>
    rw [insertKey]
    split
    · simp only [List.mem_cons, ih, or_left_comm]
    · simp

theorem sorted_insertKey (sorted : keys.Pairwise (· < ·)) (fresh : key ∉ keys) : (insertKey key keys).Pairwise (· < ·) := by
  induction keys with
  | nil => simp [insertKey]
  | cons x rest ih =>
    obtain ⟨least, sorted⟩ := List.pairwise_cons.1 sorted
    rw [List.mem_cons, not_or] at fresh
    rw [insertKey]
    split
    · rename_i before
      refine List.pairwise_cons.2 ⟨fun y member => ?_, ih sorted fresh.2⟩
      rcases mem_insertKey.1 member with rfl | member
      · exact before
      · exact least y member
    · rename_i notBefore
      have after : key < x := ((RouteKey.lt_trichotomy key x).resolve_right fun
        | .inl same => fresh.1 same
        | .inr before => notBefore before)
      refine List.pairwise_cons.2 ⟨fun y member => ?_, List.pairwise_cons.2 ⟨least, sorted⟩⟩
      rcases List.mem_cons.1 member with rfl | member
      · exact after
      · exact RouteKey.lt_trans after (least y member)

/-- The first key stays the first, or the new one is. -/
theorem head_insertKey : (insertKey key keys).head? = some key ∨
    ∃ b, keys.head? = some b ∧ (insertKey key keys).head? = some b ∧ b < key := by
  cases keys with
  | nil => exact Or.inl rfl
  | cons x rest =>
    rw [insertKey]
    split
    · rename_i before
      exact Or.inr ⟨x, rfl, rfl, before⟩
    · exact Or.inl rfl

/-- The first key changes only to a new one before it. -/
theorem lt_of_head_insertKey (sorted : keys.Pairwise (· < ·)) (fresh : key ∉ keys) (first : keys.head? = some k)
    (notFirst : (insertKey key keys).head? ≠ some k) : key < k := by
  rcases head_insertKey with own | ⟨b, old, same, -⟩
  · have member := List.mem_of_head? first
    refine (head?_least (sorted_insertKey sorted fresh) own k (mem_insertKey.2 (Or.inr member))).resolve_left ?_
    exact fun same => fresh (same ▸ member)
  · cases first.symm.trans old
    exact absurd same notFirst

/-- The new key is not found where it is not looked for. -/
theorem find?_insertKey {p : RouteKey → Bool} (lacks : p key = false) (keys : List RouteKey) :
    (insertKey key keys).find? p = keys.find? p := by
  induction keys with
  | nil => simp [insertKey, lacks]
  | cons x rest ih =>
    rw [insertKey]
    split
    · rw [List.find?_cons, List.find?_cons, ih]
    · rw [List.find?_cons, lacks]

theorem next_of_head {t : RouterTable} (first : t.keys.head? = some k) (less : key < k) : t.next key = some k := by
  obtain ⟨rest, split⟩ := List.head?_eq_some_iff.1 first
  rw [next, split]
  exact List.find?_cons_of_pos (decide_eq_true less)

end Insert

/-! ### The second loop of `add_route` -/

section Merge

variable {t : RouterTable} {key : RouteKey} {log : Nat}

/-- Both ways to go on lead to the next entry that starts at the end of `k` or later, unless the entry of `k` is a
single address and left by `lower_bound`. -/
theorem skip_eq {k : RouteKey} (bound : ∀ x ∈ t.keys, x.second < 2 ^ 32) (long : ¬ k.size < log → k.first < k.second) :
    t.skip log k = t.keys.find? fun x => decide (k < x) && !decide (x.first < k.second) := by
  unfold skip
  split
  · rfl
  · rename_i jumps
    have more := long jumps
    rw [lowerBound, ← List.head?_filter, ← List.head?_filter]
    refine congrArg List.head? (List.filter_congr fun x inside => ?_)
    have small := bound x inside
    rw [Bool.eq_iff_iff, Bool.and_eq_true, Bool.not_eq_true', decide_eq_true_eq, decide_eq_true_eq,
      decide_eq_false_iff_not, RouteKey.lt_iff, RouteKey.lt_iff]
    dsimp only
    omega

/-- What the loop finds: the entries after the new one are apart from it, and from each it goes to the next that starts
at its end or later. -/
structure Mergeable (t : RouterTable) (key : RouteKey) (log : Nat) : Prop where
  sorted : t.keys.Pairwise (· < ·)
  blocks : ∀ k ∈ t.keys, k.IsBlock (t.value k).prefixLength
  apart : ∀ k ∈ t.keys, key < k → key.second < k.first
  skips : ∀ k ∈ t.keys, key < k → t.skip log k = t.keys.find? fun x => decide (k < x) && !decide (x.first < k.second)

/-- An entry after the new one with nothing between them that reaches into it. -/
structure Visible (t : RouterTable) (key k : RouteKey) : Prop where
  member : k ∈ t.keys
  after : key < k
  clear : ∀ p ∈ t.keys, key < p → p < k → p.second ≤ k.first

/-- What the loop leaves: only links of visible entries are changed, to the new one. -/
structure Relinks (key : RouteKey) (t t' : RouterTable) : Prop where
  keys : t'.keys = t.keys
  value : t'.value = t.value
  nearest : ∀ k, t'.nearest k = t.nearest k ∨ t'.nearest k = some key ∧ t.Visible key k

/-- The next entry that starts at the end of `k` or later. -/
def following (t : RouterTable) (k : RouteKey) : Option RouteKey :=
  t.keys.find? fun x => decide (k < x) && !decide (x.first < k.second)

/-- Where the loop goes from a visible entry is visible. -/
theorem Visible.following (sorted : t.keys.Pairwise (· < ·)) (blocks : ∀ k ∈ t.keys, ∃ len, k.IsBlock len)
    {it it' : RouteKey} (visible : t.Visible key it) (next : t.following it = some it') :
    t.Visible key it' ∧ it < it' := by
  obtain ⟨member, found, least⟩ := find?_least sorted next
  rw [Bool.and_eq_true, decide_eq_true_eq, Bool.not_eq_true', decide_eq_false_iff_not, Nat.not_lt] at found
  obtain ⟨after, beyond⟩ := found
  obtain ⟨_, block⟩ := blocks it visible.member
  refine ⟨⟨member, RouteKey.lt_trans visible.after after, fun p inside afterKey before => ?_⟩, after⟩
  have order := block.order
  rcases RouteKey.lt_trichotomy p it with early | rfl | late
  · have := visible.clear p inside afterKey early
    omega
  · exact beyond
  · -- the loop has passed over `p`, so `p` starts inside `it` and is nested in it
    by_cases starts : p.first < it.second
    · obtain ⟨_, block'⟩ := blocks p inside
      have nested := (block.nested block' late (by omega)).1
      omega
    · rcases least p inside (by simp [late, starts]) with rfl | between
      · exact absurd before (RouteKey.lt_irrefl p)
      · exact absurd before (RouteKey.not_lt_of_lt between)

theorem Visible.skip (h : t.Mergeable key log) {it it' : RouteKey} (visible : t.Visible key it)
    (next : t.skip log it = some it') : t.Visible key it' ∧ it < it' := by
  rw [h.skips it visible.member visible.after] at next
  exact visible.following h.sorted (fun k member => ⟨_, h.blocks k member⟩) next

/-- **The loop ends** if from each entry it visits it goes to a later one. -/
theorem mergeLoop_ends (sorted : t.keys.Pairwise (· < ·)) {visited : RouteKey → Prop}
    (inside : ∀ k, visited k → k ∈ t.keys)
    (ahead : ∀ k k', visited k → key.second < k.second → t.skip log k = some k' → visited k' ∧ k < k')
    {it : RouteKey} (start : visited it) {i fuel : Nat} (place : t.keys[i]? = some it) (enough : t.keys.length < fuel + i) :
    ∃ t', mergeLoop key log fuel t (some it) = some t' := by
  have within := (List.getElem?_eq_some_iff.1 place).1
  induction fuel generalizing t it i with
  | zero => omega
  | succ fuel ih =>
    rw [mergeLoop]
    split
    · exact ⟨t, rfl⟩
    · rename_i later
      cases next : (t.setNearest it key).skip log it with
      | none =>
        obtain ⟨fuel, rfl⟩ : ∃ n, fuel = n + 1 := ⟨fuel - 1, by omega⟩
        exact ⟨_, rfl⟩
      | some it' =>
        obtain ⟨start', after⟩ := ahead it it' start (Nat.lt_of_not_le later) next
        obtain ⟨j, place'⟩ := List.mem_iff_getElem?.1 (inside it' start')
        have order := index_lt_of_rel RouteKey.lt_irrefl (fun _ _ _ => RouteKey.lt_trans) sorted place place' after
        exact ih (t := t.setNearest it key) sorted inside ahead start' place'
          (show t.keys.length < fuel + j by omega) (List.getElem?_eq_some_iff.1 place').1

/-- What the loop leaves: of the entries it may visit, some are linked to the new one, among them the first if that ends
after it. -/
structure Merged (key : RouteKey) (visited : RouteKey → Prop) (it : Option RouteKey) (t t' : RouterTable) : Prop where
  keys : t'.keys = t.keys
  value : t'.value = t.value
  nearest : ∀ k, t'.nearest k = t.nearest k ∨ t'.nearest k = some key ∧ visited k
  first : ∀ k, it = some k → key.second < k.second → t'.nearest k = some key

theorem mergeLoop_merged {visited : RouteKey → Prop}
    (closed : ∀ k k', visited k → key.second < k.second → t.skip log k = some k' → visited k') {it : Option RouteKey}
    (start : ∀ k, it = some k → visited k) {fuel : Nat} {t' : RouterTable} (run : mergeLoop key log fuel t it = some t') :
    Merged key visited it t t' := by
  induction fuel generalizing t it with
  | zero => cases run
  | succ fuel ih =>
    cases it with
    | none =>
      cases run
      exact ⟨rfl, rfl, fun _ => Or.inl rfl, by simp⟩
    | some it =>
      rw [mergeLoop] at run
      split at run
      · rename_i ends
        cases run
        refine ⟨rfl, rfl, fun _ => Or.inl rfl, fun k is later => ?_⟩
        cases is
        omega
      · rename_i later
        have rest := ih (t := t.setNearest it key) closed
          (fun k' next => closed it k' (start it rfl) (Nat.lt_of_not_le later) next) run
        have here : t'.nearest it = some key := by
          rcases rest.nearest it with same | ⟨now, -⟩
          · exact same.trans (Function.update_self _ _ _)
          · exact now
        refine ⟨rest.keys, rest.value, fun k => ?_, fun k is _ => ?_⟩
        · by_cases own : k = it
          · subst own
            exact Or.inr ⟨here, start k rfl⟩
          · refine (rest.nearest k).imp_left fun same => same.trans ?_
            exact Function.update_of_ne own _ _
        · cases is
          exact here

/-- The loop from an entry visible from the new one ends, and relinks, among others, that entry. -/
theorem mergeLoop_spec (h : t.Mergeable key log) {it : RouteKey} (visible : t.Visible key it) {i fuel : Nat}
    (place : t.keys[i]? = some it) (enough : t.keys.length < fuel + i) :
    ∃ t', mergeLoop key log fuel t (some it) = some t' ∧ Relinks key t t' ∧ t'.nearest it = some key := by
  have goes : ∀ k k', t.Visible key k → key.second < k.second → t.skip log k = some k' → t.Visible key k' ∧ k < k' :=
    fun _ _ visible _ next => visible.skip h next
  obtain ⟨t', run⟩ := mergeLoop_ends h.sorted (fun _ visible => visible.member) goes visible place enough
  have merged : Merged key (t.Visible key) (some it) t t' := by
    refine mergeLoop_merged (fun k k' before later next => (goes k k' before later next).1) (fun k is => ?_) run
    cases is
    exact visible
  have apart := h.apart it visible.member visible.after
  have order := (h.blocks it visible.member).order
  exact ⟨t', run, ⟨merged.keys, merged.value, merged.nearest⟩, merged.first it rfl (by omega)⟩

end Merge

/-! ### Adding a route -/

/-- What is asked of a new route: it includes no entry, and if it is of length 30 or more it is not below a host
route. -/
structure Admits (t : RouterTable) (r : Route) : Prop where
  valid : r.Valid
  includes : ∀ k ∈ t.keys, ¬ (r.key.first ≤ k.first ∧ k.second ≤ r.key.second)
  hosts : 30 ≤ r.prefixLength → ∀ k ∈ t.keys, (t.value k).prefixLength = 32 → k.first ≤ r.key.first

section Add

variable {t : RouterTable} {r : Route} {value : RouteValue}

/-- The entries after a new route are apart from it. -/
theorem Admits.apart (h : t.Linked) (admits : t.Admits r) {k : RouteKey} (member : k ∈ t.keys) (after : r.key < k) :
    r.key.second < k.first := by
  by_contra meets
  have nested := (Route.key_isBlock admits.valid).nested (h.blocks k member) after (by omega)
  rw [RouteKey.lt_iff] at after
  exact admits.includes k member ⟨by omega, nested.1⟩

theorem Admits.fresh (admits : t.Admits r) : r.key ∉ t.keys :=
  fun member => admits.includes r.key member ⟨Nat.le_refl _, Nat.le_refl _⟩

/-- From a host route after the new one the second loop goes on step by step. -/
theorem Admits.long (h : t.Linked) (admits : t.Admits r) {k : RouteKey} (member : k ∈ t.keys) (after : r.key < k)
    (long : ¬ k.size < r.logLength) : k.first < k.second := by
  have apart := admits.apart h member after
  have block := h.blocks k member
  have own := Route.key_isBlock admits.valid
  have order := own.order
  by_contra host
  have single : k.first = k.second := Nat.le_antisymm block.order (Nat.le_of_not_lt host)
  have ends := block.ends
  have length : (t.value k).prefixLength = 32 := by
    have := block.length
    by_contra shorter
    have two : 2 ^ 1 ≤ 2 ^ (32 - (t.value k).prefixLength) := Nat.pow_le_pow_right (by decide) (by omega)
    omega
  have size : k.size = 1 := by
    have := block.bound
    unfold RouteKey.size
    omega
  by_cases some : 1 ≤ r.prefixLength
  · by_cases large : r.prefixLength < 30
    · have := Route.two_le_logLength admits.valid some large
      omega
    · have := admits.hosts (by omega) k member length
      omega
  · -- the default route ends with the last address
    have ends := own.ends
    rw [show r.prefixLength = 0 by omega] at ends
    have := block.bound
    omega

/-- Both ways to go on lead to the next entry that starts at the end of `k` or later. -/
theorem Admits.skip (h : t.Linked) (admits : t.Admits r) {t' : RouterTable} (same : t'.keys = insertKey r.key t.keys)
    {k : RouteKey} (member : k ∈ t.keys) (after : r.key < k) :
    t'.skip r.logLength k = t'.keys.find? fun x => decide (k < x) && !decide (x.first < k.second) := by
  refine skip_eq (fun x inside => ?_) (admits.long h member after)
  rw [same, mem_insertKey] at inside
  rcases inside with rfl | inside
  · exact (Route.key_isBlock admits.valid).bound
  · exact (h.blocks x inside).bound

/-- The table of the second loop: the new entry is in, with a link. -/
structure Inserted (t : RouterTable) (key : RouteKey) (value : RouteValue) (t' : RouterTable) : Prop where
  keys : t'.keys = insertKey key t.keys
  value : t'.value = Function.update t.value key value
  others : ∀ k, k ≠ key → t'.nearest k = t.nearest k
  own : (∃ l, t'.nearest key = some l ∧ t.LinksTo key l) ∨
    t'.nearest key = t.keys.head? ∧ ∀ p ∈ t.keys, p < key → ¬ key.second < p.second

theorem inserted_linkBack {key : RouteKey} (sorted : t.keys.Pairwise (· < ·)) (fresh : key ∉ t.keys) :
    t.Inserted key value ((t.insert key value).linkBack key) := by
  have order := sorted_insertKey sorted fresh
  unfold insert
  rw [if_neg fresh]
  unfold linkBack
  dsimp only
  split
  · rename_i it found
    obtain ⟨member, holds, greatest⟩ := getLast?_filter_greatest order found
    rw [Bool.and_eq_true, decide_eq_true_eq, decide_eq_true_eq] at holds
    have old : it ∈ t.keys := (mem_insertKey.1 member).resolve_left fun same => RouteKey.lt_irrefl key (same ▸ holds.1)
    refine ⟨rfl, rfl, fun k other => ?_, Or.inl ⟨it, Function.update_self _ _ _, old, holds.1, ?_⟩⟩
    · exact (Function.update_of_ne other _ _).trans (Function.update_of_ne other _ _)
    · exact fun p inside before ends => greatest p (mem_insertKey.2 (Or.inr inside)) (by simp [before, ends])
  · rename_i none
    rw [getLast?_filter_eq_none] at none
    refine ⟨rfl, rfl, fun k other => Function.update_of_ne other _ _, Or.inr ⟨Function.update_self _ _ _, ?_⟩⟩
    intro p inside before ends
    have lacks := none p (mem_insertKey.2 (Or.inr inside))
    simp [before, ends] at lacks

/-- The entry after the new one, if there is one, is visible from it. -/
theorem visible_next {t' : RouterTable} {key it : RouteKey} (sorted : t'.keys.Pairwise (· < ·))
    (next : t'.next key = some it) :
    t'.Visible key it := by
  obtain ⟨member, after, least⟩ := find?_least sorted next
  refine ⟨member, of_decide_eq_true after, fun p inside afterKey before => ?_⟩
  rcases least p inside (decide_eq_true afterKey) with rfl | later
  · exact absurd before (RouteKey.lt_irrefl p)
  · exact absurd before (RouteKey.not_lt_of_lt later)

theorem Admits.blocks (h : t.Linked) (admits : t.Admits r) {t' : RouterTable} (inserted : t.Inserted r.key value t')
    (length : value.prefixLength = r.prefixLength) : ∀ k ∈ t'.keys, k.IsBlock (t'.value k).prefixLength := by
  intro k member
  rw [inserted.value]
  by_cases new : k = r.key
  · rw [new, Function.update_self, length]
    exact Route.key_isBlock admits.valid
  · rw [Function.update_of_ne new]
    rw [inserted.keys, mem_insertKey] at member
    exact h.blocks k (member.resolve_left new)

/-- The second loop, from the table with the new entry in. -/
theorem Admits.merge (h : t.Linked) (admits : t.Admits r) {t' : RouterTable} (inserted : t.Inserted r.key value t')
    (length : value.prefixLength = r.prefixLength) :
    ∃ t'', mergeLoop r.key r.logLength (t'.keys.length + 1) t' (t'.next r.key) = some t'' ∧ Relinks r.key t' t'' ∧
      ∀ it, t'.next r.key = some it → t''.nearest it = some r.key := by
  have sorted : t'.keys.Pairwise (· < ·) := by
    rw [inserted.keys]
    exact sorted_insertKey h.sorted admits.fresh
  have old : ∀ k ∈ t'.keys, r.key < k → k ∈ t.keys := by
    intro k member after
    rw [inserted.keys, mem_insertKey] at member
    exact member.resolve_left fun same => RouteKey.lt_irrefl k (same ▸ after)
  have mergeable : t'.Mergeable r.key r.logLength := by
    refine ⟨sorted, admits.blocks h inserted length, fun k member after => ?_, fun k member after => ?_⟩
    · exact admits.apart h (old k member after) after
    · exact admits.skip h inserted.keys (old k member after) after
  cases next : t'.next r.key with
  | none => exact ⟨t', rfl, ⟨rfl, rfl, fun _ => Or.inl rfl⟩, nofun⟩
  | some it =>
    have visible := visible_next sorted next
    obtain ⟨i, place⟩ := List.mem_iff_getElem?.1 visible.member
    obtain ⟨t'', run, relinks, linked⟩ := mergeLoop_spec mergeable visible place
      (show t'.keys.length < t'.keys.length + 1 + i by omega)
    refine ⟨t'', run, relinks, fun k is => ?_⟩
    cases is
    exact linked

theorem Visible.linksTo {key k : RouteKey} {len : Nat} (visible : t.Visible key k) (member : key ∈ t.keys)
    (block : k.IsBlock len) : t.LinksTo k key := by
  refine ⟨member, visible.after, fun p inside before ends => ?_⟩
  rcases RouteKey.lt_trichotomy p key with early | same | late
  · exact Or.inr early
  · exact Or.inl same
  · have clear := visible.clear p inside late before
    have order := block.order
    omega

/-- The link of the new entry, unless that is the first. -/
theorem Inserted.linksTo_own {t' : RouterTable} {key : RouteKey} (inserted : t.Inserted key value t')
    (notFirst : t'.keys.head? ≠ some key) : ∃ l, t'.nearest key = some l ∧ t'.LinksTo key l := by
  have old : ∀ p ∈ t'.keys, p < key → p ∈ t.keys := by
    intro p inside before
    rw [inserted.keys, mem_insertKey] at inside
    exact inside.resolve_left fun same => RouteKey.lt_irrefl p (same ▸ before)
  rcases inserted.own with ⟨l, link, member, before, greatest⟩ | ⟨link, nothing⟩
  · refine ⟨l, link, ?_, before, fun p inside less => greatest p (old p inside less) less⟩
    rw [inserted.keys]
    exact mem_insertKey.2 (Or.inr member)
  · rw [inserted.keys] at notFirst
    obtain ⟨b, head, -, before⟩ := head_insertKey.resolve_left notFirst
    refine ⟨b, link.trans head, ?_, before, fun p inside less ends => absurd ends (nothing p (old p inside less) less)⟩
    rw [inserted.keys]
    exact mem_insertKey.2 (Or.inr (List.mem_of_head? head))

/-- The link of an old entry that was not the first. -/
theorem Admits.linksTo_old (h : t.Linked) (admits : t.Admits r) {t' : RouterTable} (inserted : t.Inserted r.key value t')
    {k l : RouteKey} (member : k ∈ t.keys) (old : t.LinksTo k l) : t'.LinksTo k l := by
  obtain ⟨inside, before, past⟩ := old
  rw [LinksTo, inserted.keys]
  refine ⟨mem_insertKey.2 (Or.inr inside), before, fun p among less ends => ?_⟩
  rcases mem_insertKey.1 among with rfl | among
  · have apart := admits.apart h member less
    have order := (h.blocks k member).order
    omega
  · exact past p among less ends

/-- Where the new entry has become the first, the loop starts from the one that was. -/
theorem Inserted.next_eq {t' : RouterTable} {key k : RouteKey} (sorted : t.keys.Pairwise (· < ·)) (fresh : key ∉ t.keys)
    (inserted : t.Inserted key value t') (first : t.keys.head? = some k) (notFirst : t'.keys.head? ≠ some k) :
    t'.next key = some k := by
  rw [inserted.keys] at notFirst
  rw [next, inserted.keys, find?_insertKey (decide_eq_false (RouteKey.lt_irrefl key))]
  exact next_of_head first (lt_of_head_insertKey sorted fresh first notFirst)

/-- The links after the second loop, but for the first entry. -/
theorem Admits.links (h : t.Linked) (admits : t.Admits r) {t' t'' : RouterTable} (inserted : t.Inserted r.key value t')
    (length : value.prefixLength = r.prefixLength) (relinks : Relinks r.key t' t'')
    (first : ∀ it, t'.next r.key = some it → t''.nearest it = some r.key) {k : RouteKey} (member : k ∈ t'.keys)
    (notFirst : t'.keys.head? ≠ some k) : ∃ l, t''.nearest k = some l ∧ t'.LinksTo k l := by
  have block := admits.blocks h inserted length k member
  have own : r.key ∈ t'.keys := by
    rw [inserted.keys]
    exact mem_insertKey.2 (Or.inl rfl)
  have sorted : t'.keys.Pairwise (· < ·) := by
    rw [inserted.keys]
    exact sorted_insertKey h.sorted admits.fresh
  rcases relinks.nearest k with same | ⟨linked, visible⟩
  · rw [same]
    by_cases new : k = r.key
    · subst new
      exact inserted.linksTo_own notFirst
    · rw [inserted.keys, mem_insertKey] at member
      have old := member.resolve_left new
      by_cases head : t.keys.head? = some k
      · have next := inserted.next_eq h.sorted admits.fresh head notFirst
        rw [← same]
        exact ⟨r.key, first k next, (visible_next sorted next).linksTo own block⟩
      · obtain ⟨l, link, links⟩ := h.links k old head
        exact ⟨l, (inserted.others k new).trans link, admits.linksTo_old h inserted old links⟩
  · exact ⟨r.key, linked, visible.linksTo own block⟩

/-- **`add_route`** ends and keeps the links, for a route that the table admits. -/
theorem addRoute_linked (h : t.Linked) (admits : t.Admits r) :
    ∃ t', t.addRoute r = some t' ∧ t'.Linked ∧ (∀ k, k ∈ t'.keys ↔ k = r.key ∨ k ∈ t.keys) ∧
      t'.value = Function.update t.value r.key ⟨r.interfaceNum, r.nextHop.getD 0, r.prefixLength⟩ := by
  have inserted : t.Inserted r.key ⟨r.interfaceNum, r.nextHop.getD 0, r.prefixLength⟩ _ :=
    inserted_linkBack h.sorted admits.fresh
  obtain ⟨t', run, relinks, first⟩ := admits.merge h inserted rfl
  refine ⟨t', run, ⟨?_, ?_, ?_⟩, fun k => ?_, relinks.value.trans inserted.value⟩
  · rw [relinks.keys, inserted.keys]
    exact sorted_insertKey h.sorted admits.fresh
  · rw [relinks.keys, relinks.value]
    exact admits.blocks h inserted rfl
  · rw [relinks.keys]
    intro k member notFirst
    obtain ⟨l, link, links⟩ := admits.links h inserted rfl relinks first member notFirst
    refine ⟨l, link, ?_⟩
    rw [LinksTo, relinks.keys]
    exact links
  · rw [relinks.keys, inserted.keys, mem_insertKey]

end Add

end RouterTable

end Sponge
