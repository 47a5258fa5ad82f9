import Sponge.Logic.Reach
import Sponge.Net.RouteTable

/-!
# The second loop of `add_route`

From an entry after the new one the loop goes to the next that starts at its end
or later. It steps over the entries between or asks `lower_bound` for the end; on
an entry of a single address `lower_bound` finds no later one. Which way it goes
is decided by the logarithm of the new route's size, so this concerns only routes
of length 30 or more (`addRoute_advances_iff`).
-/

namespace Sponge

namespace Route

variable {r : Route}

/-- Where an entry ends. It is before its start only for the length 0 with an address other than 0, and then by one. -/
theorem key_bounds (length : r.prefixLength ≤ 32) : r.key.first ≤ r.key.second + 1 ∧ r.key.second < 2 ^ 32 := by
  have small := r.routePrefix.toNat_lt
  show r.routePrefix.toNat ≤ r.endIndex + 1 ∧ r.endIndex < 2 ^ 32
  by_cases zero : r.prefixLength = 0
  · rw [endIndex, startIndex_zero zero, zero]
    omega
  · have positive := Nat.two_pow_pos (32 - r.prefixLength)
    have split := Nat.div_add_mod r.routePrefix.toNat (2 ^ (32 - r.prefixLength))
    have low := Nat.mod_lt r.routePrefix.toNat positive
    -- the masked start is aligned, so the block from it on ends below 2 ^ 32
    have fits := (block_nested (a := 32) (b := 32 - r.prefixLength) (s := 0) (by simp) ⟨_, startIndex_toNat zero⟩
      (by omega) (by have := r.startIndex.toNat_lt; omega)).2
    have ends : r.endIndex = r.startIndex.toNat + (2 ^ (32 - r.prefixLength) - 1) := Nat.mod_eq_of_lt (by omega)
    rw [startIndex_toNat zero] at ends fits
    omega

theorem logLength_short (valid : r.Valid) (long : 30 ≤ r.prefixLength) :
    r.logLength = if r.prefixLength = 30 then 1 else 0 := by
  have block := key_isBlock valid
  have ends := block.ends
  have order := block.order
  have bound := block.bound
  have length := valid.length
  have size : r.key.size = 2 ^ (32 - r.prefixLength) := by
    have small : 2 ^ (32 - r.prefixLength) ≤ 2 ^ 2 := Nat.pow_le_pow_right (by decide) (by omega)
    unfold RouteKey.size
    omega
  rw [logLength, size]
  obtain thirty | more | more : r.prefixLength = 30 ∨ r.prefixLength = 31 ∨ r.prefixLength = 32 := by omega
  all_goals
    rw [‹r.prefixLength = _›]
    decide

end Route

namespace RouterTable

variable {t t' : RouterTable} {r : Route} {k : RouteKey}

/-! ### The table with the new entry -/

/-- The table after the first loop of `add_route`. -/
def entered (t : RouterTable) (r : Route) : RouterTable :=
  (t.insert r.key ⟨r.interfaceNum, r.nextHop.getD 0, r.prefixLength⟩).linkBack r.key

theorem addRoute_eq : t.addRoute r =
    mergeLoop r.key r.logLength ((t.entered r).keys.length + 1) (t.entered r) ((t.entered r).next r.key) := rfl

theorem keys_linkBack (t : RouterTable) (key : RouteKey) : (t.linkBack key).keys = t.keys := by
  unfold linkBack
  split <;> rfl

theorem keys_entered (t : RouterTable) (r : Route) :
    (t.entered r).keys = if r.key ∈ t.keys then t.keys else insertKey r.key t.keys := by
  rw [entered, keys_linkBack, insert]
  split <;> rfl

theorem mem_entered : k ∈ (t.entered r).keys ↔ k = r.key ∨ k ∈ t.keys := by
  rw [keys_entered]
  split
  · rename_i member
    exact ⟨Or.inr, fun either => either.elim (fun same => same ▸ member) id⟩
  · exact mem_insertKey

theorem sorted_entered (sorted : t.keys.Pairwise (· < ·)) (r : Route) : (t.entered r).keys.Pairwise (· < ·) := by
  rw [keys_entered]
  split
  · exact sorted
  · rename_i fresh
    exact sorted_insertKey sorted fresh

theorem find?_entered {p : RouteKey → Bool} (lacks : p r.key = false) : (t.entered r).keys.find? p = t.keys.find? p := by
  rw [keys_entered]
  split
  · rfl
  · exact find?_insertKey lacks t.keys

theorem next_entered : (t.entered r).next r.key = t.next r.key :=
  find?_entered (decide_eq_false (RouteKey.lt_irrefl r.key))

/-- What holds of every table: the keys are in order, and each ends as `add_route` has computed it. -/
structure Ordered (t : RouterTable) : Prop where
  sorted : t.keys.Pairwise (· < ·)
  bounds : ∀ k ∈ t.keys, k.first ≤ k.second + 1 ∧ k.second < 2 ^ 32

theorem Ordered.entered (h : t.Ordered) (length : r.prefixLength ≤ 32) : (t.entered r).Ordered := by
  refine ⟨sorted_entered h.sorted r, fun k member => ?_⟩
  rcases mem_entered.1 member with rfl | old
  · exact Route.key_bounds length
  · exact h.bounds k old

theorem keys_addRoute (added : t.addRoute r = some t') : t'.keys = (t.entered r).keys := by
  have merged : Merged r.key (fun _ => True) _ (t.entered r) t' :=
    mergeLoop_merged (fun _ _ _ _ _ => trivial) (fun _ _ => trivial) added
  exact merged.keys

theorem Ordered.addRoute (h : t.Ordered) (length : r.prefixLength ≤ 32) (added : t.addRoute r = some t') :
    t'.Ordered := by
  obtain ⟨sorted, bounds⟩ := h.entered length
  rw [← keys_addRoute added] at sorted bounds
  exact ⟨sorted, bounds⟩

/-- The tables that are built by routes of length up to 32, with any host bits. -/
theorem ordered_of_reaches (run : Reaches RouterTable.addRoute (fun _ r => r.prefixLength ≤ 32) {} t) : t.Ordered :=
  run.invariant ⟨.nil, by simp⟩ fun _ _ _ ordered length added => ordered.addRoute length added

/-! ### Going on from an entry -/

theorem following_entered (after : r.key < k) : (t.entered r).following k = t.following k := by
  refine find?_entered ?_
  rw [decide_eq_false (RouteKey.not_lt_of_lt after), Bool.false_and]

theorem following_spec {l : RouteKey} (goes : t.following k = some l) : l ∈ t.keys ∧ k < l := by
  have found := List.find?_some goes
  rw [Bool.and_eq_true, decide_eq_true_eq] at found
  exact ⟨List.mem_of_find?_eq_some goes, found.1⟩

/-- From an entry of a single address `lower_bound` does not go on. -/
theorem skip_stays {log : Nat} (sorted : t.keys.Pairwise (· < ·)) (member : k ∈ t.keys) (bound : k.second < 2 ^ 32)
    (single : k.second ≤ k.first) (jumps : ¬ k.size < log) : ∃ x, t.skip log k = some x ∧ ¬ k < x := by
  have itself : ¬ k < ⟨k.second, 2 ^ 32 - 1⟩ := by
    rw [RouteKey.lt_iff]
    dsimp only
    omega
  rw [skip, if_neg jumps, lowerBound]
  cases found : t.keys.find? fun x => decide ¬ x < ⟨k.second, 2 ^ 32 - 1⟩ with
  | none => exact absurd (decide_eq_true itself) (List.find?_eq_none.1 found k member)
  | some x =>
    refine ⟨x, rfl, ?_⟩
    rcases (find?_least sorted found).2.2 k member (decide_eq_true itself) with rfl | less
    · exact RouteKey.lt_irrefl k
    · exact RouteKey.not_lt_of_lt less

end RouterTable

/-- The loop of a new route does not get past an entry of a single address if the route's length is 30 or more, and past
one that ends before it starts if it is 31 or more. -/
def Route.Stays (r : Route) (k : RouteKey) : Prop :=
  k.first = k.second ∧ 30 ≤ r.prefixLength ∨ k.second < k.first ∧ 31 ≤ r.prefixLength

theorem Route.stays_iff {r : Route} {k : RouteKey} (valid : r.Valid) (bounds : k.first ≤ k.second + 1 ∧ k.second < 2 ^ 32)
    (later : r.key.second < k.second) : r.Stays k ↔ k.second ≤ k.first ∧ ¬ k.size < r.logLength := by
  have size : k.second ≤ k.first → k.size = k.second + 1 - k.first := by
    intro single
    unfold RouteKey.size
    omega
  unfold Stays
  by_cases long : 30 ≤ r.prefixLength
  · rw [logLength_short valid long]
    split <;> omega
  · have some : 1 ≤ r.prefixLength := by
      by_contra none
      have ends := (key_isBlock valid).ends
      rw [show r.prefixLength = 0 by omega] at ends
      omega
    have := two_le_logLength valid some (by omega)
    omega

namespace RouterTable

variable {t t' : RouterTable} {r : Route} {k : RouteKey}

/-! ### The run of the loop -/

/-- The entries that the loop looks at. -/
inductive Visits (t : RouterTable) (key : RouteKey) (log : Nat) : RouteKey → Prop where
  | next {it : RouteKey} (first : t.next key = some it) : Visits t key log it
  | skip {it it' : RouteKey} (before : Visits t key log it) (later : key.second < it.second)
      (goes : t.skip log it = some it') : Visits t key log it'

/-- `add_route` returns, and its second loop goes from each entry to one strictly after it, or to `end()`. -/
structure Advances (t : RouterTable) (r : Route) : Prop where
  ends : ∃ t', t.addRoute r = some t'
  forward : ∀ it it', (t.entered r).Visits r.key r.logLength it → r.key.second < it.second →
    (t.entered r).skip r.logLength it = some it' → it < it'

/-- The entries one after the other from the place of a new one on, each starting at the end of the last or later, as far
as they end after the new one. -/
inductive Ahead (t : RouterTable) (key : RouteKey) : RouteKey → Prop where
  | next {k : RouteKey} (first : t.next key = some k) (later : key.second < k.second) : Ahead t key k
  | following {k l : RouteKey} (before : Ahead t key k) (goes : t.following k = some l) (later : key.second < l.second) :
      Ahead t key l

def Stalls (t : RouterTable) (r : Route) : Prop := ∃ k, t.Ahead r.key k ∧ r.Stays k

section Ahead

variable {key : RouteKey}

theorem Ahead.later (h : t.Ahead key k) : key.second < k.second := by
  cases h with
  | next _ later => exact later
  | following _ _ later => exact later

theorem Ahead.member (h : t.Ahead key k) : k ∈ t.keys := by
  cases h with
  | next first _ => exact List.mem_of_find?_eq_some first
  | following _ goes _ => exact (following_spec goes).1

theorem Ahead.after (h : t.Ahead key k) : key < k := by
  induction h with
  | next first _ =>
    have found := List.find?_some first
    exact of_decide_eq_true found
  | following _ goes _ ih => exact RouteKey.lt_trans ih (following_spec goes).2

end Ahead

/-- From an entry that the loop leaves it goes to the following one. -/
theorem skip_entered (h : t.Ordered) (valid : r.Valid) (ahead : t.Ahead r.key k) (leaves : ¬ r.Stays k) :
    (t.entered r).skip r.logLength k = t.following k := by
  rw [Route.stays_iff valid (h.bounds k ahead.member) ahead.later] at leaves
  rw [← following_entered ahead.after]
  exact skip_eq (fun x inside => ((h.entered valid.length).bounds x inside).2) (by omega)

/-- As long as no entry is met that the loop does not leave, it advances. -/
theorem advances_of_leaves (h : t.Ordered) (valid : r.Valid) (leaves : ∀ k, t.Ahead r.key k → ¬ r.Stays k) :
    t.Advances r := by
  have steps : ∀ k k', (r.key.second < k.second → t.Ahead r.key k) → r.key.second < k.second →
      (t.entered r).skip r.logLength k = some k' →
      k < k' ∧ k' ∈ t.keys ∧ (r.key.second < k'.second → t.Ahead r.key k') := by
    intro k k' ahead later goes
    have here := ahead later
    rw [skip_entered h valid here (leaves k here)] at goes
    exact ⟨(following_spec goes).2, (following_spec goes).1, here.following goes⟩
  have visited : ∀ k, (t.entered r).Visits r.key r.logLength k → r.key.second < k.second → t.Ahead r.key k := by
    intro k visits
    induction visits with
    | next first => exact .next (next_entered.symm.trans first)
    | skip _ later goes ih => exact (steps _ _ ih later goes).2.2
  refine ⟨?_, fun it it' visits later goes => (steps it it' (visited it visits) later goes).1⟩
  rw [addRoute_eq]
  cases first : (t.entered r).next r.key with
  | none => exact ⟨_, rfl⟩
  | some it =>
    have member : it ∈ (t.entered r).keys := List.mem_of_find?_eq_some first
    obtain ⟨i, place⟩ := List.mem_iff_getElem?.1 member
    refine mergeLoop_ends (sorted_entered h.sorted r)
      (fun k (among : k ∈ (t.entered r).keys ∧ (t.entered r).Visits r.key r.logLength k) => among.1)
      (fun k k' among later goes => ?_) ⟨member, .next first⟩ place (by omega)
    obtain ⟨less, inside, -⟩ := steps k k' (visited k among.2) later goes
    exact ⟨⟨mem_entered.2 (Or.inr inside), among.2.skip later goes⟩, less⟩

/-- Where the loop advances it meets the entries ahead, and each is one that it leaves. -/
theorem Advances.leaves (h : t.Ordered) (valid : r.Valid) (advances : t.Advances r) (ahead : t.Ahead r.key k) :
    (t.entered r).Visits r.key r.logLength k ∧ ¬ r.Stays k := by
  have forward : ∀ k, t.Ahead r.key k → (t.entered r).Visits r.key r.logLength k → ¬ r.Stays k := by
    intro k ahead visits stays
    have bounds := h.bounds k ahead.member
    rw [Route.stays_iff valid bounds ahead.later] at stays
    obtain ⟨x, goes, notAfter⟩ := skip_stays (sorted_entered h.sorted r) (mem_entered.2 (Or.inr ahead.member)) bounds.2
      stays.1 stays.2
    exact notAfter (advances.forward k x visits ahead.later goes)
  suffices visits : (t.entered r).Visits r.key r.logLength k from ⟨visits, forward k ahead visits⟩
  induction ahead with
  | next first _ => exact .next (next_entered.trans first)
  | following before goes _ ih =>
    refine .skip ih before.later ?_
    rw [skip_entered h valid before (forward _ before ih)]
    exact goes

/-! ### Routes without host bits

There the condition can be read off the table, and the loop never ends where it is
not met.
-/

/-- An entry of a single address is the first ahead that starts there. -/
theorem Ahead.first_of_single {key p : RouteKey} (sorted : t.keys.Pairwise (· < ·)) (ahead : t.Ahead key k)
    (single : k.first = k.second) (member : p ∈ t.keys) (after : key < p) (same : p.first = k.first) : ¬ p < k := by
  intro less
  cases ahead with
  | next first _ =>
    rcases (find?_least sorted first).2.2 p member (decide_eq_true after) with rfl | more
    · exact RouteKey.lt_irrefl p less
    · exact RouteKey.not_lt_of_lt less more
  | @following m _ before goes _ =>
    obtain ⟨-, found, least⟩ := find?_least sorted goes
    rw [Bool.and_eq_true, decide_eq_true_eq, Bool.not_eq_true', decide_eq_false_iff_not] at found
    by_cases beyond : m < p
    · rcases least p member (by simp [beyond, same, found.2]) with rfl | more
      · exact RouteKey.lt_irrefl p less
      · exact RouteKey.not_lt_of_lt less more
    · have order := found.1
      rw [RouteKey.lt_iff] at beyond order
      omega

/-- From such an entry `lower_bound` goes to that entry again. -/
theorem Ahead.skip_self (h : t.Ordered) (valid : r.Valid) (ahead : t.Ahead r.key k) (single : k.first = k.second)
    (stays : r.Stays k) : (t.entered r).skip r.logLength k = some k := by
  have bounds := h.bounds k ahead.member
  have later := ahead.later
  have order := (Route.key_isBlock valid).order
  rw [Route.stays_iff valid bounds later] at stays
  obtain ⟨x, goes, notAfter⟩ := skip_stays (sorted_entered h.sorted r) (mem_entered.2 (Or.inr ahead.member)) bounds.2
    stays.1 stays.2
  rw [goes]
  rcases RouteKey.lt_trichotomy k x with less | same | more
  · exact absurd less notAfter
  · rw [same]
  · rw [skip, if_neg stays.2] at goes
    obtain ⟨member, found, -⟩ := find?_least (sorted_entered h.sorted r) goes
    have notBefore := of_decide_eq_true found
    have before := more
    rw [RouteKey.lt_iff] at notBefore more
    dsimp only at notBefore
    have after : r.key < x := RouteKey.lt_iff.2 (Or.inl (by omega))
    have old : x ∈ t.keys := (mem_entered.1 member).resolve_left fun same => RouteKey.lt_irrefl x (same ▸ after)
    exact absurd before (ahead.first_of_single h.sorted single old after (by omega))

/-- The loop stays for ever at an entry that it goes to again. -/
theorem mergeLoop_stays {key it : RouteKey} {log : Nat} (later : key.second < it.second)
    (again : t.skip log it = some it) (fuel : Nat) : mergeLoop key log fuel t (some it) = none := by
  induction fuel generalizing t with
  | zero => rfl
  | succ fuel ih =>
    rw [mergeLoop, if_neg (Nat.not_le_of_lt later)]
    have same : (t.setNearest it key).skip log it = some it := again
    rw [same]
    exact ih same

/-- The second loop of `add_route` ends, after however many rounds. -/
def Returns (t : RouterTable) (r : Route) : Prop :=
  ∃ fuel t', mergeLoop r.key r.logLength fuel (t.entered r) ((t.entered r).next r.key) = some t'

theorem skip_congr (same : t'.keys = t.keys) : t'.skip = t.skip := by
  unfold skip lowerBound
  rw [same]

/-- Where the loop would not end from an entry ahead, it does not end. -/
theorem Ahead.never (h : t.Ordered) (valid : r.Valid) (proper : ∀ k ∈ t.keys, k.first ≤ k.second)
    (ahead : t.Ahead r.key k)
    (never : ∀ s, s.keys = (t.entered r).keys → ∀ fuel, mergeLoop r.key r.logLength fuel s (some k) = none) :
    ∀ s, s.keys = (t.entered r).keys → ∀ fuel, mergeLoop r.key r.logLength fuel s (t.next r.key) = none := by
  induction ahead with
  | next first _ =>
    rw [first]
    exact never
  | @following m l before goes _ ih =>
    refine ih fun s same fuel => ?_
    have skips := congrFun (congrFun (skip_congr same) r.logLength) m
    by_cases stays : r.Stays m
    · have order := proper m before.member
      have single : m.first = m.second := by
        unfold Route.Stays at stays
        omega
      exact mergeLoop_stays before.later (skips.trans (before.skip_self h valid single stays)) fuel
    · cases fuel with
      | zero => rfl
      | succ fuel =>
        have on : (s.setNearest m r.key).skip r.logLength m = some l :=
          skips.trans ((skip_entered h valid before stays).trans goes)
        rw [mergeLoop, if_neg (Nat.not_le_of_lt before.later), on]
        exact never (s.setNearest m r.key) same fuel

/-- The keys of routes without host bits. -/
structure Aligned (t : RouterTable) : Prop where
  sorted : t.keys.Pairwise (· < ·)
  blocks : ∀ k ∈ t.keys, ∃ len, k.IsBlock len

theorem Aligned.addRoute (h : t.Aligned) (valid : r.Valid) (added : t.addRoute r = some t') : t'.Aligned := by
  have same := keys_addRoute added
  refine ⟨?_, fun k member => ?_⟩
  · rw [same]
    exact sorted_entered h.sorted r
  · rw [same] at member
    rcases mem_entered.1 member with rfl | old
    · exact ⟨_, Route.key_isBlock valid⟩
    · exact h.blocks k old

theorem aligned_of_reaches (run : Reaches RouterTable.addRoute (fun _ r => r.Valid) {} t) : t.Aligned :=
  run.invariant ⟨.nil, by simp⟩ fun _ _ _ aligned valid added => aligned.addRoute valid added

theorem Aligned.order (h : t.Aligned) : ∀ k ∈ t.keys, k.first ≤ k.second := by
  intro k member
  obtain ⟨_, block⟩ := h.blocks k member
  exact block.order

theorem Aligned.ordered (h : t.Aligned) : t.Ordered := by
  refine ⟨h.sorted, fun k member => ?_⟩
  obtain ⟨_, block⟩ := h.blocks k member
  exact ⟨Nat.le_succ_of_le block.order, block.bound⟩

section Visible

variable {key : RouteKey}

theorem Ahead.visible (h : t.Aligned) (ahead : t.Ahead key k) : t.Visible key k := by
  induction ahead with
  | next first _ => exact visible_next h.sorted first
  | following _ goes _ ih => exact (ih.following h.sorted h.blocks goes).1

/-- A visible entry after one ahead is ahead: that one and those that follow it end before it starts. -/
theorem Ahead.reaches (h : t.Aligned) (visible : t.Visible key k) {m : RouteKey} (ahead : t.Ahead key m) (less : m < k) :
    t.Ahead key k := by
  obtain ⟨j, place⟩ := List.mem_iff_getElem?.1 visible.member
  obtain ⟨i, start⟩ := List.mem_iff_getElem?.1 ahead.member
  -- by induction on the distance of the places of `m` and `k`
  generalize distance : j - i = n
  induction n using Nat.strongRecOn generalizing m i with
  | ind n ih =>
    have clear := visible.clear m ahead.member ahead.after less
    cases goes : t.following m with
    | none =>
      have lacks := List.find?_eq_none.1 goes k visible.member
      simp [less, clear] at lacks
    | some l =>
      obtain ⟨member, found, least⟩ := find?_least h.sorted goes
      rw [Bool.and_eq_true, decide_eq_true_eq, Bool.not_eq_true', decide_eq_false_iff_not] at found
      have order := h.order l member
      have later := ahead.later
      have next : t.Ahead key l := ahead.following goes (by omega)
      rcases least k visible.member (by simp [less, clear]) with same | between
      · rw [same]
        exact next
      · obtain ⟨i', place'⟩ := List.mem_iff_getElem?.1 member
        have up := index_lt_of_rel RouteKey.lt_irrefl (fun _ _ _ => RouteKey.lt_trans) h.sorted start place' found.1
        have down := index_lt_of_rel RouteKey.lt_irrefl (fun _ _ _ => RouteKey.lt_trans) h.sorted place' place between
        exact ih (j - i') (by omega) next between i' place' rfl

/-- What is ahead of a new entry: what is visible from it, unless it includes the next one. -/
theorem ahead_iff (h : t.Aligned) :
    t.Ahead key k ↔ t.Visible key k ∧ ∀ x, t.next key = some x → key.second < x.second := by
  constructor
  · intro ahead
    refine ⟨ahead.visible h, fun x first => ?_⟩
    induction ahead with
    | next is later =>
      cases first.symm.trans is
      exact later
    | following _ _ _ ih => exact ih
  · rintro ⟨visible, later⟩
    cases first : t.next key with
    | none => exact absurd (decide_eq_true visible.after) (List.find?_eq_none.1 first k visible.member)
    | some x =>
      have start : t.Ahead key x := .next first (later x first)
      rcases (find?_least h.sorted first).2.2 k visible.member (decide_eq_true visible.after) with rfl | less
      · exact start
      · exact start.reaches h visible less

end Visible

/-- The new route is of length 30 or more, the entry after it is not included in it, and a host route is visible from
it. -/
theorem stalls_iff (run : Reaches RouterTable.addRoute (fun _ r => r.Valid) {} t) (r : Route) :
    t.Stalls r ↔ 30 ≤ r.prefixLength ∧ (∀ x, t.next r.key = some x → r.key.second < x.second) ∧
      ∃ k, t.Visible r.key k ∧ k.first = k.second := by
  have aligned := aligned_of_reaches run
  constructor
  · rintro ⟨k, ahead, stays⟩
    have order := aligned.order k ahead.member
    obtain ⟨visible, later⟩ := (ahead_iff aligned).1 ahead
    unfold Route.Stays at stays
    exact ⟨by omega, later, k, visible, by omega⟩
  · rintro ⟨long, later, k, visible, single⟩
    exact ⟨k, (ahead_iff aligned).2 ⟨visible, later⟩, Or.inl ⟨single, long⟩⟩

/-- A call that stalls never returns. -/
theorem returns_iff (run : Reaches RouterTable.addRoute (fun _ r => r.Valid) {} t) (valid : r.Valid) :
    t.Returns r ↔ ¬ t.Stalls r := by
  have aligned := aligned_of_reaches run
  constructor
  · rintro ⟨fuel, t', ends⟩ ⟨k, ahead, stays⟩
    have order := aligned.order k ahead.member
    have single : k.first = k.second := by
      unfold Route.Stays at stays
      omega
    have never := ahead.never aligned.ordered valid aligned.order (fun s same fuel =>
      mergeLoop_stays ahead.later
        ((congrFun (congrFun (skip_congr same) _) _).trans (ahead.skip_self aligned.ordered valid single stays)) fuel)
    rw [next_entered, never _ rfl fuel] at ends
    cases ends
  · intro none
    obtain ⟨t', added⟩ := (advances_of_leaves aligned.ordered valid fun k ahead stays => none ⟨k, ahead, stays⟩).ends
    exact ⟨_, t', added⟩

/-- **`add_route` advances** exactly if no entry ahead is one that its second loop does not leave. -/
theorem addRoute_advances_iff (t : RouterTable) (r : Route)
    (run : Reaches RouterTable.addRoute (fun _ r => r.prefixLength ≤ 32) {} t) (valid : r.Valid) :
    t.Advances r ↔ ¬ t.Stalls r := by
  have ordered := ordered_of_reaches run
  constructor
  · rintro advances ⟨k, ahead, stays⟩
    exact (advances.leaves ordered valid ahead).2 stays
  · exact fun none => advances_of_leaves ordered valid fun k ahead stays => none ⟨k, ahead, stays⟩

/-- 10.0.0.5/32, then 10.0.1.0/24. -/
def hostFirst : List Route := [
  { routePrefix := 0x0a000005, prefixLength := 32, interfaceNum := 0 },
  { routePrefix := 0x0a000100, prefixLength := 24, interfaceNum := 0 }]

/-- A route of length 29 before the two gets past the host route, one of length 30 does not. -/
theorem addRoute_advances_iff_host :
    ∃ t, Reaches RouterTable.addRoute (fun _ r => r.prefixLength ≤ 32) {} t ∧ t.keys.length = 2 ∧
      t.Advances { routePrefix := 0x09000000, prefixLength := 29, interfaceNum := 1 } ∧
      ¬ t.Advances { routePrefix := 0x09000000, prefixLength := 30, interfaceNum := 1 } := by
  obtain ⟨t, run, keys⟩ := Option.map_eq_some_iff.1 (show
    (follow RouterTable.addRoute (fun _ r => r.prefixLength ≤ 32) {} hostFirst).map RouterTable.keys =
      some [⟨0x0a000005, 0x0a000005⟩, ⟨0x0a000100, 0x0a0001ff⟩] by decide +kernel)
  have reached := Reaches.start.follow run
  refine ⟨t, reached, by rw [keys]; rfl, ?_, ?_⟩
  · refine (addRoute_advances_iff t _ reached ⟨by decide, by decide⟩).2 ?_
    rintro ⟨k, -, ⟨-, long⟩ | ⟨-, long⟩⟩
    · exact absurd long (by decide)
    · exact absurd long (by decide)
  · rw [addRoute_advances_iff t _ reached ⟨by decide, by decide⟩, not_not]
    refine ⟨⟨0x0a000005, 0x0a000005⟩, .next ?_ (by decide), Or.inl ⟨rfl, by decide⟩⟩
    rw [next, keys]
    decide

/-- After 10.0.0.5/32, the call for 10.0.0.4/32 never returns: `lower_bound` finds the entry of 10.0.0.5 again. -/
theorem host_route_blocks : ¬ ∀ (t : RouterTable) (r : Route),
    Reaches RouterTable.addRoute (fun _ r => r.Valid) {} t → r.Valid → t.Returns r := by
  intro claim
  obtain ⟨t, added, keys⟩ := Option.map_eq_some_iff.1 (show
    (RouterTable.addRoute {} { routePrefix := 0x0a000005, prefixLength := 32, interfaceNum := 0 }).map RouterTable.keys =
      some [⟨0x0a000005, 0x0a000005⟩] by decide +kernel)
  have run : Reaches RouterTable.addRoute (fun _ r => r.Valid) {} t := .step .start ⟨by decide, by decide⟩ added
  have valid : Route.Valid { routePrefix := 0x0a000004, prefixLength := 32, interfaceNum := 0 } := ⟨by decide, by decide⟩
  refine (returns_iff run valid).1 (claim t _ run valid) ?_
  refine ⟨⟨0x0a000005, 0x0a000005⟩, .next ?_ (by decide), Or.inl ⟨rfl, by decide⟩⟩
  rw [next, keys]
  decide

end RouterTable

end Sponge
