import Sponge.Net.MergeLoop
import Sponge.Net.RouteLookup

/-!
# The search along the links

The search of `route_one_datagram` ends at `begin()` if the link of every other
entry leads to an earlier one (`Back`). A new entry gets such a link unless it is
the first, and then the one that was the first is linked to it, but only if it
ends after the new one. So the search fails exactly after a route has been put
before the first entry that includes it (`lookup_reaches_begin`).
-/

namespace Sponge

namespace RouterTable

variable {t t' : RouterTable} {r : Route} {k : RouteKey} {dst : Nat}

/-! ### The search as a walk -/

/-- Where the search goes from a position. -/
def goBack (t : RouterTable) (it : Option RouteKey) (fast : Bool) : Option RouteKey :=
  if fast then it.bind t.nearest else t.before it

/-- The search comes to `begin()`, and each position it comes to is one of the table. -/
inductive Ends (t : RouterTable) (dst : Nat) : Option RouteKey → Bool → Prop where
  | begin {it : Option RouteKey} {fast : Bool} (first : it = t.keys.head?) : Ends t dst it fast
  | step {it : Option RouteKey} {fast : Bool} {k : RouteKey} (notFirst : it ≠ t.keys.head?)
      (goes : t.goBack it fast = some k) (real : k ∈ t.keys)
      (rest : Ends t dst (some k) (fast || decide (k.second ≤ dst))) : Ends t dst it fast

/-- The walk is the run of the loop, for as many rounds as it takes. -/
theorem ends_iff_search {it : Option RouteKey} {fast : Bool} (saved : Option RouteKey)
    (real : ∀ k ∈ t.keys, ∀ l, t.nearest k = some l → l ∈ t.keys) (place : ∀ x, it = some x → x ∈ t.keys) :
    t.Ends dst it fast ↔ ∃ fuel last, t.search dst fuel it fast saved = some last := by
  constructor
  · intro ends
    clear place
    induction ends generalizing saved with
    | begin first => exact ⟨1, saved, if_pos first⟩
    | @step it fast k notFirst goes _ _ ih =>
      obtain ⟨fuel, last, run⟩ := ih (t.save dst saved k)
      refine ⟨fuel + 1, last, ?_⟩
      rw [goBack] at goes
      rw [search, if_neg notFirst, goes]
      exact run
  · rintro ⟨fuel, last, run⟩
    induction fuel generalizing it fast saved with
    | zero => cases run
    | succ fuel ih =>
      rw [search] at run
      split at run
      · rename_i first
        exact .begin first
      · rename_i notFirst
        cases goes : t.goBack it fast with
        | none =>
          rw [goBack] at goes
          rw [goes] at run
          cases run
        | some k =>
          have member : k ∈ t.keys := by
            cases fast with
            | false => exact (List.mem_filter.1 (List.mem_of_getLast? goes)).1
            | true =>
              obtain ⟨x, is, link⟩ := Option.bind_eq_some_iff.1 goes
              exact real x (place x is) k link
          refine .step notFirst goes member (ih (t.save dst saved k) ?_ ?_)
          · rintro _ ⟨⟩
            exact member
          · rw [goBack] at goes
            rw [goes] at run
            exact run

/-- The search for an address ends, with a result. -/
structure Searches (t : RouterTable) (dst : Nat) : Prop where
  ends : t.Ends dst (t.lowerBound ⟨dst, 0⟩) false
  result : ∃ last, t.lookup dst = some last

def Searchable (t : RouterTable) : Prop := ∀ dst : UInt32, t.Searches dst.toNat

/-- The links: every one leads to an entry, and but for the first entry to an earlier one. -/
structure Back (t : RouterTable) : Prop extends Aligned t where
  real : ∀ k ∈ t.keys, ∀ l, t.nearest k = some l → l ∈ t.keys
  back : ∀ k ∈ t.keys, t.keys.head? ≠ some k → ∃ l, t.nearest k = some l ∧ l < k

/-- From a position in the table the search goes to an earlier one. -/
theorem Back.goBack (h : t.Back) {it : Option RouteKey} {fast : Bool} (place : ∀ x, it = some x → x ∈ t.keys)
    (here : fast = true → it ≠ none) (notFirst : it ≠ t.keys.head?) :
    ∃ k, t.goBack it fast = some k ∧ k ∈ t.keys ∧ ∀ x, it = some x → k < x := by
  cases fast with
  | false =>
    obtain ⟨k, prev⟩ := exists_before h.sorted place notFirst
    obtain ⟨member, before, -⟩ := before_spec h.sorted prev
    exact ⟨k, prev, member, before⟩
  | true =>
    obtain ⟨x, rfl⟩ := Option.ne_none_iff_exists'.1 (here rfl)
    have inside := place x rfl
    obtain ⟨l, link, less⟩ := h.back x inside (Ne.symm notFirst)
    refine ⟨l, link, h.real x inside l link, fun y is => ?_⟩
    cases is
    exact less

/-- **The search ends** where the links lead back. -/
theorem Back.search (h : t.Back) {it saved : Option RouteKey} {fast : Bool} {fuel : Nat}
    (place : ∀ x, it = some x → x ∈ t.keys) (here : fast = true → it ≠ none) (enough : t.rank it < fuel) :
    t.Ends dst it fast ∧ ∃ last, t.search dst fuel it fast saved = some last := by
  induction fuel generalizing it fast saved with
  | zero => omega
  | succ fuel ih =>
    rw [RouterTable.search]
    by_cases first : it = t.keys.head?
    · rw [if_pos first]
      exact ⟨.begin first, saved, rfl⟩
    · rw [if_neg first]
      obtain ⟨k, goes, member, before⟩ := h.goBack place here first
      have lower := rank_lt member before
      have inside : ∀ x, some k = some x → x ∈ t.keys := by
        rintro _ ⟨⟩
        exact member
      obtain ⟨rest, found⟩ := ih inside (by simp) (Nat.lt_of_lt_of_le lower (Nat.le_of_lt_succ enough))
      refine ⟨.step first goes member rest, ?_⟩
      rw [RouterTable.goBack] at goes
      rw [goes]
      exact found

theorem Back.searchable (h : t.Back) : t.Searchable := by
  intro dst
  have place : ∀ x, t.lowerBound ⟨dst.toNat, 0⟩ = some x → x ∈ t.keys := fun x => List.mem_of_find?_eq_some
  have bound : t.rank (t.lowerBound ⟨dst.toNat, 0⟩) < 2 * t.keys.length + 2 := by
    have most := List.length_filter_le (fun k => (t.lowerBound ⟨dst.toNat, 0⟩).all fun bound => decide (k < bound)) t.keys
    unfold rank
    omega
  have both : t.Ends dst.toNat _ false ∧ ∃ last, t.search dst.toNat _ _ false none = some last :=
    h.search place (by simp) bound
  exact ⟨both.1, both.2⟩

/-! ### The links of a new entry -/

theorem nearest_entered_of_ne (other : k ≠ r.key) : (t.entered r).nearest k = t.nearest k := by
  have inserted : ∀ value, (t.insert r.key value).nearest k = t.nearest k := by
    intro value
    unfold insert
    split
    · rfl
    · exact Function.update_of_ne other _ _
  unfold entered linkBack
  split
  · exact (Function.update_of_ne other _ _).trans (inserted _)
  · exact inserted _

/-- The link of the new entry: to an earlier one, or else the one it had, or for a new key `begin()`. -/
theorem nearest_entered (t : RouterTable) (r : Route) :
    (∃ l ∈ t.keys, l < r.key ∧ (t.entered r).nearest r.key = some l) ∨
      (t.entered r).nearest r.key = if r.key ∈ t.keys then t.nearest r.key else t.keys.head? := by
  have inserted : ∀ value, (t.insert r.key value).nearest r.key =
      if r.key ∈ t.keys then t.nearest r.key else t.keys.head? := by
    intro value
    unfold insert
    split
    · rfl
    · exact Function.update_self _ _ _
  have member : ∀ k ∈ (t.insert r.key ⟨r.interfaceNum, r.nextHop.getD 0, r.prefixLength⟩).keys, k ≠ r.key → k ∈ t.keys := by
    intro k inside other
    rw [← keys_linkBack _ r.key] at inside
    exact (mem_entered.1 inside).resolve_left other
  unfold entered linkBack
  split
  · rename_i it found
    have among := List.mem_filter.1 (List.mem_of_getLast? found)
    rw [Bool.and_eq_true, decide_eq_true_eq, decide_eq_true_eq] at among
    refine Or.inl ⟨it, member it among.1 fun same => ?_, among.2.1, Function.update_self _ _ _⟩
    rw [same] at among
    exact RouteKey.lt_irrefl r.key among.2.1
  · exact Or.inr (inserted _)

/-- The second loop links only entries after the new one to it. -/
theorem merged_addRoute (valid : r.Valid) (added : t.addRoute r = some t') :
    Merged r.key (fun k => r.key < k) (t.next r.key) (t.entered r) t' := by
  rw [addRoute_eq, next_entered] at added
  have order := (Route.key_isBlock valid).order
  refine mergeLoop_merged (fun k k' after later goes => ?_) (fun k first => ?_) added
  · rw [skip] at goes
    split at goes
    · have found := List.find?_some goes
      rw [Bool.and_eq_true, decide_eq_true_eq] at found
      exact RouteKey.lt_trans after found.1
    · have found := List.find?_some goes
      rw [decide_eq_true_eq, RouteKey.lt_iff] at found
      rw [RouteKey.lt_iff]
      dsimp only at found
      omega
  · have found := List.find?_some first
    exact of_decide_eq_true found

/-- The route comes before the first entry and includes it. -/
def Hides (t : RouterTable) (r : Route) : Prop := ∃ b, t.keys.head? = some b ∧ r.key < b ∧ b.second ≤ r.key.second

/-- The first entry changes only to a new one before it. -/
theorem lt_of_head_ne (sorted : t.keys.Pairwise (· < ·)) (first : t.keys.head? = some k)
    (notFirst : (t.entered r).keys.head? ≠ some k) : r.key < k := by
  rw [keys_entered] at notFirst
  split at notFirst
  · exact absurd first notFirst
  · rename_i fresh
    exact lt_of_head_insertKey sorted fresh first notFirst

/-- The link of an entry that the second loop has not changed. -/
theorem Back.nearest_entered (h : t.Back) {l : RouteKey} (member : k ∈ (t.entered r).keys)
    (link : (t.entered r).nearest k = some l) : l ∈ t.keys := by
  by_cases new : k = r.key
  · subst new
    rcases RouterTable.nearest_entered t r with ⟨l', inside, -, linked⟩ | kept
    · cases linked.symm.trans link
      exact inside
    · rw [link] at kept
      split at kept
      · rename_i old
        exact h.real r.key old l kept.symm
      · exact List.mem_of_head? kept.symm
  · rw [nearest_entered_of_ne new] at link
    exact h.real k ((mem_entered.1 member).resolve_left new) l link

/-- The link leads back, but for the first entry and the one that was the first. -/
theorem Back.back_entered (h : t.Back) (member : k ∈ (t.entered r).keys) (notFirst : (t.entered r).keys.head? ≠ some k)
    (old : t.keys.head? ≠ some k) : ∃ l, (t.entered r).nearest k = some l ∧ l < k := by
  by_cases new : k = r.key
  · subst new
    rcases RouterTable.nearest_entered t r with ⟨l, -, less, linked⟩ | kept
    · exact ⟨l, linked, less⟩
    · rw [kept]
      rw [keys_entered] at notFirst
      split
      · rename_i inside
        exact h.back r.key inside old
      · rename_i fresh
        rw [if_neg fresh] at notFirst
        obtain ⟨b, first, -, less⟩ := head_insertKey.resolve_left notFirst
        exact ⟨b, first, less⟩
  · rw [nearest_entered_of_ne new]
    exact h.back k ((mem_entered.1 member).resolve_left new) old

/-- **A new route** keeps the links leading back, unless it hides the first entry. -/
theorem Back.addRoute (h : t.Back) (valid : r.Valid) (shows : ¬ t.Hides r) (added : t.addRoute r = some t') : t'.Back := by
  have merged := merged_addRoute valid added
  refine ⟨h.toAligned.addRoute valid added, ?_, ?_⟩
  · rw [merged.keys]
    intro k member l link
    rcases merged.nearest k with same | ⟨linked, -⟩
    · rw [same] at link
      exact mem_entered.2 (Or.inr (h.nearest_entered member link))
    · cases linked.symm.trans link
      exact mem_entered.2 (Or.inl rfl)
  · rw [merged.keys]
    intro k member notFirst
    by_cases old : t.keys.head? = some k
    · -- the loop starts from the entry that was the first, which ends after the new one
      have less := lt_of_head_ne h.sorted old notFirst
      have later : r.key.second < k.second := Nat.lt_of_not_le fun ends => shows ⟨k, old, less, ends⟩
      exact ⟨r.key, merged.first k (next_of_head old less) later, less⟩
    · rcases merged.nearest k with same | ⟨linked, after⟩
      · rw [same]
        exact h.back_entered member notFirst old
      · exact ⟨r.key, linked, after⟩

/-! ### A hidden entry -/

/-- The fast search does not come to `begin()` from entries whose links do not lead there. -/
theorem not_ends {inside : RouteKey → Prop} (closed : ∀ k, inside k → ∀ l, t.nearest k = some l → inside l)
    (others : ∀ k, inside k → t.keys.head? ≠ some k) (here : inside k) : ¬ t.Ends dst (some k) true := by
  intro ends
  generalize position : some k = it at ends
  generalize mode : true = fast at ends
  induction ends generalizing k with
  | begin first => exact others k here (position.trans first).symm
  | step _ goes _ _ ih =>
    subst position mode
    exact ih (closed k here _ goes) rfl (by simp)

section Hidden

variable {b : RouteKey} (first : t.keys.head? = some b) (less : r.key < b)

include first less

theorem fresh_of_lt_head (sorted : t.keys.Pairwise (· < ·)) : r.key ∉ t.keys := by
  intro member
  rcases head?_least sorted first r.key member with same | more
  · exact RouteKey.lt_irrefl b (same ▸ less)
  · exact RouteKey.not_lt_of_lt less more

theorem head_entered (sorted : t.keys.Pairwise (· < ·)) : (t.entered r).keys.head? = some r.key := by
  rw [keys_entered, if_neg (fresh_of_lt_head first less sorted)]
  refine head_insertKey.resolve_right ?_
  rintro ⟨b', old, -, more⟩
  cases first.symm.trans old
  exact RouteKey.not_lt_of_lt less more

/-- The search for 255.255.255.255 goes by the links from the last entry on. -/
theorem last_of_ends (aligned : (t.entered r).Aligned) (ends : (t.entered r).Searchable) :
    ∃ k ∈ t.keys, (t.entered r).Ends (2 ^ 32 - 1) (some k) true := by
  have all : (t.entered r).lowerBound ⟨2 ^ 32 - 1, 0⟩ = none := by
    refine List.find?_eq_none.2 fun x inside => ?_
    obtain ⟨_, block⟩ := aligned.blocks x inside
    have order := block.order
    have bound := block.bound
    rw [decide_eq_true_eq, not_not, RouteKey.lt_iff]
    dsimp only
    omega
  have walk : (t.entered r).Ends (2 ^ 32 - 1) ((t.entered r).lowerBound ⟨2 ^ 32 - 1, 0⟩) false := (ends 0xffffffff).ends
  rw [all] at walk
  have old : b ∈ (t.entered r).keys := mem_entered.2 (Or.inr (List.mem_of_head? first))
  cases walk with
  | begin none => exact absurd old (by rw [List.head?_eq_none_iff.1 none.symm]; simp)
  | @step _ _ k _ goes real rest =>
    obtain ⟨_, block⟩ := aligned.blocks k real
    have bound := block.bound
    rw [Bool.false_or, decide_eq_true (by omega)] at rest
    refine ⟨k, (mem_entered.1 real).resolve_left fun same => ?_, rest⟩
    rcases (before_spec aligned.sorted goes).2.2 b old (by simp) with is | before
    · exact RouteKey.lt_irrefl b (is.trans same ▸ less)
    · exact RouteKey.not_lt_of_lt less (same ▸ before)

end Hidden

/-- After a route that hides the first entry there is a search that does not end. -/
theorem Back.not_searchable (h : t.Back) (valid : r.Valid) (hides : t.Hides r) (added : t.addRoute r = some t') :
    ¬ t'.Searchable := by
  obtain ⟨b, first, less, covers⟩ := hides
  have aligned := h.toAligned.addRoute valid added
  -- the second loop stops at once, so no link is changed
  rw [addRoute_eq, next_entered, next_of_head first less, mergeLoop, if_pos covers] at added
  cases added
  intro searchable
  obtain ⟨k, member, ends⟩ := last_of_ends first less aligned searchable
  refine not_ends (fun k inside l link => ?_) (fun k inside head => ?_) member ends
  · exact h.nearest_entered (mem_entered.2 (Or.inr inside)) link
  · cases (head_entered first less h.sorted).symm.trans head
    exact fresh_of_lt_head first less h.sorted inside

theorem back_of_reaches (run : Reaches RouterTable.addRoute (fun t r => r.Valid ∧ ¬ t.Hides r) {} t) : t.Back :=
  run.invariant ⟨⟨.nil, by simp⟩, by simp, by simp⟩ fun _ _ _ back ok added => back.addRoute ok.1 ok.2 added

/-- **The search ends at `begin()`** on entries of the table, as long as no route has hidden the first entry, and no
longer. -/
theorem lookup_reaches_begin (t : RouterTable)
    (run : Reaches RouterTable.addRoute (fun t r => r.Valid ∧ ¬ t.Hides r) {} t) :
    t.Searchable ∧ ∀ r t', r.Valid → t.addRoute r = some t' → (t'.Searchable ↔ ¬ t.Hides r) := by
  have back := back_of_reaches run
  refine ⟨back.searchable, fun r t' valid added => ⟨fun searchable hides => ?_, fun shows => ?_⟩⟩
  · exact back.not_searchable valid hides added searchable
  · exact (back.addRoute valid shows added).searchable

instance (t : RouterTable) (r : Route) : Decidable (t.Hides r) :=
  decidable_of_iff (t.keys.head?.any fun b => decide (r.key < b ∧ b.second ≤ r.key.second)) (by
    simp [Hides, Option.any_eq_true])

instance (r : Route) : Decidable r.Valid :=
  decidable_of_iff (r.prefixLength ≤ 32 ∧ 2 ^ (32 - r.prefixLength) ∣ r.routePrefix.toNat)
    ⟨fun h => ⟨h.1, h.2⟩, fun h => ⟨h.length, h.aligned⟩⟩

/-- 20.0.0.0/8, then 10.0.0.0/8. -/
def twoNetworks : List Route := [
  { routePrefix := 0x14000000, prefixLength := 8, interfaceNum := 0 },
  { routePrefix := 0x0a000000, prefixLength := 8, interfaceNum := 1 }]

/-- With these two every search ends, and so it does with 9.0.0.0/8 too, but not with the default route. -/
theorem lookup_reaches_begin_networks :
    ∃ t, follow RouterTable.addRoute (fun t r => r.Valid ∧ ¬ t.Hides r) {} twoNetworks = some t ∧ t.Searchable ∧
      (∃ t', t.addRoute { routePrefix := 0x09000000, prefixLength := 8, interfaceNum := 2 } = some t' ∧ t'.Searchable) ∧
      ∃ t', t.addRoute { routePrefix := 0, prefixLength := 0, interfaceNum := 2 } = some t' ∧ ¬ t'.Searchable := by
  obtain ⟨t, run, seen⟩ := Option.map_eq_some_iff.1 (show
    (follow RouterTable.addRoute (fun t r => r.Valid ∧ ¬ t.Hides r) {} twoNetworks).map (fun t =>
      (t.keys, (t.addRoute { routePrefix := 0x09000000, prefixLength := 8, interfaceNum := 2 }).isSome,
        (t.addRoute { routePrefix := 0, prefixLength := 0, interfaceNum := 2 }).isSome)) =
      some ([⟨0x0a000000, 0x0affffff⟩, ⟨0x14000000, 0x14ffffff⟩], true, true) by decide +kernel)
  simp only [Prod.mk.injEq] at seen
  obtain ⟨keys, below, default⟩ := seen
  obtain ⟨before, added⟩ := Option.isSome_iff_exists.1 below
  obtain ⟨after, added'⟩ := Option.isSome_iff_exists.1 default
  obtain ⟨ends, exact⟩ := lookup_reaches_begin t (Reaches.start.follow run)
  refine ⟨t, run, ends, ⟨before, added, (exact _ _ (by decide) added).2 ?_⟩, after, added', fun ends' => ?_⟩
  · rintro ⟨b, first, -, covers⟩
    rw [keys] at first
    cases first
    exact absurd covers (by decide)
  · refine (exact _ _ (by decide) added').1 ends' ⟨⟨0x0a000000, 0x0affffff⟩, ?_, by decide, by decide⟩
    rw [keys]
    rfl

/-- The default route after 10.0.0.0/8: the link of 10.0.0.0/8 is the `end()` of the empty table. -/
theorem default_route_last : ¬ ∀ t : RouterTable, Reaches RouterTable.addRoute (fun _ r => r.Valid) {} t → t.Searchable := by
  intro claim
  obtain ⟨t, added, seen⟩ := Option.map_eq_some_iff.1 (show
    (RouterTable.addRoute {} { routePrefix := 0x0a000000, prefixLength := 8, interfaceNum := 0 }).map (fun t =>
      (t.keys, (t.addRoute { routePrefix := 0, prefixLength := 0, interfaceNum := 1 }).isSome)) =
      some ([⟨0x0a000000, 0x0affffff⟩], true) by decide +kernel)
  simp only [Prod.mk.injEq] at seen
  obtain ⟨t', added'⟩ := Option.isSome_iff_exists.1 seen.2
  have run : Reaches RouterTable.addRoute (fun _ r => r.Valid) {} t := .step .start (by decide) added
  have back : t.Back := back_of_reaches (.step .start (by decide) added)
  refine back.not_searchable (by decide) ⟨⟨0x0a000000, 0x0affffff⟩, ?_, by decide, by decide⟩ added'
    (claim t' (run.step (by decide) added'))
  rw [seen.1]
  rfl

end RouterTable

end Sponge
