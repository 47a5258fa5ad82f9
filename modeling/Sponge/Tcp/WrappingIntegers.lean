import Sponge.Logic.Word

/-!
# 32-bit sequence numbers (`wrapping_integers.hh`, `wrapping_integers.cc`)

`wrap` sends an absolute sequence number to its 32-bit relative form, `unwrap`
goes back to the absolute number near a checkpoint. `unwrap` is the source's
case analysis on the two raw values, in 32-bit and 64-bit unsigned arithmetic.
`unwrap_wrap` is the fact every other module uses: a number less than `2 ^ 31`
away from the checkpoint is read back exactly. `unwrap_cases` says all of
`unwrap` in terms of the distance ahead of the checkpoint; that the result is
the closest number (`unwrap_closest`) and how far it depends on the initial
number (`unwrap_shift_iff`) are read off it.
-/

namespace Sponge

/-- The number of 32-bit words. -/
abbrev word32 : Nat := 2 ^ 32

/-- `UINT32_MAX`. -/
abbrev uint32Max : Nat := 2 ^ 32 - 1

/-- `WrappingInt32`. -/
structure WrappingInt32 where
  rawValue : Nat
  bound : rawValue < word32
  deriving DecidableEq

namespace WrappingInt32

/-- The truncation to 32 bits on construction. -/
def ofNat (n : Nat) : WrappingInt32 := ⟨n % word32, Nat.mod_lt _ (by decide)⟩

/-- `operator+(WrappingInt32, uint32_t)`. -/
def add (a : WrappingInt32) (b : Nat) : WrappingInt32 := ofNat (a.rawValue + b)

/-- `operator-(WrappingInt32, uint32_t)`, which is `a + -b` on 32 bits. -/
def sub (a : WrappingInt32) (b : Nat) : WrappingInt32 := ofNat (word32 - b % word32 + a.rawValue)

theorem ext_raw {a b : WrappingInt32} (same : a.rawValue = b.rawValue) : a = b := by
  cases a
  cases b
  simpa using same

@[simp] theorem rawValue_ofNat (n : Nat) : (ofNat n).rawValue = n % word32 := rfl

@[simp] theorem rawValue_add (a : WrappingInt32) (b : Nat) :
    (a.add b).rawValue = (a.rawValue + b) % word32 := rfl

theorem add_sub_one (a : WrappingInt32) : (a.add 1).sub 1 = a := by
  apply ext_raw
  have bound := a.bound
  simp only [sub, rawValue_add, rawValue_ofNat, word32] at *
  omega

end WrappingInt32

/-- `wrap`: the low 32 bits of the absolute number plus the initial one. -/
def wrap (n : Nat) (isn : WrappingInt32) : WrappingInt32 :=
  .ofNat (n % word32 + isn.rawValue)

/-- `UINT32_MAX + 1 - offset`, on 32 bits. -/
def complement32 (offset : Nat) : Nat := (word32 - offset % word32) % word32

/-- `unwrap`. -/
def unwrap (n isn : WrappingInt32) (checkpoint : Nat) : Nat :=
  let nn := n.rawValue
  let cn := (wrap checkpoint isn).rawValue
  let cnIsLarge := decide (nn ≤ cn)
  let offset := if cnIsLarge then cn - nn else nn - cn
  let ofLargeHalf := decide (uint32Max / 2 < offset)
  let backward := (!cnIsLarge && ofLargeHalf) || (cnIsLarge && !ofLargeHalf)
  if backward then
    if checkpoint ≤ uint32Max / 2 ∧
        ((ofLargeHalf = true ∧ uint32Max < sub64 checkpoint (complement32 offset)) ∨
          (ofLargeHalf = false ∧ uint32Max < sub64 checkpoint offset)) then
      -- not enough room to go back
      if cn ≤ nn then add64 checkpoint offset else add64 checkpoint (complement32 offset)
    else if ofLargeHalf then sub64 checkpoint (complement32 offset) else sub64 checkpoint offset
  else if ofLargeHalf then add64 checkpoint (complement32 offset) else add64 checkpoint offset

theorem wrap_rawValue (n : Nat) (isn : WrappingInt32) :
    (wrap n isn).rawValue = (n + isn.rawValue) % word32 := by
  simp only [wrap, WrappingInt32.rawValue_ofNat, Nat.mod_add_mod]

theorem wrap_add (n k : Nat) (isn : WrappingInt32) : (wrap n isn).add k = wrap (n + k) isn := by
  apply WrappingInt32.ext_raw
  rw [WrappingInt32.rawValue_add, wrap_rawValue, wrap_rawValue, Nat.mod_add_mod, Nat.add_right_comm]

/-- A number and its 64-bit word wrap to the same number. -/
theorem wrap_word (n : Nat) (isn : WrappingInt32) : wrap (n % word64) isn = wrap n isn := by
  simp only [wrap, word64, word32, Nat.mod_mod_of_dvd n (by decide : 2 ^ 32 ∣ 2 ^ 64)]

/-- The number before the one that wraps to `seqno`. -/
theorem wrap_succ_sub_one (n : Nat) (isn : WrappingInt32) : (wrap (n + 1) isn).sub 1 = wrap n isn := by
  rw [← wrap_add, WrappingInt32.add_sub_one]

@[simp] theorem wrap_zero (isn : WrappingInt32) : wrap 0 isn = isn := by
  apply WrappingInt32.ext_raw
  rw [wrap_rawValue, Nat.zero_add, Nat.mod_eq_of_lt isn.bound]

theorem complement32_eq {offset : Nat} (positive : 0 < offset) (fits : offset < word32) :
    complement32 offset = word32 - offset := by
  simp only [complement32, word32] at *
  omega

/-- Going back by `offset` where there is room for it. -/
theorem back_room {checkpoint offset : Nat} (room : offset ≤ checkpoint) (fits : checkpoint < word64) :
    ¬ (checkpoint ≤ uint32Max / 2 ∧ uint32Max < sub64 checkpoint offset) := by
  rw [sub64_eq room fits]
  simp only [uint32Max]
  omega

/-- Going back by at most `2 ^ 31` past zero is noticed: the 64-bit difference wraps to a large number. -/
theorem back_no_room {checkpoint offset : Nat} (short : checkpoint < offset) (half : offset ≤ 2 ^ 31) :
    checkpoint ≤ uint32Max / 2 ∧ uint32Max < sub64 checkpoint offset := by
  simp only [uint32Max, sub64, word64]
  omega

section Branches

variable {n isn : WrappingInt32} {checkpoint : Nat}

theorem unwrap_forward (order : (wrap checkpoint isn).rawValue < n.rawValue)
    (half : n.rawValue - (wrap checkpoint isn).rawValue < 2 ^ 31) :
    unwrap n isn checkpoint = add64 checkpoint (n.rawValue - (wrap checkpoint isn).rawValue) := by
  have strict : ¬ n.rawValue ≤ (wrap checkpoint isn).rawValue := by omega
  have small : ¬ uint32Max / 2 < n.rawValue - (wrap checkpoint isn).rawValue := by simp only [uint32Max]; omega
  simp [unwrap, strict, small]

theorem unwrap_forward_round (order : n.rawValue ≤ (wrap checkpoint isn).rawValue)
    (half : 2 ^ 31 ≤ (wrap checkpoint isn).rawValue - n.rawValue) :
    unwrap n isn checkpoint = add64 checkpoint (complement32 ((wrap checkpoint isn).rawValue - n.rawValue)) := by
  have large : uint32Max / 2 < (wrap checkpoint isn).rawValue - n.rawValue := by simp only [uint32Max]; omega
  simp [unwrap, order, large]

theorem unwrap_back (order : n.rawValue ≤ (wrap checkpoint isn).rawValue)
    (half : (wrap checkpoint isn).rawValue - n.rawValue < 2 ^ 31) (fits : checkpoint < word64) :
    unwrap n isn checkpoint =
      if (wrap checkpoint isn).rawValue - n.rawValue ≤ checkpoint then
        checkpoint - ((wrap checkpoint isn).rawValue - n.rawValue)
      else add64 checkpoint (complement32 ((wrap checkpoint isn).rawValue - n.rawValue)) := by
  have small : ¬ uint32Max / 2 < (wrap checkpoint isn).rawValue - n.rawValue := by simp only [uint32Max]; omega
  split_ifs with room
  · rw [← sub64_eq room fits]
    have stays := back_room room fits
    simp [unwrap, order, small, stays]
  · have short := back_no_room (Nat.lt_of_not_le room) half.le
    have strict : ¬ (wrap checkpoint isn).rawValue ≤ n.rawValue := by omega
    simp [unwrap, order, small, short, strict]

theorem unwrap_back_round (order : (wrap checkpoint isn).rawValue < n.rawValue)
    (half : 2 ^ 31 ≤ n.rawValue - (wrap checkpoint isn).rawValue) (fits : checkpoint < word64) :
    unwrap n isn checkpoint =
      if complement32 (n.rawValue - (wrap checkpoint isn).rawValue) ≤ checkpoint then
        checkpoint - complement32 (n.rawValue - (wrap checkpoint isn).rawValue)
      else add64 checkpoint (n.rawValue - (wrap checkpoint isn).rawValue) := by
  have strict : ¬ n.rawValue ≤ (wrap checkpoint isn).rawValue := by omega
  have large : uint32Max / 2 < n.rawValue - (wrap checkpoint isn).rawValue := by simp only [uint32Max]; omega
  have bound := n.bound
  have upper : complement32 (n.rawValue - (wrap checkpoint isn).rawValue) ≤ 2 ^ 31 := by
    rw [complement32_eq (by omega) (by omega)]
    simp only [word32]
    omega
  split_ifs with room
  · rw [← sub64_eq room fits]
    have stays := back_room room fits
    simp [unwrap, strict, large, stays]
  · have short := back_no_room (Nat.lt_of_not_le room) upper
    simp [unwrap, strict, large, short, order.le]

end Branches

/-- How far ahead of the checkpoint the next absolute number of `n` is. -/
def ahead (n isn : WrappingInt32) (checkpoint : Nat) : Nat :=
  (word32 - (wrap checkpoint isn).rawValue + n.rawValue) % word32

/-- When the number of `n` is read one round before the one ahead: that number is not negative, and it is closer, or
as close while the raw value of `n` is in the upper half. -/
def Behind (n isn : WrappingInt32) (checkpoint : Nat) : Prop :=
  word32 ≤ checkpoint + ahead n isn checkpoint ∧
    (2 ^ 31 < ahead n isn checkpoint ∨ ahead n isn checkpoint = 2 ^ 31 ∧ 2 ^ 31 ≤ n.rawValue)

theorem ahead_of_lt {n isn : WrappingInt32} {checkpoint : Nat} (order : (wrap checkpoint isn).rawValue < n.rawValue) :
    ahead n isn checkpoint = n.rawValue - (wrap checkpoint isn).rawValue := by
  have bound := n.bound
  simp only [ahead, word32] at *
  omega

theorem ahead_of_le {n isn : WrappingInt32} {checkpoint : Nat} (order : n.rawValue ≤ (wrap checkpoint isn).rawValue) :
    ahead n isn checkpoint = complement32 ((wrap checkpoint isn).rawValue - n.rawValue) := by
  have bound := (wrap checkpoint isn).bound
  simp only [ahead, complement32, word32] at *
  omega

/-- The whole of `unwrap`: the number ahead of the checkpoint, or the one a round before it. -/
theorem unwrap_cases (n isn : WrappingInt32) {checkpoint : Nat} (fits : checkpoint < word64) :
    Behind n isn checkpoint ∧ unwrap n isn checkpoint = checkpoint + ahead n isn checkpoint - word32 ∨
      ¬ Behind n isn checkpoint ∧ unwrap n isn checkpoint = add64 checkpoint (ahead n isn checkpoint) := by
  unfold Behind
  rcases Nat.lt_or_ge (wrap checkpoint isn).rawValue n.rawValue with order | order
  · have bound := n.bound
    rw [ahead_of_lt order]
    rcases Nat.lt_or_ge (n.rawValue - (wrap checkpoint isn).rawValue) (2 ^ 31) with half | half
    · rw [unwrap_forward order half]
      exact Or.inr ⟨by omega, rfl⟩
    · rw [unwrap_back_round order half fits, complement32_eq (by omega) (by omega)]
      simp only [word32] at *
      split_ifs <;> omega
  · have bound := (wrap checkpoint isn).bound
    rw [ahead_of_le order]
    rcases Nat.lt_or_ge ((wrap checkpoint isn).rawValue - n.rawValue) (2 ^ 31) with half | half
    · rw [unwrap_back order half fits]
      rcases Nat.eq_zero_or_pos ((wrap checkpoint isn).rawValue - n.rawValue) with same | positive
      · rw [same]
        simp [complement32, add64, Nat.mod_eq_of_lt fits]
      · rw [complement32_eq positive (by omega)]
        simp only [word32] at *
        split_ifs <;> omega
    · rw [unwrap_forward_round order half, complement32_eq (by omega) (by omega)]
      refine Or.inr ⟨?_, rfl⟩
      simp only [word32] at *
      omega

/-- The absolute numbers of `n` are those a whole number of rounds away from the one ahead. -/
theorem wrap_eq_iff (r : Nat) (n isn : WrappingInt32) (checkpoint : Nat) :
    wrap r isn = n ↔ r % word32 = (checkpoint + ahead n isn checkpoint) % word32 := by
  have nBound := n.bound
  have isnBound := isn.bound
  have same : wrap r isn = n ↔ (wrap r isn).rawValue = n.rawValue :=
    ⟨fun equal => by rw [equal], WrappingInt32.ext_raw⟩
  rw [same, ahead, wrap_rawValue, wrap_rawValue]
  simp only [word32] at *
  omega

theorem ahead_lt (n isn : WrappingInt32) (checkpoint : Nat) : ahead n isn checkpoint < word32 :=
  Nat.mod_lt _ (by decide)

/-- Reading `v` back gives `v` if it is less than `2 ^ 31` away from the checkpoint, and near the start, where there is
nothing to go back to, if it is a number of the first round. -/
theorem unwrap_wrap_nearest {v checkpoint : Nat} (isn : WrappingInt32) (fits : v < word64)
    (checkpointFits : checkpoint < word64)
    (near : (v < checkpoint + 2 ^ 31 ∧ checkpoint < v + 2 ^ 31) ∨ (v < 2 ^ 32 ∧ checkpoint < 2 ^ 31)) :
    unwrap (wrap v isn) isn checkpoint = v := by
  have bound := ahead_lt (wrap v isn) isn checkpoint
  have round := (wrap_eq_iff v (wrap v isn) isn checkpoint).1 rfl
  have read := unwrap_cases (wrap v isn) isn checkpointFits
  simp only [Behind, word32, word64, add64] at *
  omega

theorem unwrap_wrap {v checkpoint : Nat} (isn : WrappingInt32) (checkpointFits : checkpoint < 2 ^ 63)
    (above : v < checkpoint + 2 ^ 31) (below : checkpoint < v + 2 ^ 31) :
    unwrap (wrap v isn) isn checkpoint = v :=
  unwrap_wrap_nearest isn (by unfold word64; omega) (by unfold word64; omega) (Or.inl ⟨above, below⟩)

theorem unwrap_wrap_low {v checkpoint : Nat} (isn : WrappingInt32) (first : v < 2 ^ 32) (low : checkpoint < 2 ^ 31) :
    unwrap (wrap v isn) isn checkpoint = v :=
  unwrap_wrap_nearest isn (by unfold word64; omega) (by unfold word64; omega) (Or.inr ⟨first, low⟩)

/-- **`unwrap` reads the closest absolute number**: it wraps to `n`, no other number that does is closer to the
checkpoint, and a number less than `2 ^ 31` away is read back. -/
theorem unwrap_closest (n isn : WrappingInt32) (checkpoint : Nat) (low : checkpoint < 2 ^ 63) :
    wrap (unwrap n isn checkpoint) isn = n ∧
      (∀ r, wrap r isn = n →
        ((unwrap n isn checkpoint : Int) - checkpoint).natAbs ≤ ((r : Int) - checkpoint).natAbs) ∧
      ∀ v : Nat, ((v : Int) - checkpoint).natAbs < 2 ^ 31 → unwrap (wrap v isn) isn checkpoint = v := by
  have bound := ahead_lt n isn checkpoint
  have read := unwrap_cases n isn (show checkpoint < word64 by unfold word64; omega)
  simp only [Behind, add64, word32, word64] at read bound
  refine ⟨(wrap_eq_iff _ n isn checkpoint).2 ?_, fun r same => ?_, fun v near => ?_⟩
  · simp only [word32]
    omega
  · have round := (wrap_eq_iff r n isn checkpoint).1 same
    simp only [word32] at round
    omega
  · exact unwrap_wrap isn low (by omega) (by omega)

theorem unwrap_closest_middle :
    (2 ^ 31 : Nat) < 2 ^ 63 ∧ wrap (unwrap (.ofNat 7) (.ofNat 9) (2 ^ 31)) (.ofNat 9) = .ofNat 7 :=
  ⟨by decide, (unwrap_closest (.ofNat 7) (.ofNat 9) (2 ^ 31) (by decide)).1⟩

/-- The number is as far ahead of the checkpoint as behind it, and the one behind is not negative. -/
def Tie (n isn : WrappingInt32) (checkpoint : Nat) : Prop :=
  n.add (2 ^ 31) = wrap checkpoint isn ∧ 2 ^ 31 ≤ checkpoint

theorem tie_iff (n isn : WrappingInt32) (checkpoint : Nat) :
    n.add (2 ^ 31) = wrap checkpoint isn ↔ ahead n isn checkpoint = 2 ^ 31 := by
  have nBound := n.bound
  have cBound := (wrap checkpoint isn).bound
  have same : n.add (2 ^ 31) = wrap checkpoint isn ↔ (n.add (2 ^ 31)).rawValue = (wrap checkpoint isn).rawValue :=
    ⟨fun equal => by rw [equal], WrappingInt32.ext_raw⟩
  rw [same, ahead, WrappingInt32.rawValue_add]
  simp only [word32] at *
  omega

/-- Shifting both numbers leaves the distance from the checkpoint as it is. -/
theorem ahead_add (n isn : WrappingInt32) (d checkpoint : Nat) :
    ahead (n.add d) (isn.add d) checkpoint = ahead n isn checkpoint := by
  have nBound := n.bound
  simp only [ahead, wrap_rawValue, WrappingInt32.rawValue_add, word32] at *
  omega

/-- **Decoding and the initial number**: shifting `n` and `isn` by `d` gives the same absolute number, unless two
numbers are at the same distance from the checkpoint and the shift takes `n` to the other half of the raw values. -/
theorem unwrap_shift_iff (n isn : WrappingInt32) (d checkpoint : Nat) (low : checkpoint < 2 ^ 63) :
    unwrap (n.add d) (isn.add d) checkpoint = unwrap n isn checkpoint ↔
      ¬ (Tie n isn checkpoint ∧ (n.rawValue < 2 ^ 31 ↔ 2 ^ 31 ≤ (n.add d).rawValue)) := by
  have fits : checkpoint < word64 := by unfold word64; omega
  have bound := ahead_lt n isn checkpoint
  have read := unwrap_cases n isn fits
  have shifted := unwrap_cases (n.add d) (isn.add d) fits
  rw [Tie, tie_iff]
  simp only [Behind, ahead_add, add64, word32, word64] at read shifted bound
  omega

theorem unwrap_shift_small :
    (5 : Nat) < 2 ^ 63 ∧ unwrap ((WrappingInt32.ofNat 3).add 9) ((WrappingInt32.ofNat 1).add 9) 5 =
      unwrap (.ofNat 3) (.ofNat 1) 5 :=
  ⟨by decide, (unwrap_shift_iff (.ofNat 3) (.ofNat 1) 9 5 (by decide)).2 fun tie => absurd tie.1.2 (by decide)⟩

/-- At the distance `2 ^ 31` the order of the raw values decides, and with it the initial number: `2 ^ 32` and `0`. -/
theorem unwrap_shift_tie :
    ¬ ∀ (n isn : WrappingInt32) (d checkpoint : Nat), d < word32 → checkpoint < 2 ^ 63 →
      unwrap (n.add d) (isn.add d) checkpoint = unwrap n isn checkpoint := by
  intro always
  exact absurd (always (.ofNat 0) (.ofNat 0) (2 ^ 31) (2 ^ 31) (by decide) (by decide)) (by decide)

end Sponge
