import Mathlib.Data.Nat.Basic
import Mathlib.Algebra.Order.Ring.Nat

/-!
# Dyadic blocks

A dyadic block is the interval of `2 ^ k` numbers from a multiple of `2 ^ k` on.
Two of them are nested or apart.
-/

namespace Sponge

section Dyadic

variable {k a b s t x : Nat}

/-- The block of `s` holds the numbers with the same quotient. -/
theorem div_eq_div_iff_mem (aligned : 2 ^ k ∣ s) : x / 2 ^ k = s / 2 ^ k ↔ s ≤ x ∧ x < s + 2 ^ k := by
  obtain ⟨c, rfl⟩ := aligned
  have positive := Nat.two_pow_pos k
  rw [Nat.mul_div_cancel_left c positive, Nat.div_eq_iff positive, Nat.mul_comm]
  omega

/-- A block that starts inside an earlier one, or with it and no longer, is nested in it. -/
theorem block_nested (left : 2 ^ a ∣ s) (right : 2 ^ b ∣ t) (order : s < t ∨ s = t ∧ b ≤ a) (meets : t < s + 2 ^ a) :
    b ≤ a ∧ t + 2 ^ b ≤ s + 2 ^ a := by
  have shorter : b ≤ a := by
    by_contra longer
    rcases order with after | ⟨-, le⟩
    · have fine : 2 ^ a ∣ t - s := Nat.dvd_sub ((pow_dvd_pow 2 (by omega)).trans right) left
      have far := Nat.le_of_dvd (by omega) fine
      omega
    · exact longer le
  have fine : 2 ^ b ∣ s + 2 ^ a - t :=
    Nat.dvd_sub (Nat.dvd_add ((pow_dvd_pow 2 shorter).trans left) (pow_dvd_pow 2 shorter)) right
  have room := Nat.le_of_dvd (by omega) fine
  exact ⟨shorter, by omega⟩

/-- Masking the low bits leaves the multiple of `2 ^ k` below. -/
theorem land_mask {w : Nat} (small : x < 2 ^ w) : x &&& ((2 ^ w - 1) <<< k % 2 ^ w) = 2 ^ k * (x / 2 ^ k) := by
  refine Nat.eq_of_testBit_eq fun i => ?_
  rw [Nat.testBit_and, Nat.testBit_mod_two_pow, Nat.testBit_shiftLeft, Nat.testBit_two_pow_sub_one,
    Nat.testBit_two_pow_mul, Nat.testBit_div_two_pow]
  by_cases low : k ≤ i
  · rw [Nat.sub_add_cancel low]
    by_cases high : i < w
    · simp [high, low, show i - k < w by omega]
    · rw [Nat.testBit_lt_two_pow (Nat.lt_of_lt_of_le small (Nat.pow_le_pow_right (by decide) (by omega)))]
      simp
  · simp [low]

end Dyadic

end Sponge
