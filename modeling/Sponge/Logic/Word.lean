import Mathlib.Algebra.Order.Ring.Nat

/-!
# Unsigned 64-bit arithmetic on natural numbers

`size_t` and `uint64_t` values are natural numbers; a sum or a difference that
the machine reduces is written `add64`, `sub64`. The lemmas say when the
reduction is invisible. A quantity that is only tracked up to a multiple of
`2 ^ 64` (a counter that is corrected later) is carried by `add64_mod` and
`sub64_mod`, which never ask for a bound on the exact value.
-/

namespace Sponge

/-- The number of 64-bit words. -/
abbrev word64 : Nat := 2 ^ 64

/-- `a + b` in `uint64_t`. -/
def add64 (a b : Nat) : Nat := (a + b) % word64

/-- `a - b` in `uint64_t`. -/
def sub64 (a b : Nat) : Nat := (word64 - b % word64 + a) % word64

theorem add64_eq {a b : Nat} (fits : a + b < word64) : add64 a b = a + b :=
  Nat.mod_eq_of_lt fits

theorem sub64_eq {a b : Nat} (order : b ≤ a) (fits : a < word64) : sub64 a b = a - b := by
  simp only [sub64, word64] at *
  omega

theorem add64_mod (a b : Nat) : add64 (a % word64) b = (a + b) % word64 := by
  simp only [add64, Nat.mod_add_mod]

theorem sub64_mod (a b : Nat) : sub64 ((a + b) % word64) b = a % word64 := by
  simp only [sub64, word64]
  omega

/-- `a - b + 1` for `b ≤ a + 1`; at `b = a + 1` the difference itself wraps. -/
theorem add64_sub64_one {a b : Nat} (order : b ≤ a + 1) (fits : a + 1 < word64) :
    add64 (sub64 a b) 1 = a + 1 - b := by
  simp only [add64, sub64, word64] at *
  omega

end Sponge
