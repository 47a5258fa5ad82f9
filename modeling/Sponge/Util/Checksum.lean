import Mathlib.Logic.Function.Iterate
import Sponge.Util.Codec

/-!
# The Internet checksum of a message in parts (`util/util.cc`)

`InternetChecksum` remembers whether the next byte is the high or the low one of
its word, so a message may be added in parts of any lengths, odd ones included.
Over the length of an IP datagram the 32-bit sum is the integer sum of the words,
and two rounds of the loop of `value` are enough for its carries; what `value`
returns is the complement of the one's-complement sum.
-/

namespace Sponge

open Octets

namespace InternetChecksum

/-- Adding the parts of a message one after another is adding the message. -/
theorem add_flatten (c : InternetChecksum) (chunks : List (List UInt8)) :
    chunks.foldl add c = c.add chunks.flatten := by
  induction chunks generalizing c with
  | nil => rfl
  | cons chunk chunks ih => rw [List.foldl_cons, ih, List.flatten_cons, add_append]

/-- `InternetChecksum(initial_sum)`. -/
def ofSum (initial : UInt32) : InternetChecksum := { sum := initial }

/-- The body of the loop of `value`. -/
def addCarries (ret : Nat) : Nat := ret / 0x10000 + ret % 0x10000

/-- The loop of `value` goes through its body that many times and then stops. -/
def LoopStops (ret rounds : Nat) : Prop :=
  (∀ r < rounds, 0xffff < addCarries^[r] ret) ∧ addCarries^[rounds] ret ≤ 0xffff

/-- On a 32-bit number two rounds are enough. -/
theorem foldCarries_rounds {ret : Nat} (fits : ret < 2 ^ 32) :
    ∃ rounds ≤ 2, LoopStops ret rounds ∧ foldCarries ret = addCarries^[rounds] ret := by
  have onward : ∀ {n : Nat}, 0xffff < n → foldCarries n = foldCarries (addCarries n) := by
    intro n more
    rw [foldCarries, if_pos more, addCarries]
  have done : ∀ {n : Nat}, n ≤ 0xffff → foldCarries n = n := by
    intro n small
    rw [foldCarries, if_neg (Nat.not_lt.2 small)]
  have twice : addCarries (addCarries ret) ≤ 0xffff := by
    unfold addCarries
    omega
  rcases Nat.lt_or_ge 0xffff ret with more | small
  · rcases Nat.lt_or_ge 0xffff (addCarries ret) with again | small
    · refine ⟨2, by decide, ⟨fun r inside => ?_, twice⟩, ((onward more).trans (onward again)).trans (done twice)⟩
      rcases (by omega : r = 0 ∨ r = 1) with rfl | rfl
      · exact more
      · exact again
    · refine ⟨1, by decide, ⟨fun r inside => ?_, small⟩, (onward more).trans (done small)⟩
      obtain rfl : r = 0 := by omega
      exact more
  · exact ⟨0, by decide, ⟨fun r inside => absurd inside (Nat.not_lt_zero r), small⟩, done small⟩

/-- Over the length of a datagram the 32-bit sum does not wrap: it is the integer sum of the words. -/
theorem add_exact {initial : UInt32} (small : initial.toNat < 2 ^ 20) {data : List UInt8} (short : data.length ≤ 65535) :
    ((ofSum initial).add data).sum.toNat = initial.toNat + wordSum data ∧ initial.toNat + wordSum data < 2 ^ 32 := by
  have bound := pairSum_le false data
  have sum := toNat_add (ofSum initial) data
  rw [ofSum, pairSum_eq_wordSum] at sum
  rw [pairSum_eq_wordSum] at bound
  have fits : initial.toNat + wordSum data < 2 ^ 32 := by omega
  exact ⟨sum fits, fits⟩

/-- The two halves of the start value count as words. -/
theorem endAround_halves (initial : UInt32) (n : Nat) :
    endAround ((initial >>> 16).toUInt16.toNat + (initial.toUInt16.toNat + n)) = endAround (initial.toNat + n) := by
  have high : (initial >>> 16).toUInt16.toNat = initial.toNat / 0x10000 := by
    have fits : initial.toNat < 2 ^ 32 := initial.toNat_lt
    rw [UInt32.toNat_toUInt16, UInt32.toNat_shiftRight]
    show initial.toNat >>> 16 % 65536 = _
    rw [Nat.shiftRight_eq_div_pow]
    omega
  have low : initial.toUInt16.toNat = initial.toNat % 0x10000 := UInt32.toNat_toUInt16 _
  rw [high, low, ← Nat.add_assoc, ← endAround_add, endAround_carry, endAround_add]

/-- **The Internet checksum.** However a message of at most 65535 bytes is cut into parts, adding these to a start value
below `2 ^ 20` gives the value of the whole message. No addition wraps, neither part by part nor at once; the loop of
`value` stops; and the value is the complement of the one's-complement sum of the start value and the 16-bit words of
the message, so that it is zero exactly for a positive multiple of 65535. -/
theorem value_of_chunks (initial : UInt32) (small : initial.toNat < 2 ^ 20) (chunks : List (List UInt8))
    (short : (chunks.map List.length).sum ≤ 65535) :
    (chunks.foldl add (ofSum initial)).value = ((ofSum initial).add chunks.flatten).value ∧
    (∀ done front back rest, chunks = done ++ (front ++ back) :: rest →
      ((done.foldl add (ofSum initial)).add front).sum.toNat = initial.toNat + wordSum (done.flatten ++ front)) ∧
    (∀ front, front <+: chunks.flatten → ((ofSum initial).add front).sum.toNat = initial.toNat + wordSum front) ∧
    initial.toNat + wordSum chunks.flatten < 2 ^ 32 ∧
    (∃ rounds ≤ 2, LoopStops ((ofSum initial).add chunks.flatten).sum.toNat rounds ∧
      ((ofSum initial).add chunks.flatten).value =
        ~~~ UInt16.ofNat (addCarries^[rounds] ((ofSum initial).add chunks.flatten).sum.toNat)) ∧
    ((ofSum initial).add chunks.flatten).value =
      ~~~ onesSum ((initial >>> 16).toUInt16 :: initial.toUInt16 :: words chunks.flatten) ∧
    (((ofSum initial).add chunks.flatten).value = 0 ↔
      0 < initial.toNat + wordSum chunks.flatten ∧ 65535 ∣ initial.toNat + wordSum chunks.flatten) := by
  rw [← List.length_flatten] at short
  obtain ⟨sum, fits⟩ := add_exact small short
  have unwrapped : ∀ front, front <+: chunks.flatten →
      ((ofSum initial).add front).sum.toNat = initial.toNat + wordSum front := by
    intro front part
    exact (add_exact small (Nat.le_trans part.length_le short)).1
  refine ⟨by rw [add_flatten], ?_, unwrapped, fits, ?_, ?_, ?_⟩
  · -- the bytes added until then are the first ones of the message
    intro done front back rest cut
    rw [add_flatten, ← add_append]
    apply unwrapped
    rw [cut, List.flatten_append, List.flatten_cons, List.append_assoc]
    exact (List.prefix_append_right_inj _).2 ⟨back ++ rest.flatten, rfl⟩
  · obtain ⟨rounds, few, stops, result⟩ := foldCarries_rounds (sum ▸ fits)
    exact ⟨rounds, few, stops, by rw [value, result]⟩
  · apply UInt16.toNat_inj.1
    rw [toNat_value, sum, UInt16.toNat_not, toNat_onesSum, List.map_cons, List.map_cons, List.sum_cons, List.sum_cons,
      endAround_halves]
    rfl
  · rw [value_eq_zero_iff, sum, endAround_eq_full, Nat.dvd_iff_mod_eq_zero]

/-- A start value with a carry, and a message in parts of odd lengths. -/
theorem value_of_odd_chunks :
    ((0x1fffe : UInt32).toNat < 2 ^ 20 ∧ ([[0x45], [], [0x00, 0x1c], [0xff]].map List.length).sum ≤ 65535) ∧
    ([[0x45], [], [0x00, 0x1c], [0xff]].foldl add (ofSum 0x1fffe)).value = ~~~ onesSum [1, 0xfffe, 0x4500, 0x1cff] := by
  have small : (0x1fffe : UInt32).toNat < 2 ^ 20 := by decide
  have short : (([[0x45], [], [0x00, 0x1c], [0xff]] : List (List UInt8)).map List.length).sum ≤ 65535 := by decide
  obtain ⟨parts, -, -, -, -, value, -⟩ := value_of_chunks 0x1fffe small _ short
  refine ⟨⟨small, short⟩, parts.trans (value.trans ?_)⟩
  decide +kernel

end InternetChecksum

end Sponge
