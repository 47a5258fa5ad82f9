import Mathlib.Algebra.Order.Ring.Nat
import Mathlib.Data.List.Induction
import Mathlib.Tactic.Common

/-!
# Octets on the wire

Numbers as bytes with the high byte first, and the sum of 16-bit words with its
carries added back in (the arithmetic of one's-complement checksums). Such a sum
is full (`0xffff`) for the positive multiples of `0xffff`, so that no two full
sums are a power of two below `2 ^ 16` apart: an inverted bit is noticed.
-/

namespace Octets

/-- The number that the bytes spell, high byte first. -/
def bigEndian (bytes : List UInt8) : Nat := bytes.foldl (fun n byte => n * 256 + byte.toNat) 0

/-- The `len` low bytes of a number, high byte first. -/
def ofNat : (len n : Nat) → List UInt8
  | 0, _ => []
  | len + 1, n => ofNat len (n / 256) ++ [UInt8.ofNat n]

@[simp] theorem length_ofNat (len n : Nat) : (ofNat len n).length = len := by
  induction len generalizing n with
  | zero => rfl
  | succ len ih => rw [ofNat, List.length_append, ih]; rfl

theorem bigEndian_append_singleton (bytes : List UInt8) (byte : UInt8) :
    bigEndian (bytes ++ [byte]) = bigEndian bytes * 256 + byte.toNat := by
  rw [bigEndian, List.foldl_append]
  rfl

theorem bigEndian_lt (bytes : List UInt8) : bigEndian bytes < 256 ^ bytes.length := by
  induction bytes using List.reverseRecOn with
  | nil => decide
  | append_singleton bytes byte ih =>
    have small : byte.toNat < 256 := byte.toNat_lt
    rw [bigEndian_append_singleton, List.length_append, List.length_singleton, Nat.pow_succ]
    omega

/-- Reading back what was written keeps the low bytes. -/
theorem bigEndian_ofNat (len n : Nat) : bigEndian (ofNat len n) = n % 256 ^ len := by
  induction len generalizing n with
  | zero => rw [Nat.pow_zero, Nat.mod_one]; rfl
  | succ len ih =>
    have low : (UInt8.ofNat n).toNat = n % 256 := UInt8.toNat_ofNat'
    rw [ofNat, bigEndian_append_singleton, ih, low, Nat.pow_succ, Nat.mul_comm (256 ^ len), Nat.mod_mul]
    omega

theorem ofNat_bigEndian (bytes : List UInt8) : ofNat bytes.length (bigEndian bytes) = bytes := by
  induction bytes using List.reverseRecOn with
  | nil => rfl
  | append_singleton bytes byte ih =>
    have small : byte.toNat < 256 := byte.toNat_lt
    have high : (bigEndian bytes * 256 + byte.toNat) / 256 = bigEndian bytes := by omega
    have low : UInt8.ofNat (bigEndian bytes * 256 + byte.toNat) = byte := by
      apply UInt8.toNat_inj.1
      rw [UInt8.toNat_ofNat']
      omega
    rw [List.length_append, List.length_singleton, ofNat, bigEndian_append_singleton, high, low, ih]

/-- A sum of 16-bit words after its carries are added back in: zero, or the representative of its residue modulo
`0xffff` that is not zero. -/
def endAround (n : Nat) : Nat := if n = 0 then 0 else (n - 1) % 0xffff + 1

theorem endAround_of_le {n : Nat} (small : n ≤ 0xffff) : endAround n = n := by
  rw [endAround]
  split <;> omega

theorem endAround_le (n : Nat) : endAround n ≤ 0xffff := by
  rw [endAround]
  split <;> omega

/-- Adding the carries back in once does not change the result. -/
theorem endAround_carry (n : Nat) : endAround (n / 0x10000 + n % 0x10000) = endAround n := by
  rw [endAround, endAround]
  split <;> split <;> omega

/-- **The complement closes the sum.** -/
theorem endAround_complement (n : Nat) : endAround (n + (0xffff - endAround n)) = 0xffff := by
  by_cases zero : n = 0
  · rw [zero]; rfl
  · have value : endAround n = (n - 1) % 0xffff + 1 := if_neg zero
    rw [value, endAround, if_neg (by omega)]
    omega

/-- The sum of the bytes as 16-bit words; `odd` when the first byte is the low one of its word. -/
def pairSum : (odd : Bool) → List UInt8 → Nat
  | _, [] => 0
  | odd, byte :: rest => (if odd then byte.toNat else byte.toNat * 256) + pairSum (!odd) rest

theorem pairSum_le (odd : Bool) (bytes : List UInt8) : pairSum odd bytes ≤ 0xff00 * bytes.length := by
  induction bytes generalizing odd with
  | nil => exact Nat.zero_le _
  | cons byte rest ih =>
    have small : byte.toNat < 256 := byte.toNat_lt
    have tail := ih (!odd)
    rw [pairSum, List.length_cons]
    split <;> omega

/-- The Internet checksum of the bytes, on top of a start value: the complement of their end-around sum. -/
def internetChecksum (start : Nat) (bytes : List UInt8) : Nat := 0xffff - endAround (start + pairSum false bytes)

theorem internetChecksum_eq_zero {start : Nat} {bytes : List UInt8} :
    internetChecksum start bytes = 0 ↔ endAround (start + pairSum false bytes) = 0xffff := by
  have small := endAround_le (start + pairSum false bytes)
  rw [internetChecksum]
  omega

theorem pairSum_append (odd : Bool) (front back : List UInt8) :
    pairSum odd (front ++ back) = pairSum odd front + pairSum (odd ^^ decide (front.length % 2 = 1)) back := by
  induction front generalizing odd with
  | nil => cases odd <;> rw [pairSum, Nat.zero_add] <;> rfl
  | cons byte rest ih =>
    have parity : (!odd ^^ decide (rest.length % 2 = 1)) = (odd ^^ decide ((byte :: rest).length % 2 = 1)) := by
      rw [List.length_cons]
      rcases Nat.mod_two_eq_zero_or_one rest.length with even | one
      · rw [even, show (rest.length + 1) % 2 = 1 by omega]; cases odd <;> rfl
      · rw [one, show (rest.length + 1) % 2 = 0 by omega]; cases odd <;> rfl
    rw [List.cons_append, pairSum, pairSum, ih, parity, Nat.add_assoc]

/-- A word at an even offset adds its value. -/
theorem pairSum_word (front back : List UInt8) (even : front.length % 2 = 0) {n : Nat} (small : n < 0x10000) :
    pairSum false (front ++ (ofNat 2 n ++ back)) = pairSum false (front ++ (ofNat 2 0 ++ back)) + n := by
  have word : ∀ m, m < 0x10000 → pairSum false (ofNat 2 m) = m := by
    intro m bound
    have high : (UInt8.ofNat (m / 256)).toNat = m / 256 := by rw [UInt8.toNat_ofNat']; omega
    have low : (UInt8.ofNat m).toNat = m % 256 := UInt8.toNat_ofNat'
    simp only [ofNat, List.nil_append, List.singleton_append, pairSum, high, low]
    exact Nat.div_add_mod' m 256
  have sum : ∀ m, m < 0x10000 →
      pairSum false (front ++ (ofNat 2 m ++ back)) = pairSum false front + (m + pairSum false back) := by
    intro m bound
    rw [pairSum_append, even, show (false ^^ decide (0 = 1)) = false from rfl, pairSum_append, length_ofNat, word m bound]
    rfl
  rw [sum n small, sum 0 (by decide)]
  omega

/-! ### One's-complement addition -/

/-- The sum of two 16-bit words, with the carry out of the top bit added back in. -/
def onesAdd (a b : UInt16) : UInt16 := a + b + if 0x10000 ≤ a.toNat + b.toNat then 1 else 0

/-- The 16-bit one's-complement sum of the words. -/
def onesSum (ws : List UInt16) : UInt16 := ws.foldl onesAdd 0

/-- The 16-bit words that the bytes spell, high byte first; an odd last byte is padded with a zero byte. -/
def words : List UInt8 → List UInt16
  | [] => []
  | [high] => [UInt16.ofNat (bigEndian [high, 0])]
  | high :: low :: rest => UInt16.ofNat (bigEndian [high, low]) :: words rest

/-- The sum of the words as integers. -/
def wordSum (bytes : List UInt8) : Nat := ((words bytes).map UInt16.toNat).sum

theorem toNat_word (high low : UInt8) : (UInt16.ofNat (bigEndian [high, low])).toNat = high.toNat * 256 + low.toNat := by
  have value : bigEndian [high, low] = high.toNat * 256 + low.toNat := by simp [bigEndian]
  have smallHigh : high.toNat < 256 := high.toNat_lt
  have smallLow : low.toNat < 256 := low.toNat_lt
  rw [value, UInt16.toNat_ofNat']
  omega

/-- Counting byte by byte or word by word gives the same sum. -/
theorem pairSum_eq_wordSum (bytes : List UInt8) : pairSum false bytes = wordSum bytes := by
  induction bytes using words.induct with
  | case1 => rfl
  | case2 high =>
    rw [wordSum, words, List.map_singleton, List.sum_singleton, toNat_word]
    rfl
  | case3 high low rest ih =>
    have split : wordSum (high :: low :: rest) = high.toNat * 256 + low.toNat + wordSum rest := by
      rw [wordSum, words, List.map_cons, List.sum_cons, toNat_word, wordSum]
    rw [split, ← ih, pairSum, pairSum, Nat.add_assoc]
    rfl

/-- Carries can be added back in at any time. -/
theorem endAround_add (m n : Nat) : endAround (endAround m + n) = endAround (m + n) := by
  by_cases zero : m = 0
  · rw [zero]; rfl
  · have value : endAround m = (m - 1) % 0xffff + 1 := if_neg zero
    rw [value, endAround, endAround, if_neg (by omega), if_neg (by omega)]
    omega

theorem toNat_onesAdd (a b : UInt16) : (onesAdd a b).toNat = endAround (a.toNat + b.toNat) := by
  have smallA : a.toNat < 0x10000 := a.toNat_lt
  have smallB : b.toNat < 0x10000 := b.toNat_lt
  rw [onesAdd, UInt16.toNat_add, UInt16.toNat_add, endAround]
  by_cases carry : 0x10000 ≤ a.toNat + b.toNat
  · rw [if_pos carry, if_neg (by omega), UInt16.toNat_one]
    omega
  · rw [if_neg carry, UInt16.toNat_zero]
    split <;> omega

/-- The one's-complement sum is the integer sum with its carries added back in. -/
theorem toNat_onesSum (ws : List UInt16) : (onesSum ws).toNat = endAround (ws.map UInt16.toNat).sum := by
  have loop : ∀ (ws : List UInt16) (a : UInt16),
      (ws.foldl onesAdd a).toNat = endAround (a.toNat + (ws.map UInt16.toNat).sum) := by
    intro ws
    induction ws with
    | nil =>
      intro a
      have small : a.toNat < 0x10000 := a.toNat_lt
      rw [List.map_nil, List.sum_nil, Nat.add_zero, endAround_of_le (by omega), List.foldl_nil]
    | cons w ws ih =>
      intro a
      rw [List.foldl_cons, ih, toNat_onesAdd, endAround_add, List.map_cons, List.sum_cons, Nat.add_assoc]
  rw [onesSum, loop ws 0, UInt16.toNat_zero, Nat.zero_add]

/-- The bytes with bit `k` of byte `i` inverted. -/
def flipBit (bytes : List UInt8) (i : Nat) (k : Fin 8) : List UInt8 :=
  bytes.modify i fun byte => byte ^^^ (1 <<< UInt8.ofNat k)

@[simp] theorem length_flipBit (bytes : List UInt8) (i : Nat) (k : Fin 8) : (flipBit bytes i k).length = bytes.length :=
  List.length_modify ..

/-- Two numbers that are `2 ^ j` apart. -/
def PowerApart (j m n : Nat) : Prop := m + 2 ^ j = n ∨ n + 2 ^ j = m

theorem PowerApart.add_left {j m n : Nat} (h : PowerApart j m n) (k : Nat) : PowerApart j (k + m) (k + n) := by
  unfold PowerApart at *
  omega

theorem PowerApart.add_right {j m n : Nat} (h : PowerApart j m n) (k : Nat) : PowerApart j (m + k) (n + k) := by
  unfold PowerApart at *
  omega

theorem PowerApart.high {j m n : Nat} (h : PowerApart j m n) : PowerApart (j + 8) (m * 256) (n * 256) := by
  unfold PowerApart at *
  rw [Nat.pow_add]
  omega

theorem toNat_flip (byte : UInt8) (k : Fin 8) :
    PowerApart k byte.toNat (byte ^^^ (1 <<< UInt8.ofNat k)).toNat := by
  have all : ∀ (byte : BitVec 8) (k : Fin 8), byte.toNat + 2 ^ k.val = (UInt8.ofBitVec byte ^^^ (1 <<< UInt8.ofNat k)).toNat ∨
      (UInt8.ofBitVec byte ^^^ (1 <<< UInt8.ofNat k)).toNat + 2 ^ k.val = byte.toNat := by decide +kernel
  exact all byte.toBitVec k

/-- Inverting a bit moves the sum of the words by a power of two below `2 ^ 16`. -/
theorem pairSum_flipBit (odd : Bool) {bytes : List UInt8} {i : Nat} (inside : i < bytes.length) (k : Fin 8) :
    ∃ j < 16, PowerApart j (pairSum odd bytes) (pairSum odd (flipBit bytes i k)) := by
  induction bytes generalizing odd i with
  | nil => cases inside
  | cons byte rest ih =>
    cases i with
    | zero =>
      have moved := toNat_flip byte k
      cases odd with
      | true => exact ⟨k, by omega, moved.add_right _⟩
      | false => exact ⟨k + 8, by omega, moved.high.add_right _⟩
    | succ i =>
      obtain ⟨j, small, moved⟩ := ih (!odd) (Nat.lt_of_succ_lt_succ inside)
      exact ⟨j, small, moved.add_left _⟩

theorem endAround_eq_full {n : Nat} : endAround n = 0xffff ↔ 0 < n ∧ n % 0xffff = 0 := by
  rw [endAround]
  split <;> omega

/-- No power of two below `2 ^ 16` is divisible by `0xffff`. -/
theorem endAround_apart {j m n : Nat} (small : j < 16) (apart : PowerApart j m n) (full : endAround m = 0xffff) :
    endAround n ≠ 0xffff := by
  rw [endAround_eq_full] at full
  rw [ne_eq, endAround_eq_full]
  have power : ∀ j < 16, 0 < 2 ^ j ∧ 2 ^ j < 0xffff := by decide
  obtain ⟨positive, below⟩ := power j small
  unfold PowerApart at apart
  omega

/-- **A single inverted bit is noticed.** -/
theorem internetChecksum_flipBit {start : Nat} {bytes : List UInt8} (right : internetChecksum start bytes = 0) {i : Nat}
    (inside : i < bytes.length) (k : Fin 8) : internetChecksum start (flipBit bytes i k) ≠ 0 := by
  obtain ⟨j, small, moved⟩ := pairSum_flipBit false inside k
  rw [internetChecksum_eq_zero] at right
  rw [ne_eq, internetChecksum_eq_zero]
  exact endAround_apart small (moved.add_left start) right

end Octets
