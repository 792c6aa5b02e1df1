import HfIp.Lib.OnesComplement
import HfIp.TcpOutput

/- The checksum of src/utils.c, on a little-endian host. -/
namespace HfIp

open OnesComplement

/- The number that the bytes make in the memory of the host. -/
def leNat : List UInt8 → Nat
  | [] => 0
  | a :: rest => a.toNat + 256 * leNat rest

def htons (x : UInt16) : UInt16 := UInt16.ofNat (leNat (be16 x))

def htonl (x : UInt32) : UInt32 := UInt32.ofNat (leNat (be32 x))

/- The loop of `sum_every_16bits`. -/
def sumLoop (sum : UInt32) : List UInt8 → UInt32
  | a :: b :: rest => sumLoop (sum + UInt32.ofNat (leNat [a, b])) rest
  | [a] => sum + a.toUInt32
  | [] => sum

def sumEvery16bits (data : List UInt8) : UInt32 := sumLoop 0 data

/- The loop that folds the sum to 16 bits; it ends after two turns. -/
def foldLoop : Nat → UInt32 → UInt32
  | 0, sum => sum
  | fuel + 1, sum =>
    if sum >>> 16 ≠ 0 then foldLoop fuel ((sum &&& (0xffff : UInt32)) + (sum >>> 16)) else sum

/- `start` stands for the bits of `start_sum`, whose sign is lost in the assignment to `sum`. -/
def checksum (data : List UInt8) (start : UInt32) : UInt16 :=
  ~~~(foldLoop 2 (start + sumEvery16bits data)).toUInt16

theorem sumLoop_toNat (sum : UInt32) (data : List UInt8) :
    (sumLoop sum data).toNat = (sum.toNat + (littleWords data).sum) % 2 ^ 32 := by
  induction data using littleWords.induct generalizing sum with
  | case1 a b rest ih =>
    have := a.toNat_lt
    have := b.toNat_lt
    rw [sumLoop, ih, UInt32.toNat_add, UInt32.toNat_ofNat']
    simp only [leNat, littleWords, List.sum_cons]
    omega
  | case2 a =>
    have := a.toNat_lt
    rw [sumLoop, UInt32.toNat_add]
    simp only [littleWords, List.sum_cons, List.sum_nil, UInt8.toNat_toUInt32, Nat.add_zero]
  | case3 =>
    have := sum.toNat_lt
    rw [sumLoop]
    simp only [littleWords, List.sum_nil]
    omega

theorem sumEvery16bits_toNat (data : List UInt8) :
    (sumEvery16bits data).toNat = (littleWords data).sum % 2 ^ 32 := by
  rw [sumEvery16bits, sumLoop_toNat, UInt32.toNat_zero, Nat.zero_add]

/- One turn of the loop. -/
theorem fold_turn (sum : UInt32) : ((sum &&& (0xffff : UInt32)) + (sum >>> 16)).toNat
    = sum.toNat % 65536 + sum.toNat / 65536 := by
  have := sum.toNat_lt
  have low : (sum &&& (0xffff : UInt32)).toNat = sum.toNat % 65536 := by
    rw [UInt32.toNat_and]
    exact Nat.and_two_pow_sub_one_eq_mod _ 16
  have high : (sum >>> 16).toNat = sum.toNat / 65536 := by
    rw [UInt32.toNat_shiftRight]
    exact Nat.shiftRight_eq_div_pow _ 16
  rw [UInt32.toNat_add, low, high]
  omega

/-- The folded sum fits 16 bits, is congruent to the sum, and is zero only for zero. -/
theorem foldLoop_spec (sum : UInt32) : (foldLoop 2 sum).toNat < 65536 ∧
    (foldLoop 2 sum).toNat % 65535 = sum.toNat % 65535 ∧
    (0 < sum.toNat → 0 < (foldLoop 2 sum).toNat) := by
  have turn : ∀ x : UInt32, x >>> 16 ≠ 0 ↔ 65536 ≤ x.toNat := by
    intro x
    have high : (x >>> 16).toNat = x.toNat / 65536 := by
      rw [UInt32.toNat_shiftRight]
      exact Nat.shiftRight_eq_div_pow _ 16
    rw [ne_eq, ← UInt32.toNat_inj, high, UInt32.toNat_zero]
    omega
  have bound := sum.toNat_lt
  have first := fold_turn sum
  have kept := carry_mod 65536 sum.toNat (by decide)
  unfold foldLoop
  split
  · rename_i large
    rw [turn] at large
    rw [← first] at kept
    generalize (sum &&& (0xffff : UInt32)) + (sum >>> 16) = x at first kept
    have second := fold_turn x
    have keptx := carry_mod 65536 x.toNat (by decide)
    unfold foldLoop
    split
    · rename_i largex
      rw [turn] at largex
      rw [← second] at keptx
      unfold foldLoop
      exact ⟨by omega, by omega, by omega⟩
    · rename_i smallx
      rw [turn] at smallx
      exact ⟨by omega, by omega, by omega⟩
  · rename_i small
    rw [turn] at small
    exact ⟨by omega, rfl, id⟩

/- The checksum is the complement of a word congruent to the sum modulo 2^32. -/
theorem checksum_spec (data : List UInt8) (start : UInt32) :
    ∃ word, word + (checksum data start).toNat = 65535 ∧
      word % 65535 = (start.toNat + (littleWords data).sum) % 2 ^ 32 % 65535 := by
  obtain ⟨small, mod, -⟩ := foldLoop_spec (start + sumEvery16bits data)
  refine ⟨(foldLoop 2 (start + sumEvery16bits data)).toNat, ?_, ?_⟩
  · unfold checksum
    rw [UInt16.toNat_not, UInt32.toNat_toUInt16, Nat.mod_eq_of_lt small]
    simp only [UInt16.size]
    omega
  · rw [mod, UInt32.toNat_add, sumEvery16bits_toNat]
    omega

end HfIp
