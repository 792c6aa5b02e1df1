import Mathlib.Data.Nat.ModEq
import Mathlib.Tactic.Ring

/- One's-complement sums: addition of words with the carry taken around, whose value is the residue
   of the plain sum modulo the largest word, with that word in the place of zero. -/
namespace OnesComplement

/- `m` is the largest word. -/
def endAround (m a b : Nat) : Nat := if m < a + b then a + b - m else a + b

def total (m : Nat) (ws : List Nat) : Nat := ws.foldl (endAround m) 0

section EndAround

variable {m a b : Nat}

theorem endAround_le (ha : a ≤ m) (hb : b ≤ m) : endAround m a b ≤ m := by
  unfold endAround
  split <;> omega

theorem endAround_mod : endAround m a b % m = (a + b) % m := by
  unfold endAround
  split
  · rw [← Nat.mod_eq_sub_mod (by omega)]
  · rfl

theorem endAround_pos (positive : 0 < a + b) : 0 < endAround m a b := by
  unfold endAround
  split <;> omega

end EndAround

variable {m : Nat}

/- Started from any word; each step adds one. -/
theorem foldl_endAround {ws : List Nat} {a : Nat} (words : ∀ w ∈ ws, w ≤ m) (start : a ≤ m) :
    ws.foldl (endAround m) a ≤ m ∧ ws.foldl (endAround m) a % m = (a + ws.sum) % m ∧
      (0 < a + ws.sum → 0 < ws.foldl (endAround m) a) := by
  induction ws generalizing a with
  | nil => exact ⟨start, by simp, by simp⟩
  | cons w ws ih =>
    have word := words w (by simp)
    obtain ⟨le, mod, pos⟩ := ih (fun w member => words w (by simp [member]))
      (endAround_le start word)
    refine ⟨le, ?_, fun positive => pos ?_⟩
    · rw [List.foldl_cons, mod, List.sum_cons, Nat.add_mod, endAround_mod, ← Nat.add_mod, Nat.add_assoc]
    · by_cases some_sum : 0 < a + w
      · have := endAround_pos (m := m) some_sum
        omega
      · rw [List.sum_cons] at positive
        omega

/- The total is zero only for zero words. -/
theorem total_eq_zero {ws : List Nat} (words : ∀ w ∈ ws, w ≤ m) : total m ws = 0 ↔ ws.sum = 0 := by
  obtain ⟨-, -, pos⟩ := foldl_endAround words (Nat.zero_le m)
  rw [Nat.zero_add] at pos
  constructor
  · intro zero
    by_contra positive
    exact absurd zero (Nat.ne_of_gt (pos (Nat.pos_of_ne_zero positive)))
  · intro none
    unfold total
    induction ws with
    | nil => rfl
    | cons w ws ih =>
      rw [List.sum_cons] at none
      obtain ⟨rfl, rest⟩ : w = 0 ∧ ws.sum = 0 := by omega
      have zero : endAround m 0 0 = 0 := if_neg (Nat.not_lt_zero m)
      have later : 0 < 0 + ws.sum → 0 < ws.foldl (endAround m) 0 := by omega
      rw [List.foldl_cons, zero]
      exact ih (fun w member => words w (List.mem_cons_of_mem _ member)) (by rwa [Nat.zero_add] at later) rest

/- Among the words, the residue and whether it is zero tell the total. -/
theorem total_unique {ws : List Nat} {r : Nat} (words : ∀ w ∈ ws, w ≤ m) (word : r ≤ m)
    (residue : r % m = ws.sum % m) (zero : r = 0 ↔ ws.sum = 0) : total m ws = r := by
  obtain ⟨le, mod, -⟩ := foldl_endAround words (Nat.zero_le m)
  have none := total_eq_zero words
  rw [Nat.zero_add] at mod
  have same : total m ws % m = r % m := mod.trans residue.symm
  change total m ws ≤ m at le
  generalize total m ws = t at *
  rcases Nat.eq_or_lt_of_le le with rfl | below <;> rcases Nat.eq_or_lt_of_le word with rfl | under
  · rfl
  · rw [Nat.mod_self, Nat.mod_eq_of_lt under] at same
    exact none.mpr (zero.mp same.symm) |>.trans same
  · rw [Nat.mod_self, Nat.mod_eq_of_lt below] at same
    exact same.trans (zero.mpr (none.mp same)).symm
  · rwa [Nat.mod_eq_of_lt below, Nat.mod_eq_of_lt under] at same

/-- The total is the largest word exactly when it divides the plain sum and that is not zero. -/
theorem total_eq_largest {ws : List Nat} (words : ∀ w ∈ ws, w ≤ m) (positive : 0 < ws.sum) :
    total m ws = m ↔ ws.sum % m = 0 := by
  obtain ⟨le, mod, pos⟩ := foldl_endAround words (Nat.zero_le m)
  rw [Nat.zero_add] at mod pos
  unfold total
  constructor
  · intro full
    rw [← mod, full, Nat.mod_self]
  · intro divides
    rw [divides] at mod
    have := Nat.le_of_dvd (pos positive) (Nat.dvd_of_mod_eq_zero mod)
    omega

/- Adding the part above the base `b` to the part below it takes multiples of `b - 1` away. -/
theorem carry_mod (b x : Nat) (base : 0 < b) : (x % b + x / b) % (b - 1) = x % (b - 1) := by
  have split : x % b + x / b + (b - 1) * (x / b) = x := by
    have := Nat.mod_add_div x b
    have whole : x / b + (b - 1) * (x / b) = b * (x / b) := by
      obtain ⟨c, rfl⟩ := Nat.exists_eq_succ_of_ne_zero (Nat.pos_iff_ne_zero.mp base)
      rw [Nat.succ_sub_one, Nat.succ_mul, Nat.add_comm]
    omega
  rw [← Nat.add_mul_mod_self_left, split]

/-! ### Words of bytes -/

/- The words of two bytes with the first the low one, or the high one. A last byte without a partner
   is the first of a word. -/
def littleWords : List UInt8 → List Nat
  | a :: b :: rest => (a.toNat + 256 * b.toNat) :: littleWords rest
  | [a] => [a.toNat]
  | [] => []

def bigWords : List UInt8 → List Nat
  | a :: b :: rest => (256 * a.toNat + b.toNat) :: bigWords rest
  | [a] => [256 * a.toNat]
  | [] => []

theorem littleWords_append (xs ys : List UInt8) (even : xs.length % 2 = 0) :
    littleWords (xs ++ ys) = littleWords xs ++ littleWords ys := by
  induction xs using littleWords.induct with
  | case1 a b rest ih =>
    rw [List.length_cons, List.length_cons] at even
    have := ih (by omega)
    simp only [List.cons_append, littleWords, this]
  | case2 a => simp at even
  | case3 => rfl

theorem bigWords_le (xs : List UInt8) : ∀ w ∈ bigWords xs, w ≤ 65535 := by
  induction xs using bigWords.induct with
  | case1 a b rest ih =>
    intro w member
    have := a.toNat_lt
    have := b.toNat_lt
    rcases List.mem_cons.mp member with rfl | later
    · omega
    · exact ih w later
  | case2 a =>
    intro w member
    have := a.toNat_lt
    obtain rfl := List.mem_singleton.mp member
    omega
  | case3 => simp [bigWords]

theorem littleWords_le (xs : List UInt8) : ∀ w ∈ littleWords xs, w ≤ 65535 := by
  induction xs using littleWords.induct with
  | case1 a b rest ih =>
    intro w member
    have := a.toNat_lt
    have := b.toNat_lt
    rcases List.mem_cons.mp member with rfl | later
    · omega
    · exact ih w later
  | case2 a =>
    intro w member
    have := a.toNat_lt
    obtain rfl := List.mem_singleton.mp member
    omega
  | case3 => simp [littleWords]

theorem littleWords_sum_le (xs : List UInt8) :
    (littleWords xs).sum ≤ 65535 * ((xs.length + 1) / 2) := by
  induction xs using littleWords.induct with
  | case1 a b rest ih =>
    have := a.toNat_lt
    have := b.toNat_lt
    simp only [littleWords, List.sum_cons, List.length_cons]
    omega
  | case2 a =>
    have := a.toNat_lt
    simp only [littleWords, List.sum_cons, List.sum_nil, List.length_cons, List.length_nil]
    omega
  | case3 => simp [littleWords]

/-- Whether the sum is a multiple of the largest word does not depend on the byte order. -/
theorem bigWords_sum_mod (xs : List UInt8) :
    (bigWords xs).sum % 65535 = 256 * (littleWords xs).sum % 65535 := by
  induction xs using bigWords.induct with
  | case1 a b rest ih =>
    simp only [bigWords, littleWords, List.sum_cons]
    omega
  | case2 a => simp [bigWords, littleWords]
  | case3 => rfl

theorem bigWords_sum_zero (xs : List UInt8) : (bigWords xs).sum = 0 ↔ (littleWords xs).sum = 0 := by
  induction xs using bigWords.induct with
  | case1 a b rest ih =>
    simp only [bigWords, littleWords, List.sum_cons]
    omega
  | case2 a => simp [bigWords, littleWords]
  | case3 => rfl

theorem bigWords_sum_dvd (xs : List UInt8) :
    (bigWords xs).sum % 65535 = 0 ↔ (littleWords xs).sum % 65535 = 0 := by
  rw [bigWords_sum_mod]
  omega

end OnesComplement
