import Mathlib.Algebra.GroupWithZero.Nat
import Mathlib.Data.List.Basic

/- Ranges of numbers laid end to end. -/
namespace Tiling

/-- `len` numbers from `start` on. -/
structure Range where
  start : Nat
  len : Nat
  deriving DecidableEq, Repr

def Range.Has (r : Range) (n : Nat) : Prop := r.start ≤ n ∧ n < r.start + r.len

/-- The ranges, in the order of the list, lie from `first` up to `stop` without gap or overlap. -/
def Tiles : Nat → List Range → Nat → Prop
  | first, [], stop => first = stop
  | first, r :: rest, stop => r.start = first ∧ Tiles (first + r.len) rest stop

instance Tiles.decidable : (first : Nat) → (ranges : List Range) → (stop : Nat) →
    Decidable (Tiles first ranges stop)
  | first, [], stop => inferInstanceAs (Decidable (first = stop))
  | first, r :: rest, stop =>
    have _later : Decidable (Tiles (first + r.len) rest stop) := Tiles.decidable _ rest stop
    inferInstanceAs (Decidable (r.start = first ∧ _))

variable {first mid stop n : Nat} {ranges more : List Range}

theorem Tiles.append (front : Tiles first ranges mid) (back : Tiles mid more stop) :
    Tiles first (ranges ++ more) stop := by
  induction ranges generalizing first with
  | nil =>
    obtain rfl : first = mid := front
    exact back
  | cons r rest ih => exact ⟨front.1, ih front.2⟩

theorem Tiles.stop_eq (tiles : Tiles first ranges stop) :
    stop = first + (ranges.map Range.len).sum := by
  induction ranges generalizing first with
  | nil => simpa using (show first = stop from tiles).symm
  | cons r rest ih =>
    have later := ih tiles.2
    rw [List.map_cons, List.sum_cons]
    omega

/-- No number between the ends is left out. -/
theorem Tiles.covers (tiles : Tiles first ranges stop) (low : first ≤ n) (high : n < stop) :
    ∃ r ∈ ranges, r.Has n := by
  induction ranges generalizing first with
  | nil =>
    obtain rfl : first = stop := tiles
    omega
  | cons r rest ih =>
    obtain ⟨start, later⟩ := tiles
    by_cases inside : n < first + r.len
    · exact ⟨r, by simp, by omega, by omega⟩
    · obtain ⟨r', member, has⟩ := ih later (by omega)
      exact ⟨r', List.mem_cons_of_mem _ member, has⟩

end Tiling
