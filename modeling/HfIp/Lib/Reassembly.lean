import Mathlib.Data.List.Sort

/- Numbered items that arrive in any order: the first number still missing and, in order, the
   numbers that have come too early. -/
namespace Reassembly

/- Items at the head of `later` that continue from `next` are taken off it. -/
def drain (next : Nat) : List Nat → Nat × List Nat
  | [] => (next, [])
  | i :: rest => if i = next then drain (next + 1) rest else (next, i :: rest)

def insertNew (i : Nat) (later : List Nat) : List Nat :=
  if i ∈ later then later else later.orderedInsert (· ≤ ·) i

/-- All numbers below `next` have come, `next` has not, and `later` lists those beyond it in
    order. -/
structure Holds (come : Nat → Prop) (next : Nat) (later : List Nat) : Prop where
  below : ∀ i < next, come i
  missing : ¬come next
  beyond : ∀ i, i ∈ later ↔ come i ∧ next < i
  ordered : later.Pairwise (· < ·)

variable {come come' : Nat → Prop} {next : Nat} {later : List Nat}

theorem Holds.nothing : Holds (fun _ => False) 0 [] :=
  ⟨by simp, by simp, by simp, .nil⟩

theorem Holds.congr (same : ∀ i, come' i ↔ come i) (h : Holds come next later) :
    Holds come' next later := by
  obtain rfl : come' = come := funext fun i => propext (same i)
  exact h

/- Taking off what continues leaves the least missing number. -/
theorem Holds.drain (below : ∀ i < next, come i) (beyond : ∀ i, i ∈ later ↔ come i ∧ next ≤ i)
    (ordered : later.Pairwise (· < ·)) :
    Holds come (drain next later).1 (drain next later).2 := by
  induction later generalizing next with
  | nil =>
    have missing : ¬come next := fun here => by simpa using (beyond next).mpr ⟨here, Nat.le_refl _⟩
    refine ⟨below, missing, fun i => ?_, .nil⟩
    constructor
    · intro member
      cases member
    · intro h
      exact (beyond i).mpr ⟨h.1, Nat.le_of_lt h.2⟩
  | cons i rest ih =>
    obtain ⟨first, tail⟩ := List.pairwise_cons.mp ordered
    obtain ⟨here, lower⟩ := (beyond i).mp (by simp)
    rw [Reassembly.drain]
    split
    · rename_i same
      subst same
      refine ih (fun j lt => ?_) (fun j => ?_) tail
      · rcases Nat.lt_succ_iff_lt_or_eq.mp lt with lt | rfl
        · exact below j lt
        · exact here
      · constructor
        · intro member
          exact ⟨((beyond j).mp (by simp [member])).1, first j member⟩
        · intro h
          have member := (beyond j).mpr ⟨h.1, by omega⟩
          rcases List.mem_cons.mp member with rfl | member
          · omega
          · exact member
    · rename_i other
      have absent : ¬come next := by
        intro here
        have member := (beyond next).mpr ⟨here, Nat.le_refl _⟩
        rcases List.mem_cons.mp member with same | member
        · exact other same.symm
        · have := first next member
          omega
      refine ⟨below, absent, fun j => ?_, ordered⟩
      constructor
      · intro member
        obtain ⟨came, lower⟩ := (beyond j).mp member
        refine ⟨came, Nat.lt_of_le_of_ne lower ?_⟩
        rintro rfl
        exact absent came
      · intro h
        exact (beyond j).mpr ⟨h.1, Nat.le_of_lt h.2⟩

theorem insertNew_mem {i j : Nat} : j ∈ insertNew i later ↔ j = i ∨ j ∈ later := by
  unfold insertNew
  split
  · rename_i member
    constructor
    · exact .inr
    · rintro (rfl | h)
      · exact member
      · exact h
  · exact List.mem_orderedInsert _

theorem insertNew_ordered (i : Nat) (ordered : later.Pairwise (· < ·)) :
    (insertNew i later).Pairwise (· < ·) := by
  unfold insertNew
  split
  · exact ordered
  · rename_i absent
    induction later with
    | nil => simp
    | cons j rest ih =>
      obtain ⟨first, tail⟩ := List.pairwise_cons.mp ordered
      rw [List.orderedInsert_cons]
      have other : i ≠ j := fun same => absent (by simp [same])
      split
      · rename_i le
        refine List.pairwise_cons.mpr ⟨fun k member => ?_, ordered⟩
        rcases List.mem_cons.mp member with rfl | member
        · omega
        · have := first k member
          omega
      · rename_i gt
        refine List.pairwise_cons.mpr ⟨fun k member => ?_, ih tail fun h => absent (by simp [h])⟩
        rcases (List.mem_orderedInsert _).mp member with rfl | member
        · omega
        · exact first k member

/- A number beyond the missing one is kept for later. -/
theorem Holds.early {i : Nat} (h : Holds come next later) (lower : next < i) :
    Holds (fun j => j = i ∨ come j) next (insertNew i later) := by
  refine ⟨fun j lt => .inr (h.below j lt), ?_, fun j => ?_, insertNew_ordered i h.ordered⟩
  · rintro (same | here)
    · omega
    · exact h.missing here
  · rw [insertNew_mem, h.beyond]
    constructor
    · rintro (rfl | h)
      · exact ⟨.inl rfl, lower⟩
      · exact ⟨.inr h.1, h.2⟩
    · rintro ⟨rfl | h, lt⟩
      · exact .inl rfl
      · exact .inr ⟨h, lt⟩

/- The missing number itself lets everything that continues it through. -/
theorem Holds.arrives (h : Holds come next later) :
    Holds (fun j => j = next ∨ come j) (Reassembly.drain (next + 1) later).1
      (Reassembly.drain (next + 1) later).2 := by
  refine Holds.drain (fun j lt => ?_) (fun j => ?_) h.ordered
  · rcases Nat.lt_succ_iff_lt_or_eq.mp lt with lt | rfl
    · exact .inr (h.below j lt)
    · exact .inl rfl
  · rw [h.beyond]
    constructor
    · intro h
      exact ⟨.inr h.1, h.2⟩
    · rintro ⟨rfl | here, lower⟩
      · omega
      · exact ⟨here, lower⟩

end Reassembly
