import Mathlib.Order.Lattice

/- Half-open intervals in ascending order, and the maximal runs of those that touch. -/
namespace Intervals

variable {α : Type} [LinearOrder α]

/-- Each interval has a point, and none begins before the one in front of it ends. -/
inductive Ascending : List (α × α) → Prop where
  | nil : Ascending []
  | one {a : α × α} (some : a.1 < a.2) : Ascending [a]
  | cons {a b : α × α} {rest : List (α × α)} (some : a.1 < a.2) (after : a.2 ≤ b.1)
      (tail : Ascending (b :: rest)) : Ascending (a :: b :: rest)

/- The runs of what follows `a`, the first of which begins with `a`. -/
def runsFrom (a : α × α) : List (α × α) → List (α × α)
  | [] => [a]
  | b :: rest => if a.2 = b.1 then runsFrom (a.1, b.2) rest else a :: runsFrom b rest

def runs : List (α × α) → List (α × α)
  | [] => []
  | a :: rest => runsFrom a rest

def Covers (list : List (α × α)) (x : α) : Prop := ∃ a ∈ list, a.1 ≤ x ∧ x < a.2

variable {a b : α × α} {list rest : List (α × α)} {x low : α}

theorem covers_cons : Covers (a :: list) x ↔ (a.1 ≤ x ∧ x < a.2) ∨ Covers list x := by
  unfold Covers
  simp only [List.mem_cons, exists_eq_or_imp]

theorem Ascending.head_lt (h : Ascending (a :: list)) : a.1 < a.2 := by
  cases h with
  | one some => exact some
  | cons some _ _ => exact some

theorem Ascending.tail (h : Ascending (a :: list)) : Ascending list := by
  cases h with
  | one _ => exact .nil
  | cons _ _ tail => exact tail

/- A run begins where its first interval begins. -/
theorem runsFrom_head (a : α × α) (list : List (α × α)) :
    ∃ stop rest, runsFrom a list = (a.1, stop) :: rest := by
  induction list generalizing a with
  | nil => exact ⟨a.2, [], rfl⟩
  | cons b rest ih =>
    rw [runsFrom]
    split
    · exact ih (a.1, b.2)
    · exact ⟨a.2, _, rfl⟩

theorem runsFrom_ne_nil (a : α × α) (list : List (α × α)) : runsFrom a list ≠ [] := by
  obtain ⟨stop, rest, eq⟩ := runsFrom_head a list
  rw [eq]
  exact List.cons_ne_nil _ _

/- The first two joined. -/
theorem Ascending.join (h : Ascending (a :: b :: rest)) : Ascending ((a.1, b.2) :: rest) := by
  cases h with
  | cons some after tail =>
    have longer : a.1 < b.2 := lt_trans some (lt_of_le_of_lt after tail.head_lt)
    cases tail with
    | one _ => exact .one longer
    | cons _ after' tail' => exact .cons longer after' tail'

theorem runsFrom_covers (h : Ascending (a :: list)) : Covers (runsFrom a list) x ↔ Covers (a :: list) x := by
  induction list generalizing a with
  | nil => rfl
  | cons b rest ih =>
    rw [runsFrom]
    split
    · rename_i touch
      rw [ih h.join, covers_cons, covers_cons, covers_cons, ← or_assoc]
      have first := h.head_lt
      have second := h.tail.head_lt
      refine or_congr_left ?_
      constructor
      · rintro ⟨lower, upper⟩
        rcases lt_or_ge x a.2 with before | after
        · exact .inl ⟨lower, before⟩
        · exact .inr ⟨touch ▸ after, upper⟩
      · rintro (⟨lower, upper⟩ | ⟨lower, upper⟩)
        · exact ⟨lower, lt_trans upper (touch ▸ second)⟩
        · exact ⟨le_trans (le_of_lt first) (touch ▸ lower), upper⟩
    · rw [covers_cons, ih h.tail]
      exact covers_cons.symm

/-- The runs have the points of the intervals. -/
theorem runs_covers (h : Ascending list) : Covers (runs list) x ↔ Covers list x := by
  cases list with
  | nil => rfl
  | cons a rest => exact runsFrom_covers h

/- Every run ends after it begins, and beyond `low` if the intervals begin beyond it. -/
theorem runsFrom_bounds (h : Ascending (a :: list)) (beyond : low < a.1) :
    ∀ r ∈ runsFrom a list, low < r.1 ∧ r.1 < r.2 := by
  induction list generalizing a with
  | nil =>
    intro r member
    obtain rfl := List.mem_singleton.mp member
    exact ⟨beyond, h.head_lt⟩
  | cons b rest ih =>
    rw [runsFrom]
    split
    · exact ih h.join beyond
    · intro r member
      rcases List.mem_cons.mp member with rfl | member
      · exact ⟨beyond, h.head_lt⟩
      · cases h with
        | cons some after tail =>
          exact ih tail (lt_of_lt_of_le (lt_trans beyond some) after) r member

/-- No run touches the next. -/
theorem runsFrom_separated (h : Ascending (a :: list)) :
    (runsFrom a list).Pairwise fun r q => r.2 < q.1 := by
  induction list generalizing a with
  | nil => exact List.pairwise_singleton _ _
  | cons b rest ih =>
    rw [runsFrom]
    split
    · exact ih h.join
    · rename_i apart
      cases h with
      | cons some after tail =>
        exact List.pairwise_cons.mpr ⟨fun r member =>
          (runsFrom_bounds tail (lt_of_le_of_ne after apart) r member).1, ih tail⟩

theorem runs_separated (h : Ascending list) : (runs list).Pairwise fun r q => r.2 < q.1 := by
  cases list with
  | nil => exact .nil
  | cons a rest => exact runsFrom_separated h

theorem runs_bounds (h : Ascending list) (beyond : ∀ a ∈ list, low < a.1) :
    ∀ r ∈ runs list, low < r.1 ∧ r.1 < r.2 := by
  cases list with
  | nil => intro r member; cases member
  | cons a rest => exact runsFrom_bounds h (beyond a (by simp))

end Intervals
