import Mathlib.Data.List.Basic

/- The elements of a list that have a property, taken out by their positions and written back over them
   in the same order. -/
namespace Scatter

variable {α β : Type}

/- The positions of the elements with `p`, counted from `i`. -/
def positions (p : α → Bool) : Nat → List α → List Nat
  | _, [] => []
  | i, x :: rest => if p x then i :: positions p (i + 1) rest else positions p (i + 1) rest

def gather (xs : List α) (is : List Nat) : List α := is.filterMap (xs[·]?)

/- `write x b` is the element `x` after the value `b` has been written over it. -/
def scatter (write : α → β → α) (xs : List α) : List Nat → List β → List α
  | i :: is, b :: bs => scatter write (xs.modify i fun x => write x b) is bs
  | _, _ => xs

/- The same in one pass. -/
def weave (p : α → Bool) (write : α → β → α) : List α → List β → List α
  | x :: xs, b :: bs => if p x then write x b :: weave p write xs bs else x :: weave p write xs (b :: bs)
  | xs, [] => xs
  | [], _ :: _ => []

variable {p : α → Bool} {write : α → β → α}

theorem length_positions (p : α → Bool) (i : Nat) (xs : List α) :
    (positions p i xs).length = xs.countP p := by
  induction xs generalizing i with
  | nil => rfl
  | cons x rest ih =>
    rw [positions, List.countP_cons]
    split
    · rw [List.length_cons, ih]
    · exact ih _

theorem countP_of_map {xs ys : List α} (same : xs.map p = ys.map p) : xs.countP p = ys.countP p := by
  have through (zs : List α) : zs.countP p = (zs.map p).countP id := by
    rw [List.countP_map]
    rfl
  rw [through, through, same]

theorem positions_congr {q : α → Bool} {i : Nat} {xs ys : List α} (same : xs.map p = ys.map q) :
    positions p i xs = positions q i ys := by
  induction xs generalizing i ys with
  | nil =>
    obtain rfl : ys = [] := List.map_eq_nil_iff.mp same.symm
    rfl
  | cons x rest ih =>
    cases ys with
    | nil => cases same
    | cons y others =>
      obtain ⟨first, later⟩ := List.cons.inj same
      rw [positions, positions, first, ih later]

/- Before the first position there is no element with `p`. -/
theorem positions_front {i first : Nat} {xs : List α} {more : List Nat}
    (found : positions p i xs = first :: more) :
    ∃ front rest, xs = front ++ rest ∧ first = i + front.length ∧ ∀ x ∈ front, p x = false := by
  induction xs generalizing i with
  | nil => cases found
  | cons x xs ih =>
    rw [positions] at found
    split at found
    · obtain ⟨rfl, -⟩ := List.cons.inj found
      exact ⟨[], x :: xs, rfl, rfl, fun y member => nomatch member⟩
    · rename_i lacks
      obtain ⟨front, rest, rfl, place, none⟩ := ih found
      refine ⟨x :: front, rest, rfl, by rw [place, List.length_cons]; omega, fun y member => ?_⟩
      rcases List.mem_cons.mp member with rfl | later
      · simpa using lacks
      · exact none y later

/-- From the first position on there is room for all elements with `p`. -/
theorem positions_room (p : α → Bool) (xs : List α) : ∃ front rest, xs = front ++ rest ∧
    front.length = (positions p 0 xs).headD 0 ∧ (∀ x ∈ front, p x = false) ∧
    xs.countP p ≤ rest.length := by
  cases found : positions p 0 xs with
  | nil =>
    have none : xs.countP p = 0 := by
      rw [← length_positions p 0, found]
      rfl
    exact ⟨[], xs, rfl, rfl, by simp, none ▸ Nat.zero_le _⟩
  | cons first more =>
    obtain ⟨front, rest, rfl, place, none⟩ := positions_front found
    refine ⟨front, rest, rfl, by rw [place, List.headD_cons, Nat.zero_add], none, ?_⟩
    have nowhere : front.countP p = 0 := List.countP_eq_zero.mpr fun x member => by simp [none x member]
    rw [List.countP_append, nowhere, Nat.zero_add]
    exact List.countP_le_length

theorem gather_from (before xs : List α) :
    gather (before ++ xs) (positions p before.length xs) = xs.filter p := by
  induction xs generalizing before with
  | nil => rfl
  | cons x rest ih =>
    have later := ih (before ++ [x])
    rw [List.append_assoc, List.singleton_append, List.length_append, List.length_singleton] at later
    rw [positions, List.filter_cons]
    split
    · have here : (before ++ x :: rest)[before.length]? = some x := by simp
      rw [← later, gather, gather, List.filterMap_cons, here]
    · exact later

theorem gather_positions (p : α → Bool) (xs : List α) : gather xs (positions p 0 xs) = xs.filter p :=
  gather_from [] xs

theorem modify_middle (before : List α) (x : α) (rest : List α) (f : α → α) :
    (before ++ x :: rest).modify before.length f = before ++ f x :: rest := by
  induction before with
  | nil => rfl
  | cons y others ih => rw [List.cons_append, List.length_cons, List.modify_succ_cons, ih, List.cons_append]

theorem scatter_from (before xs : List α) (bs : List β) :
    scatter write (before ++ xs) (positions p before.length xs) bs = before ++ weave p write xs bs := by
  induction xs generalizing before bs with
  | nil => cases bs <;> rfl
  | cons x rest ih =>
    have later (y : α) (bs : List β) : scatter write (before ++ y :: rest)
        (positions p (before.length + 1) rest) bs = before ++ y :: weave p write rest bs := by
      have step := ih (before ++ [y]) bs
      rw [List.length_append, List.length_singleton] at step
      simpa using step
    cases bs with
    | nil => simp [scatter, weave]
    | cons b bs =>
      rw [positions, weave]
      split
      · rw [scatter, modify_middle, later]
      · rw [later]

theorem weave_nil (xs : List α) : weave p write xs [] = xs := by cases xs <;> rfl

theorem length_weave (xs : List α) (bs : List β) : (weave p write xs bs).length = xs.length := by
  fun_induction weave p write xs bs with
  | case1 x xs b bs _ ih => rw [List.length_cons, List.length_cons, ih]
  | case2 x xs b bs _ ih => rw [List.length_cons, List.length_cons, ih]
  | case3 xs => rfl
  | case4 b bs => rfl

/- The place of an element among those with `p` says which value it gets. -/
theorem getElem?_weave (xs : List α) (bs : List β) (i : Nat) : (weave p write xs bs)[i]? =
    xs[i]?.map fun x => if p x then (bs[(xs.take i).countP p]?).elim x (write x) else x := by
  fun_induction weave p write xs bs generalizing i with
  | case1 x xs b bs has ih =>
    cases i with
    | zero => simp [has]
    | succ i => simp [has, ih]
  | case2 x xs b bs has ih =>
    cases i with
    | zero => simp [has]
    | succ i => simp [has, ih]
  | case3 xs => simp
  | case4 b bs => simp

theorem countP_weave {q : α → Bool} {r : β → Bool} (written : ∀ x b, q (write x b) = r b) (xs : List α)
    (bs : List β) (enough : bs.length = xs.countP p) :
    (weave p write xs bs).countP q = (xs.filter fun x => !p x).countP q + bs.countP r := by
  fun_induction weave p write xs bs with
  | case1 x xs b bs has ih =>
    have fewer := ih (by simpa [has] using enough)
    rw [List.countP_cons, List.countP_cons, fewer, written, List.filter_cons_of_neg (by simp [has])]
    omega
  | case2 x xs b bs has ih =>
    have fewer := ih (by simpa [has] using enough)
    rw [List.filter_cons_of_pos (by simp [has]), List.countP_cons, fewer, @List.countP_cons _ q]
    omega
  | case3 xs =>
    have none : ∀ x ∈ xs, (!p x) = true := by
      intro x member
      simpa using List.countP_eq_zero.mp enough.symm x member
    rw [List.filter_eq_self.mpr none]
    rfl
  | case4 b bs => simp at enough

/- The place of an element among those with `p`, where `p` holds of it. -/
theorem getElem?_filter {xs : List α} {i : Nat} {x : α} (here : xs[i]? = some x) (has : p x = true) :
    (xs.filter p)[(xs.take i).countP p]? = some x := by
  obtain ⟨inside, rfl⟩ := List.getElem?_eq_some_iff.mp here
  have split : xs = xs.take i ++ xs[i] :: xs.drop (i + 1) := by
    rw [← List.drop_eq_getElem_cons inside, List.take_append_drop]
  rw [List.countP_eq_length_filter]
  conv_lhs => rw [split]
  rw [List.filter_append, List.filter_cons_of_pos has]
  simp

theorem scatter_positions (xs : List α) (bs : List β) :
    scatter write xs (positions p 0 xs) bs = weave p write xs bs := scatter_from [] xs bs

end Scatter
