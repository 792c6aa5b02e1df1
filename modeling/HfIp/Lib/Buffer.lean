import Mathlib.Data.List.Basic

/- Fields of a block of memory, and writing over one of them in place. -/
namespace Buffer

variable {α : Type}

def field (m : List α) (i n : Nat) : List α := (m.drop i).take n

/- Writes behind the end are lost. -/
def put (m : List α) (i : Nat) : List α → List α
  | [] => m
  | b :: rest => put (m.set i b) (i + 1) rest

@[simp] theorem length_put (m : List α) (i : Nat) (bs : List α) : (put m i bs).length = m.length := by
  induction bs generalizing m i with
  | nil => rfl
  | cons b rest ih => rw [put, ih, List.length_set]

theorem length_field {m : List α} {i n : Nat} (fits : i + n ≤ m.length) : (field m i n).length = n := by
  rw [field, List.length_take, List.length_drop]
  omega

theorem field_append (m : List α) (i n k : Nat) :
    field m i (n + k) = field m i n ++ field m (i + n) k := by
  rw [field, List.take_add, List.drop_drop]
  rfl

theorem field_field (m : List α) {i n j k : Nat} (inside : j + k ≤ n) :
    field (field m i n) j k = field m (i + j) k := by
  rw [field, field, field, List.drop_take, List.take_take, List.drop_drop, Nat.min_eq_left (by omega)]

theorem field_left {a rest : List α} {n : Nat} (long : a.length = n) :
    field (a ++ rest) 0 n = a := by
  rw [field, List.drop_zero, List.take_append_of_le_length (by omega), List.take_of_length_le (by omega)]

theorem field_whole (m : List α) : field m 0 m.length = m := by
  rw [field, List.drop_zero, List.take_length]

theorem field_right {a rest : List α} {i n : Nat} (behind : a.length ≤ i) :
    field (a ++ rest) i n = field rest (i - a.length) n := by
  rw [field, field, List.drop_append, List.drop_of_length_le behind, List.nil_append]

theorem field_split {m a b : List α} {i n k : Nat} (here : field m i (n + k) = a ++ b)
    (long : a.length = n) : field m i n = a ∧ field m (i + n) k = b := by
  have short : (a ++ b).length ≤ n + k := by
    rw [← here]
    exact List.length_take_le _ _
  rw [List.length_append] at short
  constructor
  · calc
      field m i n = field (field m i (n + k)) 0 n := by rw [field_field m (by omega), Nat.add_zero]
      _ = a := by rw [here, field_left long]
  · calc
      field m (i + n) k = field (field m i (n + k)) n k := by rw [field_field m (by omega)]
      _ = b := by
        rw [here, field_right (Nat.le_of_eq long), long, Nat.sub_self, field, List.drop_zero,
          List.take_of_length_le (by omega)]

theorem field_set_other (m : List α) (b : α) {i j n : Nat} (apart : j + n ≤ i ∨ i < j) :
    field (m.set i b) j n = field m j n := by
  unfold field
  rcases apart with before | after
  · by_cases inside : i < j
    · rw [List.drop_set_of_lt inside]
    · rw [List.drop_set, if_neg inside, List.take_set_of_le (by omega)]
  · rw [List.drop_set_of_lt after]

theorem field_put_other (m bs : List α) {i j n : Nat} (apart : j + n ≤ i ∨ i + bs.length ≤ j) :
    field (put m i bs) j n = field m j n := by
  induction bs generalizing m i with
  | nil => rfl
  | cons b rest ih =>
    rw [List.length_cons] at apart
    rw [put, ih _ (by omega), field_set_other _ _ (by omega)]

theorem put_append (m a b : List α) (i : Nat) :
    put m i (a ++ b) = put (put m i a) (i + a.length) b := by
  induction a generalizing m i with
  | nil => rfl
  | cons x rest ih =>
    rw [List.cons_append, put, put, ih, List.length_cons, Nat.add_assoc, Nat.add_comm 1]

theorem put_middle (a : List α) {b c : List α} (rest : List α) (long : c.length = b.length) :
    put (a ++ b ++ rest) a.length c = a ++ c ++ rest := by
  induction b generalizing a c with
  | nil =>
    obtain rfl := List.eq_nil_of_length_eq_zero long
    rfl
  | cons x b ih =>
    cases c with
    | nil => cases long
    | cons y c =>
      have later := ih (a ++ [y]) (Nat.succ.inj long)
      rw [List.length_append, List.length_singleton] at later
      have first : (a ++ x :: b ++ rest).set a.length y = a ++ [y] ++ b ++ rest := by simp
      rw [put, first, later]
      simp

theorem getElem?_put_other (m bs : List α) {i k : Nat} (apart : k < i ∨ i + bs.length ≤ k) :
    (put m i bs)[k]? = m[k]? := by
  induction bs generalizing m i with
  | nil => rfl
  | cons b rest ih =>
    rw [List.length_cons] at apart
    rw [put, ih _ (by omega), List.getElem?_set_ne (by omega)]

theorem getElem?_put_here (m bs : List α) {i k : Nat} (inside : k < bs.length)
    (fits : i + k < m.length) : (put m i bs)[i + k]? = bs[k]? := by
  induction bs generalizing m i k with
  | nil => exact absurd inside (Nat.not_lt_zero k)
  | cons b rest ih =>
    rw [put]
    cases k with
    | zero =>
      rw [getElem?_put_other _ _ (by omega), Nat.add_zero, List.getElem?_set_self (by omega)]
      rfl
    | succ k =>
      rw [List.length_cons] at inside
      have later := ih (m.set i b) (i := i + 1) (k := k) (by omega) (by rw [List.length_set]; omega)
      rw [show i + (k + 1) = i + 1 + k by omega, later]
      rfl

theorem field_put_self (m bs : List α) {i : Nat} (fits : i + bs.length ≤ m.length) :
    field (put m i bs) i bs.length = bs := by
  induction bs generalizing m i with
  | nil => rw [List.length_nil, field, List.take_zero]
  | cons b rest ih =>
    rw [List.length_cons] at fits
    have first : field (put (m.set i b) (i + 1) rest) i 1 = [b] := by
      rw [field_put_other _ _ (.inl (Nat.le_refl _)), field, List.drop_set, if_neg (by omega),
        Nat.sub_self, List.drop_eq_getElem_cons (by omega)]
      rfl
    rw [put, List.length_cons, Nat.add_comm rest.length 1, field_append, first,
      ih _ (by rw [List.length_set]; omega)]
    rfl

theorem getElem?_field (m : List α) {i n k : Nat} (inside : k < n) : (field m i n)[k]? = m[i + k]? := by
  rw [field, List.getElem?_take, if_pos inside, List.getElem?_drop]

/-- A write into a field, seen from the field. -/
theorem field_put_inside (m bs : List α) {i j n : Nat} (fits : i + n ≤ m.length) : field (put m (i + j) bs) i n = put (field m i n) j bs := by
  have long : (field m i n).length = n := length_field fits
  apply List.ext_getElem?
  intro k
  by_cases within : k < n
  · rw [getElem?_field _ within]
    by_cases here : j ≤ k ∧ k < j + bs.length
    · obtain ⟨d, rfl⟩ := Nat.exists_eq_add_of_le here.1
      have position : d < bs.length := by omega
      rw [getElem?_put_here _ _ position (by omega), ← Nat.add_assoc,
        getElem?_put_here _ _ position (by omega)]
    · rw [getElem?_put_other _ _ (by omega), getElem?_put_other _ _ (by omega), getElem?_field _ within]
  · have short : (field (put m (i + j) bs) i n).length = n := length_field (by simpa using fits)
    rw [List.getElem?_eq_none (by omega), List.getElem?_eq_none (by rw [length_put]; omega)]

end Buffer
