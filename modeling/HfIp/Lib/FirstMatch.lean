import Mathlib.Data.List.Basic

/- Looking an element up by a part of its key: the scan stops at the first element that has the part,
   so it finds the element with the whole key only where that one comes first. -/
namespace FirstMatch

variable {α : Type}

/-- The first element with `coarse`, if there is one, has `fine`. -/
def Agrees (coarse fine : α → Prop) [DecidablePred coarse] : List α → Prop
  | [] => True
  | a :: rest => if coarse a then fine a else Agrees coarse fine rest

instance Agrees.decidable (coarse fine : α → Prop) [DecidablePred coarse] [DecidablePred fine] :
    (xs : List α) → Decidable (Agrees coarse fine xs)
  | [] => isTrue trivial
  | a :: rest =>
    have _later : Decidable (Agrees coarse fine rest) := Agrees.decidable coarse fine rest
    inferInstanceAs (Decidable (if coarse a then fine a else Agrees coarse fine rest))

variable {coarse fine : α → Prop} [DecidablePred coarse]

/-- When no two places have the whole key, the scan finds the place with the whole key, and nothing
    where there is none, exactly if the first element with the part has the whole. -/
theorem findIdx_iff_agrees {xs : List α} (finer : ∀ a ∈ xs, fine a → coarse a)
    (once : ∀ (i j : Nat) (a b : α), xs[i]? = some a → xs[j]? = some b → fine a → fine b → i = j) :
    (∀ i, xs.findIdx? (fun a => decide (coarse a)) = some i ↔ ∃ a, xs[i]? = some a ∧ fine a) ↔
      Agrees coarse fine xs := by
  induction xs with
  | nil => simp [Agrees]
  | cons b rest ih =>
    by_cases here : coarse b
    · have first : (b :: rest).findIdx? (fun a => decide (coarse a)) = some 0 := by
        rw [List.findIdx?_cons, if_pos (decide_eq_true here)]
      unfold Agrees
      rw [if_pos here, first]
      constructor
      · intro exact_
        obtain ⟨a, there, whole⟩ := (exact_ 0).mp rfl
        obtain rfl := Option.some.inj there
        exact whole
      · intro whole i
        constructor
        · intro eq
          obtain rfl := Option.some.inj eq
          exact ⟨b, rfl, whole⟩
        · rintro ⟨a, there, also⟩
          exact congrArg some (once 0 i b a rfl there whole also)
    · have later : ∀ i, (b :: rest).findIdx? (fun a => decide (coarse a)) = some i ↔
          ∃ j, rest.findIdx? (fun a => decide (coarse a)) = some j ∧ j + 1 = i := by
        intro i
        rw [List.findIdx?_cons, if_neg (by simpa using here), Option.map_eq_some_iff]
      have other : ¬fine b := fun whole => here (finer b List.mem_cons_self whole)
      unfold Agrees
      rw [if_neg here, ← ih (fun a member => finer a (List.mem_cons_of_mem b member))
        (fun i j a c ha hc fa fc => Nat.succ.inj (once (i + 1) (j + 1) a c ha hc fa fc))]
      constructor
      · intro exact_ i
        rw [← List.getElem?_cons_succ (a := b), ← exact_ (i + 1), later]
        constructor
        · exact fun found => ⟨i, found, rfl⟩
        · rintro ⟨j, found, eq⟩
          obtain rfl := Nat.succ.inj eq
          exact found
      · intro exact_ i
        rw [later]
        cases i with
        | zero =>
          constructor
          · rintro ⟨j, -, eq⟩
            cases eq
          · rintro ⟨a, there, whole⟩
            obtain rfl := Option.some.inj there
            exact absurd whole other
        | succ i =>
          rw [List.getElem?_cons_succ, ← exact_ i]
          constructor
          · rintro ⟨j, found, eq⟩
            obtain rfl := Nat.succ.inj eq
            exact found
          · exact fun found => ⟨i, found, rfl⟩

end FirstMatch
