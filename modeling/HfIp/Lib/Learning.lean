import Mathlib.Data.List.Induction
import Mathlib.Logic.Function.Basic

/- A table that learns from notes: a note about a key it has is always taken over, a note about a new
   key only when it is an invited one. -/
namespace Learning

variable {K V : Type} [DecidableEq K]

structure Note (K V : Type) where
  key : K
  value : V
  invited : Bool

def learn (m : K → Option V) (n : Note K V) : K → Option V :=
  if (m n.key).isSome ∨ n.invited then Function.update m n.key (some n.value) else m

def learned (notes : List (Note K V)) : K → Option V := notes.foldl learn fun _ => none

/-- Some note about the key was invited. -/
def Met (notes : List (Note K V)) (a : K) : Prop := ∃ n ∈ notes, n.key = a ∧ n.invited = true

instance (notes : List (Note K V)) (a : K) : Decidable (Met notes a) :=
  inferInstanceAs (Decidable (∃ n ∈ notes, _))

/-- The last note about the key. -/
def latest (notes : List (Note K V)) (a : K) : Option V :=
  ((notes.filter fun n => n.key = a).getLast?).map Note.value

theorem learned_snoc (notes : List (Note K V)) (n : Note K V) :
    learned (notes ++ [n]) = learn (learned notes) n := by
  simp [learned]

theorem met_snoc (notes : List (Note K V)) (n : Note K V) (a : K) :
    Met (notes ++ [n]) a ↔ Met notes a ∨ (n.key = a ∧ n.invited = true) := by
  unfold Met
  constructor
  · rintro ⟨x, member, about, invited⟩
    rcases List.mem_append.mp member with old | new
    · exact .inl ⟨x, old, about, invited⟩
    · obtain rfl := List.mem_singleton.mp new
      exact .inr ⟨about, invited⟩
  · rintro (⟨x, member, about, invited⟩ | ⟨about, invited⟩)
    · exact ⟨x, List.mem_append_left _ member, about, invited⟩
    · exact ⟨n, by simp, about, invited⟩

theorem latest_snoc (notes : List (Note K V)) (n : Note K V) (a : K) :
    latest (notes ++ [n]) a = if n.key = a then some n.value else latest notes a := by
  unfold latest
  rw [List.filter_append]
  by_cases about : n.key = a
  · simp [about]
  · simp [about]

theorem latest_isSome_of_met {notes : List (Note K V)} {a : K} (met : Met notes a) :
    (latest notes a).isSome = true := by
  obtain ⟨n, member, about, -⟩ := met
  unfold latest
  rw [Option.isSome_map, List.getLast?_isSome]
  exact List.ne_nil_of_mem (List.mem_filter.mpr ⟨member, by simpa using about⟩)

/-- The table knows the keys it has met, each by the last note about it. -/
theorem learned_eq (notes : List (Note K V)) (a : K) :
    learned notes a = if Met notes a then latest notes a else none := by
  induction notes using List.reverseRecOn with
  | nil => simp [learned, Met]
  | append_singleton notes n ih =>
    rw [learned_snoc, latest_snoc]
    unfold learn
    by_cases about : n.key = a
    · subst about
      by_cases met : Met notes n.key
      · have known : (learned notes n.key).isSome = true := by
          rw [ih, if_pos met]
          exact latest_isSome_of_met met
        rw [if_pos (.inl known), if_pos ((met_snoc notes n _).mpr (.inl met)), if_pos rfl]
        exact Function.update_self _ _ _
      · have unknown : learned notes n.key = none := by rw [ih, if_neg met]
        cases invited : n.invited with
        | true =>
          rw [if_pos (.inr rfl), if_pos ((met_snoc notes n _).mpr (.inr ⟨rfl, invited⟩)), if_pos rfl]
          exact Function.update_self _ _ _
        | false =>
          have still : ¬Met (notes ++ [n]) n.key := by
            rw [met_snoc, invited]
            simpa using met
          rw [if_neg (by simp [unknown]), if_neg still, unknown]
    · have met : Met (notes ++ [n]) a ↔ Met notes a := by
        rw [met_snoc]
        simp [about]
      rw [if_neg about]
      simp only [met]
      rw [← ih]
      split
      · exact Function.update_of_ne (fun same => about same.symm) _ _
      · rfl

end Learning
