import HfIp.Lib.Run

/- Runs of a system seen by one of its components: a component takes part in some of the steps with a
   step of its own, and rests in the others. -/
namespace Transition

variable {State Ev Rep State' Ev' Rep' : Type}
  {step : State → Ev → Option (State × Rep)} {step' : State' → Ev' → Option (State' × Rep')}
  {allowed : List (Ev × Rep) → State → Ev → Prop} {first : State}
  {sees : State → Ev → Option Ev'} {rep : Rep → Rep'}

/-- What the component takes part in, along a trace from a state of the system. -/
def seenBy (step : State → Ev → Option (State × Rep)) (sees : State → Ev → Option Ev')
    (rep : Rep → Rep') : State → List (Ev × Rep) → List (Ev' × Rep')
  | _, [] => []
  | s, (e, r) :: rest => ((sees s e).map fun e' => (e', rep r)).toList ++ match step s e with
    | none => []
    | some (t, _) => seenBy step sees rep t rest

theorem Run.seenBy_append {trace : List (Ev × Rep)} {s : State}
    (run : Run step allowed first trace s) (more : List (Ev × Rep)) :
    seenBy step sees rep first (trace ++ more) =
      seenBy step sees rep first trace ++ seenBy step sees rep s more := by
  induction run generalizing more with
  | start => rfl
  | @next trace s t e r before ok taken ih =>
    rw [List.append_assoc, ih, ih, List.append_assoc]
    simp only [List.cons_append, List.nil_append, seenBy, taken, List.append_nil]

/- One step of the system, as the component sees it. -/
def Mirrors (step' : State' → Ev' → Option (State' × Rep')) (view : State → State') (rep : Rep → Rep')
    (seen : Option Ev') (s t : State) (r : Rep) : Prop :=
  match seen with
  | none => view t = view s
  | some e' => step' (view s) e' = some (view t, rep r)

/-- The projection rule: where each step of a run of the system is a step of the component or leaves it
    alone, the run is a run of the component by itself, with the same replies. -/
theorem Run.project (view : State → State')
    (mirrors : ∀ trace s e t r, Run step allowed first trace s → step s e = some (t, r) →
      Mirrors step' view rep (sees s e) s t r)
    {trace : List (Ev × Rep)} {s : State} (run : Run step allowed first trace s) :
    Run step' (fun _ _ _ => True) (view first) (seenBy step sees rep first trace) (view s) := by
  induction run with
  | start => exact .start
  | @next trace s t e r before ok taken ih =>
    have own := mirrors trace s e t r before taken
    rw [before.seenBy_append]
    simp only [seenBy, taken, List.append_nil]
    unfold Mirrors at own
    split at own
    · rename_i rests
      rw [rests, own]
      simpa using ih
    · rename_i e' takes
      rw [takes]
      exact .next ih trivial own

/- A run with a given trace ends in one state only. -/
theorem Run.unique {trace : List (Ev × Rep)} {s t : State} (here : Run step allowed first trace s)
    (there : Run step allowed first trace t) : s = t := by
  induction here generalizing t with
  | start =>
    generalize empty : ([] : List (Ev × Rep)) = trace at there
    cases there with
    | start => rfl
    | next before ok taken => simp at empty
  | @next trace s u e r before ok taken ih =>
    generalize same : trace ++ [(e, r)] = trace' at there
    cases there with
    | start => simp at same
    | @next trace' s' t e' r' before' ok' taken' =>
      obtain ⟨rfl, last⟩ := List.append_inj' same rfl
      obtain ⟨rfl, rfl⟩ : e = e' ∧ r = r' := by simpa using last
      obtain rfl := ih before'
      exact (Prod.mk.inj (Option.some.inj (taken.symm.trans taken'))).1

end Transition
