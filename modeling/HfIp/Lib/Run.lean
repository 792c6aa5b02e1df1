import Mathlib.Tactic.Tauto

/- Runs of a system given by a partial step function with replies. `allowed` restricts the steps
   of a run by what has happened so far, the state before the step and the event. -/
namespace Transition

variable {State Ev Rep State' Ev' Rep' : Type}

inductive Run (step : State → Ev → Option (State × Rep))
    (allowed : List (Ev × Rep) → State → Ev → Prop) (first : State) :
    List (Ev × Rep) → State → Prop where
  | start : Run step allowed first [] first
  | next {trace : List (Ev × Rep)} {s t : State} {e : Ev} {r : Rep}
      (before : Run step allowed first trace s) (ok : allowed trace s e)
      (taken : step s e = some (t, r)) : Run step allowed first (trace ++ [(e, r)]) t

variable {step : State → Ev → Option (State × Rep)}
  {allowed allowed' : List (Ev × Rep) → State → Ev → Prop} {first : State}

/- The invariant rule: what holds at the start and is kept by every allowed step holds of every
   run and its trace. -/
theorem Run.invariant {Inv : List (Ev × Rep) → State → Prop} (base : Inv [] first)
    (keep : ∀ trace s e t r, Run step allowed first trace s → Inv trace s → allowed trace s e →
      step s e = some (t, r) → Inv (trace ++ [(e, r)]) t)
    {trace : List (Ev × Rep)} {s : State} (run : Run step allowed first trace s) :
    Inv trace s := by
  induction run with
  | start => exact base
  | next before ok taken ih => exact keep _ _ _ _ _ before ih ok taken

theorem Run.invariant_state {P : State → Prop} (base : P first)
    (keep : ∀ trace s e t r, P s → allowed trace s e → step s e = some (t, r) → P t)
    {trace : List (Ev × Rep)} {s : State} (run : Run step allowed first trace s) : P s := by
  induction run with
  | start => exact base
  | next before ok taken ih => exact keep _ _ _ _ _ ih ok taken

theorem Run.weaken (wider : ∀ trace s e, allowed trace s e → allowed' trace s e)
    {trace : List (Ev × Rep)} {s : State} (run : Run step allowed first trace s) :
    Run step allowed' first trace s := by
  induction run with
  | start => exact .start
  | next before ok taken ih => exact .next ih (wider _ _ _ ok) taken

/- A map of states, events and replies that commutes with every allowed step carries runs to
   runs. -/
theorem Run.map {step' : State' → Ev' → Option (State' × Rep')} (state : State → State')
    (ev : Ev → Ev') (rep : Rep → Rep')
    (commute : ∀ trace s e t r, Run step allowed first trace s → allowed trace s e →
      step s e = some (t, r) → step' (state s) (ev e) = some (state t, rep r))
    {trace : List (Ev × Rep)} {s : State} (run : Run step allowed first trace s) :
    Run step' (fun _ _ _ => True) (state first)
      (trace.map fun p => (ev p.1, rep p.2)) (state s) := by
  induction run with
  | start => exact .start
  | next before ok taken ih =>
    rw [List.map_append]
    exact .next ih trivial (commute _ _ _ _ _ before ok taken)

/- The simulation rule: a second system that answers every allowed step in kind, from related states to
   related states, has every run of the first. -/
theorem Run.simulate {step' : State' → Ev → Option (State' × Rep)} {first' : State'}
    (Rel : State → State' → Prop) (start : Rel first first')
    (answer : ∀ trace s s' e t r, Rel s s' → allowed trace s e → step s e = some (t, r) →
      ∃ t', step' s' e = some (t', r) ∧ Rel t t')
    {trace : List (Ev × Rep)} {s : State} (run : Run step allowed first trace s) :
    ∃ s', Run step' (fun _ _ _ => True) first' trace s' ∧ Rel s s' := by
  induction run with
  | start => exact ⟨first', .start, start⟩
  | next before ok taken ih =>
    obtain ⟨s', there, related⟩ := ih
    obtain ⟨t', taken', related'⟩ := answer _ _ _ _ _ _ related ok taken
    exact ⟨t', .next there trivial taken', related'⟩

/- Following a list of events, as far as each is allowed and can happen. -/
def follow (step : State → Ev → Option (State × Rep))
    (allowed : List (Ev × Rep) → State → Ev → Prop)
    [∀ trace s e, Decidable (allowed trace s e)] :
    List (Ev × Rep) → State → List Ev → Option (List (Ev × Rep) × State)
  | trace, s, [] => some (trace, s)
  | trace, s, e :: rest =>
    if allowed trace s e then
      match step s e with
      | none => none
      | some (t, r) => follow step allowed (trace ++ [(e, r)]) t rest
    else none

theorem Run.of_follow [∀ trace s e, Decidable (allowed trace s e)] (events : List Ev)
    {trace trace' : List (Ev × Rep)} {s t : State} (before : Run step allowed first trace s)
    (reached : follow step allowed trace s events = some (trace', t)) :
    Run step allowed first trace' t := by
  induction events generalizing trace s with
  | nil =>
    obtain ⟨rfl, rfl⟩ : trace = trace' ∧ s = t := by simpa [follow] using reached
    exact before
  | cons e rest ih =>
    simp only [follow] at reached
    split at reached
    · rename_i ok
      split at reached
      · contradiction
      · rename_i taken
        exact ih (.next before ok taken) reached
    · contradiction

/- A list of events that leads somewhere with property `P`, of the trace too. -/
theorem Run.exists_of_trace [∀ trace s e, Decidable (allowed trace s e)] (events : List Ev)
    {P : List (Ev × Rep) → State → Prop} [∀ trace s, Decidable (P trace s)]
    (found : (follow step allowed [] first events).any (fun p => decide (P p.1 p.2)) = true) :
    ∃ trace s, Run step allowed first trace s ∧ P trace s := by
  cases reached : follow step allowed [] first events with
  | none => simp [reached] at found
  | some p =>
    have holds : P p.1 p.2 := by simpa [reached] using found
    exact ⟨p.1, p.2, .of_follow events .start reached, holds⟩

theorem Run.exists_of_follow [∀ trace s e, Decidable (allowed trace s e)] (events : List Ev)
    {P : State → Prop} [DecidablePred P]
    (found : (follow step allowed [] first events).any (fun p => decide (P p.2)) = true) :
    ∃ trace s, Run step allowed first trace s ∧ P s :=
  Run.exists_of_trace events (P := fun _ => P) found

/-- Some step of the trace, taken in the state that the steps before it lead to from `first`, has
    property `P`. -/
def Occurs (step : State → Ev → Option (State × Rep)) (P : State → Ev → Prop) :
    State → List (Ev × Rep) → Prop
  | _, [] => False
  | s, (e, _) :: rest => P s e ∨ match step s e with
    | none => False
    | some (t, _) => Occurs step P t rest

instance Occurs.decidable (step : State → Ev → Option (State × Rep)) (P : State → Ev → Prop)
    [∀ s e, Decidable (P s e)] :
    (first : State) → (trace : List (Ev × Rep)) → Decidable (Occurs step P first trace)
  | _, [] => isFalse id
  | s, (e, _) :: rest =>
    have _later : Decidable (match step s e with
        | none => False
        | some (t, _) => Occurs step P t rest) :=
      match step s e with
      | none => isFalse id
      | some (t, _) => Occurs.decidable step P t rest
    inferInstanceAs (Decidable (_ ∨ _))

theorem Run.occurs_append {P : State → Ev → Prop} {trace : List (Ev × Rep)} {s : State}
    (run : Run step allowed first trace s) (more : List (Ev × Rep)) :
    Occurs step P first (trace ++ more) ↔ Occurs step P first trace ∨ Occurs step P s more := by
  induction run generalizing more with
  | start => simp [Occurs]
  | @next trace s t e r before ok taken ih =>
    rw [List.append_assoc, ih, ih]
    simp only [List.cons_append, List.nil_append, Occurs, taken]
    tauto

/- One step more. -/
theorem Run.occurs_snoc {P : State → Ev → Prop} {trace : List (Ev × Rep)} {s t : State} {e : Ev}
    {r : Rep} (run : Run step allowed first trace s) (taken : step s e = some (t, r)) :
    Occurs step P first (trace ++ [(e, r)]) ↔ Occurs step P first trace ∨ P s e := by
  rw [run.occurs_append]
  simp [Occurs, taken]

/- The step that has the property, after the run that leads to it. -/
theorem Run.occurs_split {P : State → Ev → Prop} {trace : List (Ev × Rep)} {s : State}
    (run : Run step allowed first trace s) (found : Occurs step P first trace) :
    ∃ before u e r t, before ++ [(e, r)] <+: trace ∧ Run step allowed first before u ∧
      allowed before u e ∧ P u e ∧ step u e = some (t, r) := by
  induction run with
  | start => cases found
  | @next trace s t e r before ok taken ih =>
    rcases (before.occurs_snoc taken).mp found with earlier | now
    · obtain ⟨before', u, e', r', t', front, rest⟩ := ih earlier
      exact ⟨before', u, e', r', t', front.trans (List.prefix_append _ _), rest⟩
    · exact ⟨trace, s, e, r, t, List.prefix_refl _, before, ok, now, taken⟩

/- Two properties that agree in the states of an invariant, which every step without them keeps, occur
   in the same runs. -/
theorem Run.occurs_iff {P Q : State → Ev → Prop} (Inv : State → Prop) (base : Inv first)
    (same : ∀ trace s e t r, Inv s → allowed trace s e → step s e = some (t, r) → (P s e ↔ Q s e))
    (keeps : ∀ trace s e t r, Inv s → allowed trace s e → ¬P s e → step s e = some (t, r) → Inv t)
    {trace : List (Ev × Rep)} {s : State} (run : Run step allowed first trace s) :
    Occurs step P first trace ↔ Occurs step Q first trace := by
  have both : (Occurs step P first trace ↔ Occurs step Q first trace) ∧
      (¬Occurs step P first trace → Inv s) := by
    induction run with
    | start => exact ⟨Iff.rfl, fun _ => base⟩
    | @next trace s t e r before ok taken ih =>
      obtain ⟨agree, inv⟩ := ih
      rw [before.occurs_snoc taken, before.occurs_snoc taken]
      by_cases earlier : Occurs step P first trace
      · exact ⟨iff_of_true (.inl earlier) (.inl (agree.mp earlier)), fun none => absurd (.inl earlier) none⟩
      · have here := same trace s e t r (inv earlier) ok taken
        refine ⟨or_congr agree here, fun none => ?_⟩
        exact keeps trace s e t r (inv earlier) ok (fun now => none (.inr now)) taken
  exact both.1

/-- An account kept along the trace: `note` enters a step, with the states before and after it. -/
def account {Acc : Type} (step : State → Ev → Option (State × Rep))
    (note : Acc → State → Ev → State → Acc) : Acc → State → List (Ev × Rep) → Acc
  | acc, _, [] => acc
  | acc, s, (e, _) :: rest => match step s e with
    | none => acc
    | some (t, _) => account step note (note acc s e t) t rest

theorem Run.account_append {Acc : Type} {note : Acc → State → Ev → State → Acc} {acc : Acc}
    {trace : List (Ev × Rep)} {s : State} (run : Run step allowed first trace s)
    (more : List (Ev × Rep)) : account step note acc first (trace ++ more) =
      account step note (account step note acc first trace) s more := by
  induction run generalizing more with
  | start => rfl
  | @next trace s t e r before ok taken ih =>
    rw [List.append_assoc, ih, ih]
    simp only [List.cons_append, List.nil_append, account, taken]

theorem Run.account_snoc {Acc : Type} {note : Acc → State → Ev → State → Acc} {acc : Acc}
    {trace : List (Ev × Rep)} {s t : State} {e : Ev} {r : Rep}
    (run : Run step allowed first trace s) (taken : step s e = some (t, r)) :
    account step note acc first (trace ++ [(e, r)]) =
      note (account step note acc first trace) s e t := by
  rw [run.account_append]
  simp only [account, taken]

/-- The same steps with the account beside the state. -/
def kept {Acc : Type} (step : State → Ev → Option (State × Rep))
    (note : Acc → State → Ev → State → Acc) (p : State × Acc) (e : Ev) : Option ((State × Acc) × Rep) :=
  (step p.1 e).map fun q => ((q.1, note p.2 p.1 e q.1), q.2)

theorem kept_taken {Acc : Type} {note : Acc → State → Ev → State → Acc} {p q : State × Acc} {e : Ev}
    {r : Rep} (taken : kept step note p e = some (q, r)) :
    step p.1 e = some (q.1, r) ∧ q.2 = note p.2 p.1 e q.1 := by
  obtain ⟨⟨t, r'⟩, here, eq⟩ := Option.map_eq_some_iff.mp taken
  obtain ⟨rfl, rfl⟩ := Prod.mk.inj eq
  exact ⟨here, rfl⟩

/- Every run has its account. -/
theorem Run.keep {Acc : Type} {note : Acc → State → Ev → State → Acc} (acc : Acc)
    {trace : List (Ev × Rep)} {s : State} (run : Run step allowed first trace s) :
    Run (kept step note) (fun trace p e => allowed trace p.1 e) (first, acc) trace
      (s, account step note acc first trace) := by
  induction run with
  | start => exact .start
  | @next trace s t e r before ok taken ih =>
    refine .next ih ok ?_
    rw [before.account_snoc taken, kept]
    simp only [taken, Option.map_some]

end Transition
