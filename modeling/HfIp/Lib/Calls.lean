import Mathlib.Data.List.Basic

/- A system that takes calls one after another; every call returns. -/
namespace Calls

variable {State Call : Type} {step : State → Call → State}

def after (step : State → Call → State) : State → List Call → State
  | s, [] => s
  | s, c :: rest => after step (step s c) rest

/-- Where proper calls keep an invariant that makes the states right, and every other call leads to a
    state that is not, all states are right exactly when all calls are proper. -/
theorem right_throughout_iff (Good : State → Prop) {Right : State → Prop}
    {Proper : State → Call → Prop}
    (right : ∀ s, Good s → Right s) (keeps : ∀ s c, Good s → Proper s c → Good (step s c))
    (spoils : ∀ s c, Good s → Right (step s c) → Proper s c) {s : State} (good : Good s)
    (calls : List Call) :
    (∀ n, Right (after step s (calls.take n))) ↔
      ∀ n c, calls[n]? = some c → Proper (after step s (calls.take n)) c := by
  induction calls generalizing s with
  | nil => simp [after, right s good]
  | cons first rest ih =>
    constructor
    · intro throughout n c here
      have proper : Proper s first := spoils s first good (throughout 1)
      cases n with
      | zero =>
        obtain rfl : first = c := by simpa using here
        exact proper
      | succ n =>
        exact (ih (keeps s first good proper)).mp (fun k => throughout (k + 1)) n c here
    · intro proper n
      have next : Good (step s first) := keeps s first good (proper 0 first rfl)
      cases n with
      | zero => exact right s good
      | succ n => exact (ih next).mpr (fun k c here => proper (k + 1) c here) n

end Calls
