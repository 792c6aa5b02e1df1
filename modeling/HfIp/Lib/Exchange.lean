import HfIp.Lib.Run

/- Two parties that exchange messages over a network that delivers every message exactly once, in any
   order: a message is in flight from the step that sends it to the step that delivers it. -/
namespace Exchange

variable {State Msg Act : Type}

structure Net (State Msg : Type) where
  left : State
  right : State
  toLeft : List Msg
  toRight : List Msg
  deriving DecidableEq, Repr

inductive Side where
  | left | right
  deriving DecidableEq, Repr

/- The message delivered is named by its place among those in flight. -/
inductive Move (Act : Type) where
  | deliver (i : Nat)
  | act (a : Act)
  deriving DecidableEq, Repr

def Net.flip (n : Net State Msg) : Net State Msg := ⟨n.right, n.left, n.toRight, n.toLeft⟩

/-- No message is in flight. -/
def Net.Quiet (n : Net State Msg) : Prop := n.toLeft = [] ∧ n.toRight = []

instance [DecidableEq Msg] (n : Net State Msg) : Decidable n.Quiet :=
  inferInstanceAs (Decidable (_ ∧ _))

/- What a party does with a message it receives, or on its own, and the messages it sends then. -/
variable (receive : State → Msg → State × List Msg) (act : State → Act → Option (State × List Msg))

def stepLeft (n : Net State Msg) : Move Act → Option (Net State Msg)
  | .deliver i => n.toLeft[i]?.map fun m =>
    let r := receive n.left m
    ⟨r.1, n.right, n.toLeft.eraseIdx i, n.toRight ++ r.2⟩
  | .act a => (act n.left a).map fun r => { n with left := r.1, toRight := n.toRight ++ r.2 }

def step (n : Net State Msg) : Side × Move Act → Option (Net State Msg × Unit)
  | (.left, move) => (stepLeft receive act n move).map fun m => (m, ())
  | (.right, move) => (stepLeft receive act n.flip move).map fun m => (m.flip, ())

variable {receive act}
  {allowed : List ((Side × Move Act) × Unit) → Net State Msg → Side × Move Act → Prop}
  {first : Net State Msg} {P : State → List Msg → Prop}

/-- `P` of both parties, each with the messages in flight to it. -/
def Both (P : State → List Msg → Prop) (n : Net State Msg) : Prop :=
  P n.left n.toLeft ∧ P n.right n.toRight

theorem Both.flip {n : Net State Msg} (both : Both P n) : Both P n.flip := ⟨both.2, both.1⟩

theorem stepLeft_keeps {n m : Net State Msg} {move : Move Act}
    (receives : ∀ s ms t ns i msg, P s ms → P t ns → ms[i]? = some msg →
      P (receive s msg).1 (ms.eraseIdx i) ∧ P t (ns ++ (receive s msg).2))
    (acts : ∀ s ms t ns a s' sent, move = .act a → P s ms → P t ns → act s a = some (s', sent) →
      P s' ms ∧ P t (ns ++ sent))
    (both : Both P n) (taken : stepLeft receive act n move = some m) : Both P m := by
  cases move with
  | deliver i =>
    obtain ⟨msg, here, rfl⟩ := Option.map_eq_some_iff.mp taken
    exact receives _ _ _ _ i msg both.1 both.2 here
  | act a =>
    obtain ⟨r, done, rfl⟩ := Option.map_eq_some_iff.mp taken
    exact acts _ _ _ _ a r.1 r.2 rfl both.1 both.2 done

/- The invariant rule: what a delivery and an allowed action of one party keep of both holds of both
   in every run. -/
theorem run_both (base : Both P first)
    (receives : ∀ s ms t ns i msg, P s ms → P t ns → ms[i]? = some msg →
      P (receive s msg).1 (ms.eraseIdx i) ∧ P t (ns ++ (receive s msg).2))
    (acts : ∀ trace n side a s ms t ns s' sent, allowed trace n (side, .act a) → P s ms → P t ns →
      act s a = some (s', sent) → P s' ms ∧ P t (ns ++ sent))
    {trace : List ((Side × Move Act) × Unit)} {n : Net State Msg}
    (run : Transition.Run (step receive act) allowed first trace n) : Both P n := by
  refine run.invariant_state (P := Both P) base ?_
  rintro trace n ⟨side, move⟩ m _ both ok taken
  have own : ∀ s ms t ns a s' sent, move = .act a → P s ms → P t ns →
      act s a = some (s', sent) → P s' ms ∧ P t (ns ++ sent) := by
    rintro s ms t ns a s' sent rfl
    exact acts trace n side a s ms t ns s' sent ok
  cases side with
  | left =>
    obtain ⟨u, moved, same⟩ := Option.map_eq_some_iff.mp taken
    cases same
    exact stepLeft_keeps receives own both moved
  | right =>
    obtain ⟨u, moved, same⟩ := Option.map_eq_some_iff.mp taken
    cases same
    exact (stepLeft_keeps receives own both.flip moved).flip

/- Where a delivery sends nothing, the messages in flight can be delivered until there is none. -/
theorem run_drains (silent : ∀ s ms msg, P s ms → msg ∈ ms → (receive s msg).2 = [])
    (receives : ∀ s ms i msg, P s ms → ms[i]? = some msg → P (receive s msg).1 (ms.eraseIdx i))
    (deliveries : ∀ trace n side i, allowed trace n (side, .deliver i))
    {trace : List ((Side × Move Act) × Unit)} {n : Net State Msg}
    (run : Transition.Run (step receive act) allowed first trace n) (both : Both P n) :
    ∃ trace m, Transition.Run (step receive act) allowed first trace m ∧ m.Quiet := by
  obtain ⟨left, right, toLeft, toRight⟩ := n
  induction toLeft generalizing trace left with
  | cons msg rest ih =>
    have sent := silent _ _ msg both.1 (by simp)
    refine ih _ (run.next (deliveries trace _ .left 0) (t := ⟨(receive left msg).1, right, rest,
      toRight⟩) (r := ()) ?_) ⟨receives _ _ 0 msg both.1 rfl, both.2⟩
    simp [step, stepLeft, sent]
  | nil =>
    induction toRight generalizing trace right with
    | cons msg rest ih =>
      have sent := silent _ _ msg both.2 (by simp)
      refine ih _ (run.next (deliveries trace _ .right 0) (t := ⟨left, (receive right msg).1, [],
        rest⟩) (r := ()) ?_) ⟨both.1, receives _ _ 0 msg both.2 rfl⟩
      simp [step, stepLeft, Net.flip, sent]
    | nil => exact ⟨_, _, run, rfl, rfl⟩

end Exchange
