import HfIp.Lib.Projection
import Mathlib.Logic.Function.Basic

/- Calls of a service from afar. Each client writes its call to a stream of its own and waits; a thread of
   the service reads the call, makes it, in as many steps as it takes, and writes back the answer. -/
namespace Remote

open Transition

variable {I S Ev Rep Byte Call Choice Wait Ans Res Junk : Type} [DecidableEq I]

/- `own` are the steps that are no part of a call. `serve` begins a call, or goes on with one that waits;
   what neither the call nor the state says is the choice. -/
structure Service (S Ev Rep Call Choice Wait Ans : Type) where
  own : S → Ev → Option (S × Rep)
  serve : S → Call ⊕ Wait → Choice → Option (S × (Wait ⊕ Ans))

/- `receive` reads from a stream into a buffer that is used again, and returns what is left of the stream;
   `result` reads too. The junk is what was in memory before. -/
structure Wire (Byte Call Ans Res Junk : Type) where
  request : Call → Junk → List Byte
  receive : List Byte → List Byte → Option (Call × List Byte × List Byte)
  respond : Call → Ans → Junk → List Byte
  result : Call → Junk → List Byte → Res × List Byte

/-! ### Calls made directly -/

/- With the calls that wait and the answers that have been given. -/
structure Direct (I S Call Wait Ans : Type) where
  state : S
  running : I → Option (Call × Wait)
  done : I → List (Call × Ans)

inductive DirectEv (I Ev Call Choice : Type) where
  | own (e : Ev)
  | start (i : I) (c : Call) (choice : Choice)
  | resume (i : I) (choice : Choice)

def Direct.settle (d : Direct I S Call Wait Ans) (i : I) (c : Call) (s : S) :
    Wait ⊕ Ans → Direct I S Call Wait Ans
  | .inl w => { d with state := s, running := Function.update d.running i (some (c, w)) }
  | .inr a =>
    { state := s
      running := Function.update d.running i none
      done := Function.update d.done i (d.done i ++ [(c, a)]) }

def directStep (sv : Service S Ev Rep Call Choice Wait Ans) (d : Direct I S Call Wait Ans) :
    DirectEv I Ev Call Choice → Option (Direct I S Call Wait Ans × Option Rep)
  | .own e => (sv.own d.state e).map fun q => ({ d with state := q.1 }, some q.2)
  | .start i c choice =>
    match d.running i with
    | some _ => none
    | none => (sv.serve d.state (.inl c) choice).map fun q => (d.settle i c q.1 q.2, none)
  | .resume i choice =>
    match d.running i with
    | none => none
    | some p => (sv.serve d.state (.inr p.2) choice).map fun q => (d.settle i p.1 q.1 q.2, none)

/-! ### Calls from afar -/

/- One client and its thread: the call that the client waits for, the streams both ways, the thread's
   buffer and the call it is in. Histories: `told` is what the client has heard, `done` what its calls
   have been answered. -/
structure Session (Byte Call Wait Ans Res : Type) where
  asked : Option Call := none
  up : List Byte := []
  buf : List Byte
  running : Option (Call × Wait) := none
  down : List Byte := []
  told : List (Call × Res) := []
  done : List (Call × Ans) := []

structure System (I S Byte Call Wait Ans Res : Type) where
  state : S
  sessions : I → Session Byte Call Wait Ans Res

inductive RemoteEv (I Ev Call Choice Junk : Type) where
  | own (e : Ev)
  | ask (i : I) (c : Call) (junk : Junk)
  | handle (i : I) (choice : Choice) (junk : Junk)
  | resume (i : I) (choice : Choice) (junk : Junk)
  | hear (i : I) (junk : Junk)

/- The thread's call waits, or its answer is written. -/
def Session.settle (wire : Wire Byte Call Ans Res Junk) (u : Session Byte Call Wait Ans Res) (c : Call)
    (junk : Junk) : Wait ⊕ Ans → Session Byte Call Wait Ans Res
  | .inl w => { u with running := some (c, w) }
  | .inr a =>
    { u with running := none, down := u.down ++ wire.respond c a junk, done := u.done ++ [(c, a)] }

def System.put (y : System I S Byte Call Wait Ans Res) (s : S) (i : I)
    (u : Session Byte Call Wait Ans Res) : System I S Byte Call Wait Ans Res :=
  { state := s, sessions := Function.update y.sessions i u }

/- A read waits for something to read. -/
def remoteStep (sv : Service S Ev Rep Call Choice Wait Ans) (wire : Wire Byte Call Ans Res Junk)
    (y : System I S Byte Call Wait Ans Res) :
    RemoteEv I Ev Call Choice Junk → Option (System I S Byte Call Wait Ans Res × Option Rep)
  | .own e => (sv.own y.state e).map fun q => ({ y with state := q.1 }, some q.2)
  | .ask i c junk =>
    let u := y.sessions i
    match u.asked with
    | some _ => none
    | none => some (y.put y.state i { u with asked := some c, up := u.up ++ wire.request c junk }, none)
  | .handle i choice junk =>
    let u := y.sessions i
    match u.running, wire.receive u.buf u.up with
    | none, some (c, buf, rest) => (sv.serve y.state (.inl c) choice).map fun q =>
        (y.put q.1 i ({ u with up := rest, buf := buf }.settle wire c junk q.2), none)
    | _, _ => none
  | .resume i choice junk =>
    let u := y.sessions i
    match u.running with
    | none => none
    | some p => (sv.serve y.state (.inr p.2) choice).map fun q =>
        (y.put q.1 i (u.settle wire p.1 junk q.2), none)
  | .hear i junk =>
    let u := y.sessions i
    match u.asked, u.down with
    | some c, b :: rest =>
      let r := wire.result c junk (b :: rest)
      some (y.put y.state i { u with asked := none, down := r.2, told := u.told ++ [(c, r.1)] }, none)
    | _, _ => none

/- What the service and its calls see of it. -/
def System.direct (y : System I S Byte Call Wait Ans Res) : Direct I S Call Wait Ans :=
  { state := y.state, running := fun i => (y.sessions i).running, done := fun i => (y.sessions i).done }

def System.sees (wire : Wire Byte Call Ans Res Junk) (y : System I S Byte Call Wait Ans Res) :
    RemoteEv I Ev Call Choice Junk → Option (DirectEv I Ev Call Choice)
  | .own e => some (.own e)
  | .handle i choice _ => (wire.receive (y.sessions i).buf (y.sessions i).up).map fun r => .start i r.1 choice
  | .resume i choice _ => some (.resume i choice)
  | .ask _ _ _ | .hear _ _ => none

/- A system at rest, whatever is in the buffers. -/
def System.start (s : S) (buf : I → List Byte) : System I S Byte Call Wait Ans Res :=
  { state := s, sessions := fun i => { buf := buf i } }

/-! ### Contracts -/

/-- What makes calls from afar as good as direct ones: a call that is sound is received as it was made,
    and an answer that fits its call is heard as its outcome; and the service answers sound calls with
    answers that fit. -/
structure Contract (sv : Service S Ev Rep Call Choice Wait Ans) (wire : Wire Byte Call Ans Res Junk)
    (outcome : Call → Ans → Res) where
  Sound : Call → Prop
  Waits : Call → Wait → Prop
  Fits : Call → Ans → Prop
  Ready : List Byte → Prop
  Kept : S → Prop
  received : ∀ {buf c} (junk), Ready buf → Sound c →
    ∃ buf', Ready buf' ∧ wire.receive buf (wire.request c junk) = some (c, buf', [])
  silent : ∀ buf, wire.receive buf [] = none
  heard : ∀ {c a} (junk junk'), Sound c → Fits c a →
    wire.result c junk' (wire.respond c a junk) = (outcome c a, [])
  own : ∀ {s e t r}, Kept s → sv.own s e = some (t, r) → Kept t
  begun : ∀ {s c choice t x}, Kept s → Sound c → sv.serve s (.inl c) choice = some (t, x) →
    Kept t ∧ x.elim (Waits c) (Fits c)
  goesOn : ∀ {s c w choice t x}, Kept s → Sound c → Waits c w → sv.serve s (.inr w) choice = some (t, x) →
    Kept t ∧ x.elim (Waits c) (Fits c)

variable {sv : Service S Ev Rep Call Choice Wait Ans} {wire : Wire Byte Call Ans Res Junk}
  {outcome : Call → Ans → Res}

/- An answer with the call it is for, as the client is to hear it. -/
def told (outcome : Call → Ans → Res) (p : Call × Ans) : Call × Res := (p.1, outcome p.1 p.2)

/- Where a call is. -/
inductive Phase (k : Contract sv wire outcome) (u : Session Byte Call Wait Ans Res) : Prop where
  | idle (asked : u.asked = none) (up : u.up = []) (running : u.running = none) (down : u.down = [])
      (heard : u.told = u.done.map (told outcome))
  | asking (c : Call) (junk : Junk) (sound : k.Sound c) (asked : u.asked = some c)
      (up : u.up = wire.request c junk) (running : u.running = none) (down : u.down = [])
      (heard : u.told = u.done.map (told outcome))
  | serving (c : Call) (w : Wait) (sound : k.Sound c) (waits : k.Waits c w) (asked : u.asked = some c)
      (up : u.up = []) (running : u.running = some (c, w)) (down : u.down = [])
      (heard : u.told = u.done.map (told outcome))
  | answering (c : Call) (a : Ans) (junk : Junk) (sound : k.Sound c) (fits : k.Fits c a)
      (asked : u.asked = some c) (up : u.up = []) (running : u.running = none)
      (down : u.down = wire.respond c a junk)
      (heard : u.told ++ [(c, outcome c a)] = u.done.map (told outcome))

structure SystemInv (k : Contract sv wire outcome) (y : System I S Byte Call Wait Ans Res) : Prop where
  state : k.Kept y.state
  ready : ∀ i, k.Ready (y.sessions i).buf
  phase : ∀ i, Phase k (y.sessions i)

/-- The client has heard the outcomes of all the answers, in order, when it does not wait. When it waits,
    one more may be on its way, and the thread is in no other call than its own. -/
def Faithful (outcome : Call → Ans → Res) (u : Session Byte Call Wait Ans Res) : Prop :=
  match u.asked with
  | none => u.told = u.done.map (told outcome) ∧ u.running = none
  | some c => (u.told = u.done.map (told outcome) ∧ ∀ p ∈ u.running, p.1 = c) ∨
      ∃ a, u.told ++ [(c, outcome c a)] = u.done.map (told outcome) ∧ u.running = none

/- The run makes sound calls only. -/
def AsksSound (k : Contract sv wire outcome) (_ : List (RemoteEv I Ev Call Choice Junk × Option Rep))
    (_ : System I S Byte Call Wait Ans Res) : RemoteEv I Ev Call Choice Junk → Prop
  | .ask _ c _ => k.Sound c
  | _ => True

variable {k : Contract sv wire outcome} {u : Session Byte Call Wait Ans Res}
  {y z : System I S Byte Call Wait Ans Res}

theorem Phase.faithful (phase : Phase k u) : Faithful outcome u := by
  unfold Faithful
  cases phase with
  | idle asked up running down heard =>
    rw [asked]
    exact ⟨heard, running⟩
  | asking c junk sound asked up running down heard =>
    rw [asked]
    exact .inl ⟨heard, by simp [running]⟩
  | serving c w sound waits asked up running down heard =>
    rw [asked]
    exact .inl ⟨heard, by simp [running]⟩
  | answering c a junk sound fits asked up running down heard =>
    rw [asked]
    exact .inr ⟨a, heard, running⟩

/-! ### Steps -/

theorem SystemInv.put (inv : SystemInv k y) {s : S} {i : I} {u : Session Byte Call Wait Ans Res}
    (kept : k.Kept s) (ready : k.Ready u.buf) (phase : Phase k u) : SystemInv k (y.put s i u) where
  state := kept
  ready j := by
    by_cases here : j = i
    · subst here
      simpa [System.put] using ready
    · simpa [System.put, here] using inv.ready j
  phase j := by
    by_cases here : j = i
    · subst here
      simpa [System.put] using phase
    · simpa [System.put, here] using inv.phase j

/- The thread has read the client's call or come back to it, and nothing else is under way. -/
theorem Phase.settle {c : Call} (junk : Junk) {x : Wait ⊕ Ans} (sound : k.Sound c) (asked : u.asked = some c)
    (up : u.up = []) (down : u.down = []) (heard : u.told = u.done.map (told outcome))
    (x_ok : x.elim (k.Waits c) (k.Fits c)) : Phase k (u.settle wire c junk x) := by
  cases x with
  | inl w => exact .serving c w sound x_ok asked up rfl down heard
  | inr a =>
    refine .answering c a junk sound x_ok asked up rfl ?_ ?_
    · show u.down ++ _ = _
      rw [down, List.nil_append]
    · show u.told ++ _ = (u.done ++ _).map _
      rw [heard, List.map_append]
      rfl

theorem settle_buf (c : Call) (junk : Junk) (x : Wait ⊕ Ans) : (u.settle wire c junk x).buf = u.buf := by
  cases x <;> rfl

/- A request is all there is to read, and it is read as a whole. -/
theorem Phase.received (phase : Phase k u) (ready : k.Ready u.buf) (free : u.running = none) {c : Call}
    {buf rest : List Byte} (here : wire.receive u.buf u.up = some (c, buf, rest)) :
    k.Ready buf ∧ rest = [] ∧ k.Sound c ∧ u.asked = some c ∧ u.down = [] ∧
      u.told = u.done.map (told outcome) := by
  cases phase with
  | asking c' junk sound asked up running down heard =>
    obtain ⟨buf', ready', eq⟩ := k.received junk ready sound
    rw [up, eq] at here
    obtain ⟨rfl, rfl, rfl⟩ := by simpa using here
    exact ⟨ready', rfl, sound, asked, down, heard⟩
  | idle asked up | answering _ _ _ _ _ asked up =>
    rw [up, k.silent] at here
    cases here
  | serving _ _ _ _ _ _ running =>
    rw [running] at free
    cases free

theorem remoteStep_keeps {e : RemoteEv I Ev Call Choice Junk} {r : Option Rep} (inv : SystemInv k y)
    (sound : ∀ i c junk, e = .ask i c junk → k.Sound c) (taken : remoteStep sv wire y e = some (z, r)) :
    SystemInv k z := by
  cases e with
  | own e =>
    obtain ⟨q, here, eq⟩ := Option.map_eq_some_iff.mp taken
    obtain ⟨rfl, -⟩ := Prod.mk.inj eq
    exact ⟨k.own inv.state here, inv.ready, inv.phase⟩
  | ask i c junk =>
    simp only [remoteStep] at taken
    split at taken
    · cases taken
    · rename_i idle
      obtain ⟨rfl, -⟩ := by simpa using taken
      refine inv.put inv.state (inv.ready i) ?_
      cases inv.phase i with
      | idle asked up running down heard =>
        exact .asking c junk (sound i c junk rfl) rfl (by simp [up]) running down heard
      | asking _ _ _ asked | serving _ _ _ _ asked | answering _ _ _ _ _ asked =>
        rw [asked] at idle
        cases idle
  | handle i choice junk =>
    simp only [remoteStep] at taken
    split at taken
    · rename_i c buf rest free here
      obtain ⟨q, served, eq⟩ := Option.map_eq_some_iff.mp taken
      obtain ⟨rfl, -⟩ := Prod.mk.inj eq
      obtain ⟨ready, nothing, sound', asked, down, heard⟩ := (inv.phase i).received (inv.ready i) free here
      obtain ⟨kept, x_ok⟩ := k.begun inv.state sound' served
      refine inv.put kept ?_ (.settle junk sound' asked nothing down heard x_ok)
      rw [settle_buf]
      exact ready
    · cases taken
  | resume i choice junk =>
    simp only [remoteStep] at taken
    split at taken
    · cases taken
    · rename_i p running
      obtain ⟨q, served, eq⟩ := Option.map_eq_some_iff.mp taken
      obtain ⟨rfl, -⟩ := Prod.mk.inj eq
      cases inv.phase i with
      | serving c w sound' waits asked up running' down heard =>
        obtain rfl : p = (c, w) := Option.some.inj (running.symm.trans running')
        obtain ⟨kept, x_ok⟩ := k.goesOn inv.state sound' waits served
        refine inv.put kept ?_ (.settle junk sound' asked up down heard x_ok)
        rw [settle_buf]
        exact inv.ready i
      | idle _ _ free | asking _ _ _ _ _ free | answering _ _ _ _ _ _ _ free =>
        rw [free] at running
        cases running
  | hear i junk =>
    simp only [remoteStep] at taken
    split at taken
    · rename_i c b rest asked here
      obtain ⟨rfl, -⟩ := by simpa using taken
      refine inv.put inv.state (inv.ready i) ?_
      cases inv.phase i with
      | answering c' a junk' sound' fits asked' up running down heard =>
        obtain rfl : c = c' := Option.some.inj (asked.symm.trans asked')
        have result := k.heard junk' junk sound' fits
        rw [← down, here] at result
        rw [result]
        exact .idle rfl up running rfl heard
      | idle _ _ _ down | asking _ _ _ _ _ _ down | serving _ _ _ _ _ _ _ down =>
        rw [down] at here
        cases here
    · cases taken

/- Where a session changes in nothing that the service sees. -/
theorem direct_put {i : I} (same : u.running = (y.sessions i).running)
    (same' : u.done = (y.sessions i).done) : (y.put y.state i u).direct = y.direct := by
  have each : ∀ j, (Function.update y.sessions i u j).running = (y.sessions j).running ∧
      (Function.update y.sessions i u j).done = (y.sessions j).done := by
    intro j
    by_cases here : j = i
    · subst here
      simp [same, same']
    · simp [here]
  exact congrArg₂ (fun f g => Direct.mk y.state f g) (funext fun j => (each j).1)
    (funext fun j => (each j).2)

theorem direct_settle {i : I} {s : S} (c : Call) (junk : Junk) (x : Wait ⊕ Ans)
    (same : u.done = (y.sessions i).done) :
    (y.put s i (u.settle wire c junk x)).direct = y.direct.settle i c s x := by
  cases x with
  | inl w =>
    simp only [System.direct, System.put, Session.settle, Direct.settle]
    congr 1
    · funext j
      by_cases here : j = i
      · subst here
        simp
      · simp [here]
    · funext j
      by_cases here : j = i
      · subst here
        simpa using same
      · simp [here]
  | inr a =>
    simp only [System.direct, System.put, Session.settle, Direct.settle]
    congr 1
    · funext j
      by_cases here : j = i
      · subst here
        simp
      · simp [here]
    · funext j
      by_cases here : j = i
      · subst here
        simpa using same
      · simp [here]

theorem remoteStep_mirrors {e : RemoteEv I Ev Call Choice Junk} {r : Option Rep}
    (taken : remoteStep sv wire y e = some (z, r)) :
    Mirrors (directStep sv) System.direct id (y.sees wire e) y z r := by
  cases e with
  | own e =>
    obtain ⟨q, here, eq⟩ := Option.map_eq_some_iff.mp taken
    obtain ⟨rfl, rfl⟩ := Prod.mk.inj eq
    show (sv.own y.state e).map _ = _
    rw [here]
    rfl
  | ask i c junk =>
    simp only [remoteStep] at taken
    split at taken
    · cases taken
    · obtain ⟨rfl, -⟩ := by simpa using taken
      exact direct_put rfl rfl
  | handle i choice junk =>
    simp only [remoteStep] at taken
    split at taken
    · rename_i c buf rest free here
      obtain ⟨q, served, eq⟩ := Option.map_eq_some_iff.mp taken
      obtain ⟨rfl, rfl⟩ := Prod.mk.inj eq
      have free' : y.direct.running i = none := free
      have served' : sv.serve y.direct.state (.inl c) choice = some q := served
      simp only [System.sees, here, Option.map_some, Mirrors, directStep, free', served', id]
      rw [direct_settle]
      rfl
    · cases taken
  | resume i choice junk =>
    simp only [remoteStep] at taken
    split at taken
    · cases taken
    · rename_i p running
      obtain ⟨q, served, eq⟩ := Option.map_eq_some_iff.mp taken
      obtain ⟨rfl, rfl⟩ := Prod.mk.inj eq
      have running' : y.direct.running i = some p := running
      have served' : sv.serve y.direct.state (.inr p.2) choice = some q := served
      simp only [System.sees, Mirrors, directStep, running', served', Option.map_some, id]
      rw [direct_settle]
      rfl
  | hear i junk =>
    simp only [remoteStep] at taken
    split at taken
    · obtain ⟨rfl, -⟩ := by simpa using taken
      exact direct_put rfl rfl
    · cases taken

/-! ### Runs -/

/-- Under a contract every run is one of the service with its calls made directly, by the same clients in
    the order the threads come to them, and every client hears what its own calls are answered. -/
theorem run_transparent {s : S} {buf : I → List Byte} (kept : k.Kept s) (ready : ∀ i, k.Ready (buf i))
    {trace : List (RemoteEv I Ev Call Choice Junk × Option Rep)}
    (run : Run (remoteStep sv wire) (AsksSound k) (.start s buf) trace y) :
    Run (directStep sv) (fun _ _ _ => True) ⟨s, fun _ => none, fun _ => []⟩
        (seenBy (remoteStep sv wire) (System.sees wire) id (.start s buf) trace) y.direct ∧
      ∀ i, Faithful outcome (y.sessions i) := by
  refine ⟨run.project System.direct fun _ _ _ _ _ _ taken => remoteStep_mirrors taken, fun i => ?_⟩
  have inv : SystemInv k y := by
    refine run.invariant_state ⟨kept, ready, fun i => .idle rfl rfl rfl rfl rfl⟩ ?_
    intro _ v e t r inv ok taken
    refine remoteStep_keeps inv ?_ taken
    rintro i c junk rfl
    exact ok
  exact (inv.phase i).faithful

end Remote
