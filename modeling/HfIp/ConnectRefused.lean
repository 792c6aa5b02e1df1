import HfIp.LockBalance

/- A connect on a connection that is already there (src/inet.c, `_connect` of src/socket.c), and what later
   calls and segments show of it. -/
namespace HfIp

open Transition

/-! ### What can be seen of a connection -/

/- What each event gives back and sends, and nothing where it cannot happen. -/
def outcomes (s : Conn) : List Event → List (Option (Reply × List Segment))
  | [] => []
  | e :: rest => match exec s e with
    | none => none :: outcomes s rest
    | some (t, r) => some (r, t.out.drop s.out.length) :: outcomes t rest

/- Writes, reads, polls and closes, with the wakeups of readers, and segments. -/
def Event.Later : Event → Prop
  | .write _ | .read _ | .readWakes _ | .poll _ | .close | .segment _ _ => True
  | _ => False

instance (e : Event) : Decidable e.Later := by
  induction e using Event.casesOn <;> unfold Event.Later <;> infer_instance

/-- The socket is still in the list, and nothing that comes later shows a difference. -/
def LeftAlone (s t : Conn) : Prop :=
  t.sock.registered = true ∧
    ∀ events : List Event, (∀ e ∈ events, e.Later) → outcomes t events = outcomes s events

/-- The address is long enough and of a family, and the sock already has the error that the refusal
    stores in it. -/
def RefusedBefore (s : Conn) (addr : SockAddr) : Prop :=
  2 ≤ addr.len ∧ addr.family ≠ AF_UNSPEC ∧ s.tsk.err = -EISCONN

instance (s : Conn) (addr : SockAddr) : Decidable (RefusedBefore s addr) :=
  inferInstanceAs (Decidable (_ ∧ _))

/-! ### The call -/

section

variable {s t : Conn} {r : Reply} {addr : SockAddr} {port : UInt16} {iss : UInt32}

theorem exec_unlocked {e : Event} (free : s.sock.locked = false) (taken : exec s e = some (t, r)) :
    t.sock.locked = false := by
  rcases exec_grip free taken with ⟨u, rfl⟩ | same
  · rfl
  · split at same
    · exact congrArg Grip.locked same
    · exact (congrArg Grip.locked same).trans free

theorem run_unlocked {allowed : List (Event × Reply) → Conn → Event → Prop} {trace : List (Event × Reply)}
    (run : Run exec allowed {} trace s) : s.sock.locked = false :=
  run.invariant_state (P := fun s => s.sock.locked = false) rfl
    fun _ _ _ _ _ free _ taken => exec_unlocked free taken

/- A lock taken and given back leaves nothing behind. -/
theorem socketRelease_acquired (free : s.sock.locked = false) : socketRelease (socketWrAcquire s) = s := by
  obtain ⟨sock, tsk⟩ := s
  obtain ⟨state, flags, refcnt, locked, relocked⟩ := sock
  cases free
  simp [socketRelease, socketWrAcquire, Int.add_sub_cancel]

theorem connect_unregistered {rc : Int} (free : s.sock.locked = false)
    (fatal : rc = -EINVAL ∨ rc = -EAFNOSUPPORT)
    (refused : inetStreamConnect (socketWrAcquire s) addr port iss = (socketWrAcquire s, some rc))
    (taken : exec s (.connect addr port iss) = some (t, r)) : r = .ret rc ∧ t = socketFree s := by
  simp only [exec] at taken
  split at taken
  · rw [refused, connectReturn, if_pos (by tauto), socketRelease_acquired free] at taken
    obtain ⟨rfl, rfl⟩ := Prod.mk.inj (Option.some.inj taken)
    exact ⟨rfl, rfl⟩
  · contradiction

/- What the call does to a connection: it fails, and frees the socket or stores the error. -/
theorem connect_connected (free : s.sock.locked = false) (connected : s.sock.state = .connected)
    (taken : exec s (.connect addr port iss) = some (t, r)) :
    (∃ rc, r = .ret rc ∧ rc < 0) ∧ s.sock.registered = true ∧
      t = if addr.len < 2 ∨ addr.family = AF_UNSPEC then socketFree s
        else { s with tsk.err := -EISCONN } := by
  have registered : s.sock.registered = true := by
    by_contra gone
    simp only [exec, gone] at taken
    contradiction
  by_cases short : addr.len < 2
  · have refused : inetStreamConnect (socketWrAcquire s) addr port iss =
        (socketWrAcquire s, some (-EINVAL)) := by rw [inetStreamConnect, if_pos short]
    obtain ⟨rfl, rfl⟩ := connect_unregistered free (.inl rfl) refused taken
    exact ⟨⟨_, rfl, by decide⟩, registered, (if_pos (.inl short)).symm⟩
  · by_cases unspec : addr.family = AF_UNSPEC
    · have refused : inetStreamConnect (socketWrAcquire s) addr port iss =
          (socketWrAcquire s, some (-EAFNOSUPPORT)) := by
        rw [inetStreamConnect, if_neg short, if_pos unspec]
      obtain ⟨rfl, rfl⟩ := connect_unregistered free (.inr rfl) refused taken
      exact ⟨⟨_, rfl, by decide⟩, registered, (if_pos (.inr unspec)).symm⟩
    · have refused : inetStreamConnect (socketWrAcquire s) addr port iss =
          ({ socketWrAcquire s with tsk.err := -EISCONN }, some (-EISCONN)) := by
        rw [inetStreamConnect, if_neg short, if_neg unspec,
          show (socketWrAcquire s).sock.state = .connected from connected]
      simp only [exec, registered, refused, if_true] at taken
      rw [connectReturn, if_neg (by decide)] at taken
      obtain ⟨rfl, rfl⟩ := Prod.mk.inj (Option.some.inj taken)
      refine ⟨⟨_, rfl, by decide⟩, registered, ?_⟩
      rw [if_neg (by tauto)]
      exact socketRelease_acquired (s := { s with tsk.err := -EISCONN }) free

/- A write in ESTABLISHED shows the error. -/
theorem outcomes_write (registered : s.sock.registered = true) (established : s.tsk.state = .established) :
    ∃ out, outcomes s [.write []] = [some (.ret (if s.tsk.err ≠ 0 then s.tsk.err else 0), out)] := by
  have written : (tcpWrite (socketWrAcquire s) []).2 = if s.tsk.err ≠ 0 then s.tsk.err else 0 := by
    unfold tcpWrite
    rw [show (socketWrAcquire s).tsk = s.tsk from rfl, established]
    split <;> rfl
  refine ⟨(socketRelease (tcpWrite (socketWrAcquire s) []).1).out.drop s.out.length, ?_⟩
  simp only [outcomes, exec, call, registered, if_true, written]

/-- Every further connect on a connection is refused, and leaves the connection alone exactly when the
    same refusal has been stored before. -/
theorem connect_refused {trace : List (Event × Reply)} (run : Run exec (fun _ _ _ => True) {} trace s)
    (established : s.tsk.state = .established) (connected : s.sock.state = .connected)
    (taken : exec s (.connect addr port iss) = some (t, r)) :
    (∃ rc, r = .ret rc ∧ rc < 0) ∧ (LeftAlone s t ↔ RefusedBefore s addr) := by
  obtain ⟨refused, registered, eq⟩ := connect_connected (run_unlocked run) connected taken
  refine ⟨refused, ?_⟩
  by_cases fatal : addr.len < 2 ∨ addr.family = AF_UNSPEC
  · rw [if_pos fatal] at eq
    obtain ⟨freed, gone⟩ := socketFree_eq s
    rw [gone] at eq
    subst eq
    refine iff_of_false (fun alone => Bool.false_ne_true alone.1) fun before => ?_
    rcases fatal with short | unspec
    · exact absurd before.1 (Nat.not_le_of_lt short)
    · exact before.2.1 unspec
  · rw [if_neg fatal] at eq
    subst eq
    rw [not_or] at fatal
    constructor
    · intro alone
      refine ⟨Nat.le_of_not_lt fatal.1, fatal.2, ?_⟩
      have later : ∀ e ∈ ([.write []] : List Event), e.Later := by
        intro e member
        rw [List.mem_singleton.mp member]
        trivial
      have same := alone.2 [.write []] later
      obtain ⟨out, before⟩ := outcomes_write registered established
      obtain ⟨out', after⟩ := outcomes_write (s := { s with tsk.err := -EISCONN }) registered established
      have stored : (-EISCONN : Int) ≠ 0 := by decide
      rw [if_pos stored] at after
      rw [before, after] at same
      have told : -EISCONN = if s.tsk.err ≠ 0 then s.tsk.err else 0 :=
        Reply.ret.inj (Prod.mk.inj (Option.some.inj (List.cons.inj same).1)).1
      split at told
      · exact told.symm
      · exact absurd told stored
    · rintro ⟨-, -, before⟩
      have same : { s with tsk.err := -EISCONN } = s := by
        rw [← before]
      rw [same]
      exact ⟨registered, fun _ _ => rfl⟩

end

def otherPeer : SockAddr := ⟨2, 16, 80, parseIpv4 10 0 0 6⟩

theorem connect_refused_twice : ∃ trace s t r, Run exec (fun _ _ _ => True) {} trace s ∧
    exec s (.connect otherPeer 40002 2000) = some (t, r) ∧ LeftAlone s t := by
  obtain ⟨trace, s, run, established, connected, registered, before⟩ : ∃ trace s,
      Run exec (fun _ _ _ => True) {} trace s ∧ s.tsk.state = .established ∧ s.sock.state = .connected ∧
        s.sock.registered = true ∧ RefusedBefore s otherPeer :=
    Run.exists_of_follow (handshake ++ [.connect otherPeer 40002 2000])
      (P := fun s => s.tsk.state = .established ∧ s.sock.state = .connected ∧
        s.sock.registered = true ∧ RefusedBefore s otherPeer) (by decide +kernel)
  obtain ⟨q, taken⟩ : ∃ q, exec s (.connect otherPeer 40002 2000) = some q := by
    simp only [exec, registered, if_true]
    exact ⟨_, rfl⟩
  exact ⟨trace, s, q.1, q.2, run, taken, (connect_refused run established connected taken).2.mpr before⟩

/- What the call stores, and what a write shows of it. -/
def Disturbs (s : Conn) : Prop :=
  s.tsk.state = .established ∧ s.sock.state = .connected ∧
    ∃ q ∈ exec s (.connect otherPeer 40002 2000), q.2 = .ret (-EISCONN) ∧
      outcomes q.1 [.write [65]] ≠ outcomes s [.write [65]]

instance (s : Conn) : Decidable (Disturbs s) := inferInstanceAs (Decidable (_ ∧ _ ∧ _))

theorem connect_breaks_connection : ∃ trace s t, Run exec (fun _ _ _ => True) {} trace s ∧
    s.tsk.state = .established ∧ s.sock.state = .connected ∧
    exec s (.connect otherPeer 40002 2000) = some (t, .ret (-EISCONN)) ∧ ¬LeftAlone s t := by
  obtain ⟨trace, s, run, established, connected, q, taken, reply, told⟩ : ∃ trace s,
      Run exec (fun _ _ _ => True) {} trace s ∧ Disturbs s :=
    Run.exists_of_follow handshake (P := Disturbs) (by decide +kernel)
  refine ⟨trace, s, q.1, run, established, connected, ?_, fun alone => told (alone.2 _ (by decide))⟩
  rw [← reply]
  exact taken

end HfIp
