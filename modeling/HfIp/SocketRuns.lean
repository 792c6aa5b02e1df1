import HfIp.Sockets
import HfIp.Lib.Projection

/- One socket of the list by itself: what it takes part in of a run of all of them is a run of the
   connection alone. -/
namespace HfIp

open Transition

variable {n m : Sockets} {i : Nat}

/- The connection at a position of the list; one that is yet to be created has only the clock. -/
def Sockets.conn (n : Sockets) (i : Nat) : Conn :=
  match n.entries[i]? with
  | some c => c.conn
  | none => { ts := { tick := n.tick } }

/- The event of its own with which the socket at a position takes part in an event. -/
def Sockets.sees (i : Nat) (n : Sockets) : SocketsEvent → Option Event
  | .socket => none
  | .connect j addr iss => if j = i then some (.connect addr (generatePort n) iss) else none
  | .call j e => if j = i then some e else none
  | .segment th payload =>
    if inetLookup n th.sport th.dport = some i then some (.segment th payload) else none
  | .tick busy => some (.tick (busy.getD i []))

theorem conn_of_entry {c : Entry} (here : n.entries[i]? = some c) : n.conn i = c.conn := by
  rw [Sockets.conn, here]

/- A socket put in place of another at `j`. -/
theorem conn_set {j : Nat} {c : Entry} {conn : Conn} {opened : Bool} {port : Nat}
    (here : n.entries[j]? = some c) :
    Sockets.conn { n with port := port, entries := n.entries.set j ⟨conn, opened⟩ } i =
      if j = i then conn else n.conn i := by
  have inside := (List.getElem?_eq_some_iff.mp here).1
  by_cases same : j = i
  · subst same
    rw [if_pos rfl]
    unfold Sockets.conn
    dsimp only
    rw [List.getElem?_set_self inside]
  · rw [if_neg same]
    unfold Sockets.conn
    dsimp only
    rw [List.getElem?_set_ne same]

theorem socket_follows : Sockets.conn { n with
    entries := n.entries ++ [{ conn := { ts := { tick := n.tick } } }] } i = n.conn i := by
  unfold Sockets.conn
  dsimp only
  rcases Nat.lt_trichotomy i n.entries.length with old | new | later
  · rw [List.getElem?_append_left old]
  · subst new
    rw [List.getElem?_concat_length, List.getElem?_eq_none (Nat.le_refl _)]
  · rw [List.getElem?_eq_none (by simp; omega), List.getElem?_eq_none (by omega)]

/- Time passes for the sockets of the list and for those to come. -/
theorem tick_follows (busy : List (List Nat)) : Sockets.conn { n with
    tick := n.tick + 10
    entries := n.entries.mapIdx fun i c =>
      { c with conn.ts := timersStart c.conn.ts (busy.getD i []) } } i =
    { n.conn i with ts := timersStart (n.conn i).ts (busy.getD i []) } := by
  unfold Sockets.conn
  dsimp only
  rw [List.getElem?_mapIdx]
  cases n.entries[i]? <;> rfl

/-- Each event is one of the socket's own or leaves it as it is. -/
theorem sysExec_follows {e : SocketsEvent} {r : Reply} (taken : sysExec n e = some (m, r)) :
    Mirrors exec (Sockets.conn · i) id (Sockets.sees i n e) n m r := by
  -- what a step of the socket at `j` is to the socket at `i`
  have moved : ∀ {j : Nat} {c : Entry} {conn : Conn} {own : Event} (opened : Bool) (port : Nat),
      n.entries[j]? = some c → exec c.conn own = some (conn, r) →
      Mirrors exec (Sockets.conn · i) id (if j = i then some own else none) n
        { n with port := port, entries := n.entries.set j ⟨conn, opened⟩ } r := by
    intro j c conn own opened port here step
    have after : Sockets.conn { n with port := port, entries := n.entries.set j ⟨conn, opened⟩ } i =
        if j = i then conn else n.conn i := conn_set here
    by_cases same : j = i
    · rw [if_pos same] at after ⊢
      have before : n.conn i = c.conn := same ▸ conn_of_entry here
      show exec (n.conn i) own = some (Sockets.conn _ i, r)
      rw [after, before]
      exact step
    · rw [if_neg same] at after ⊢
      exact after
  cases e with
  | socket =>
    obtain ⟨rfl, -⟩ := by simpa [sysExec] using taken
    exact socket_follows
  | connect j addr iss =>
    simp only [sysExec, Option.bind_eq_bind, Option.bind_eq_some_iff] at taken
    obtain ⟨c, here, ⟨conn, r'⟩, step, taken⟩ := taken
    dsimp only at taken
    split at taken
    all_goals
      obtain ⟨rfl, rfl⟩ := by simpa using taken
      exact moved _ _ here step
  | call j e =>
    simp only [sysExec, Option.bind_eq_bind, Option.bind_eq_some_iff] at taken
    obtain ⟨c, here, ⟨conn, r'⟩, step, taken⟩ := taken
    dsimp only at taken
    split at taken
    · obtain ⟨rfl, rfl⟩ := by simpa using taken
      exact moved _ _ here step
    · contradiction
  | segment th payload =>
    simp only [sysExec] at taken
    simp only [Sockets.sees]
    split at taken
    · rename_i none_found
      obtain ⟨rfl, -⟩ := by simpa using taken
      rw [none_found]
      rfl
    · rename_i j found
      simp only [Option.bind_eq_bind, Option.bind_eq_some_iff] at taken
      obtain ⟨c, here, ⟨conn, r'⟩, step, taken⟩ := taken
      obtain ⟨rfl, rfl⟩ := by simpa using taken
      have own := moved c.opened n.port here step
      rw [found]
      simp only [Option.some.injEq]
      exact own
  | tick busy =>
    obtain ⟨rfl, rfl⟩ := by simpa [sysExec] using taken
    have passes := tick_follows (n := n) (i := i) busy
    exact congrArg (fun u => some (u, Reply.none)) passes.symm

theorem conn_run {trace : List (SocketsEvent × Reply)}
    (run : Run sysExec (fun _ _ _ => True) {} trace n) (i : Nat) :
    Run exec (fun _ _ _ => True) {} (seenBy sysExec (Sockets.sees i) id {} trace) (n.conn i) := by
  have own : Run exec (fun _ _ _ => True) (Sockets.conn {} i)
      (seenBy sysExec (Sockets.sees i) id {} trace) (n.conn i) :=
    run.project (Sockets.conn · i) fun _ _ _ _ _ _ taken => sysExec_follows taken
  exact own

/- Two sockets, of which the second connects. -/
def secondConnects : List SocketsEvent :=
  [.socket, .socket, .tick [], .connect 1 peerAddr 1000, .segment { peerHdr 5000 1001 with
    syn := true, dport := 40011 } []]

def SecondOpen (n : Sockets) : Prop :=
  ∃ c ∈ n.entries[1]?, c.conn.tsk.state = .established

instance : DecidablePred SecondOpen := fun n => inferInstanceAs (Decidable (∃ c ∈ n.entries[1]?, _))

end HfIp
