import HfIp.CallerView
import HfIp.IpcCalls
import HfIp.Stack

/- The daemon and the programs that run with the interposer: the calls of src/socket.c on descriptors, made
   by a thread of src/ipc.c for each client. A thread that fails to read or to write its stream is left out,
   and so is a program that uses one descriptor from two threads at once. -/
namespace HfIp

open Buffer Transition Remote

/-! ### The daemon -/

/- `owners` are `pid` and `fd` of the sockets, in the order in which they are made; `fd` is the counter of
   `alloc_socket`. -/
structure Daemon where
  stack : Stack
  owners : List (UInt32 × UInt32) := []
  fd : UInt32 := 4097
  deriving DecidableEq, Repr

/- A call whose thread sleeps: the socket, and what a read has put into its buffer. -/
inductive IpcWait where
  | connect (i : Nat)
  | read (i len : Nat) (got : List UInt8)
  deriving DecidableEq, Repr

abbrev IpcEnd := IpcWait ⊕ Answer

/- What `generate_iss` returns, and which of the threads asleep in `tcp_receive` is the one that goes on. -/
structure IpcChoice where
  iss : UInt32 := 0
  reader : Nat := 0
  deriving DecidableEq, Repr

namespace Daemon

def conn (d : Daemon) (i : Nat) : Conn := d.stack.sockets.conn i

def exec (d : Daemon) (e : StackEvent) : Option (Daemon × Reply) :=
  (stackExec d.stack e).map fun q => ({ d with stack := q.1 }, q.2)

/- The list has the sockets that are registered, in this order. -/
def getSocket (d : Daemon) (pid fd : UInt32) : Option Nat :=
  (List.range d.owners.length).find? fun i =>
    d.owners[i]? = some (pid, fd) ∧ (d.conn i).sock.registered

/- The steps that are no part of a call: `netdev_rx_loop`, the timers, `abort_sockets`. -/
def own (d : Daemon) (e : StackEvent) : Option (Daemon × Reply) :=
  match e with
  | .frame _ | .call (.tick _) | .call (.call _ (.handler _)) | .call (.call _ .abort) => d.exec e
  | .call _ => none

def withSocket (d : Daemon) (pid fd : UInt32) (f : Nat → Option (Daemon × IpcEnd)) :
    Option (Daemon × IpcEnd) :=
  match d.getSocket pid fd with
  | none => some (d, .inr { rc := Int32.ofInt (-EBADF) })
  | some i => f i

/- An operation on a socket, and how it waits when its thread goes to sleep. -/
def operate (d : Daemon) (e : SocketsEvent) (wait : Option IpcWait) : Option (Daemon × IpcEnd) :=
  (d.exec (.call e)).bind fun q =>
    match q.2 with
    | .ret rc => some (q.1, .inr { rc := Int32.ofInt rc })
    | .asleep => wait.map fun w => (q.1, .inl w)
    | .none => none

/- A step of a read that had got `had` bytes. -/
def receive (d : Daemon) (i len : Nat) (had : List UInt8) (e : Event) : Option (Daemon × IpcEnd) :=
  (d.exec (.call (.call i e))).bind fun q =>
    let got := had ++ (q.1.conn i).delivered.drop (d.conn i).delivered.length
    match q.2 with
    | .ret rc => some (q.1, .inr { rc := Int32.ofInt rc, bytes := got })
    | .asleep => some (q.1, .inl (.read i len got))
    | .none => none

/- `_socket`. The descriptor is counted before anything can fail; `families` has 128 entries. -/
def socket (d : Daemon) (pid domain type : UInt32) : Option (Daemon × IpcEnd) :=
  if 128 ≤ domain then none
  else if domain ≠ AF_INET ∨ SOCK_STREAM &&& type = 0 then
    some ({ d with fd := d.fd + 1 }, .inr { rc := -1 })
  else (d.exec (.call .socket)).map fun q =>
    ({ q.1 with owners := d.owners ++ [(pid, d.fd)], fd := d.fd + 1 }, .inr { rc := d.fd.toInt32 })

/- A `struct sockaddr_in`. -/
def sockAddr (addr : List UInt8) (addrlen : UInt32) : SockAddr :=
  { family := hostWordAt addr 0, len := addrlen.toNat, port := wordAt addr 2, addr := dwordAt addr 4 }

/- `ipc_fcntl` and `_fcntl`. -/
def fcntl (d : Daemon) (pid fildes cmd arg : UInt32) : Option (Daemon × IpcEnd) :=
  if (cmd.toNat : Int) = F_GETFL then
    d.withSocket pid fildes fun i => d.operate (.call i .fcntlGetfl) none
  else if (cmd.toNat : Int) = F_SETFL then
    d.withSocket pid fildes fun i => d.operate (.call i (.fcntlSetfl arg)) none
  else some (d, .inr { rc := Int32.ofInt (-EINVAL) })

/- The lock that is taken to look at a socket is given back. -/
def getsockopt (d : Daemon) (i : Nat) (level optname : UInt32) : Option (Daemon × IpcEnd) :=
  let q := HfIp.getsockopt (d.conn i) level.toNat optname.toNat
  some (d, .inr { rc := Int32.ofInt q.1, err := q.2.map Int32.ofInt })

def name (d : Daemon) (q : Int × SockAddr) : Option (Daemon × IpcEnd) :=
  some (d, .inr { rc := Int32.ofInt q.1, name := some q.2 })

def begin (d : Daemon) (c : IpcCall) (choice : IpcChoice) : Option (Daemon × IpcEnd) :=
  match c.call with
  | .socket domain type _ => d.socket c.pid domain type
  | .connect sockfd addr addrlen => d.withSocket c.pid sockfd fun i =>
      d.operate (.connect i (sockAddr addr addrlen) choice.iss) (some (.connect i))
  | .write sockfd buf => d.withSocket c.pid sockfd fun i => d.operate (.call i (.write buf)) none
  | .read sockfd len => d.withSocket c.pid sockfd fun i => d.receive i len [] (.read len)
  | .close sockfd => d.withSocket c.pid sockfd fun i => d.operate (.call i .close) none
  | .fcntl sockfd cmd arg => d.fcntl c.pid sockfd cmd arg
  | .getsockopt fd level optname _ => d.withSocket c.pid fd fun i => d.getsockopt i level optname
  | .getpeername socket => d.withSocket c.pid socket fun i => d.name (inetGetpeername (d.conn i))
  | .getsockname socket => d.withSocket c.pid socket fun i => d.name (inetGetsockname (d.conn i))

def goOn (d : Daemon) (w : IpcWait) (choice : IpcChoice) : Option (Daemon × IpcEnd) :=
  match w with
  | .connect i => d.operate (.call i .connectWakes) (some (.connect i))
  | .read i len got =>
    if (d.conn i).readers[choice.reader]? = some ⟨len, got.length⟩ then
      d.receive i len got (.readWakes choice.reader)
    else none

def serve (d : Daemon) : IpcCall ⊕ IpcWait → IpcChoice → Option (Daemon × IpcEnd)
  | .inl c, choice => d.begin c choice
  | .inr w, choice => d.goOn w choice

end Daemon

abbrev daemonService : Service Daemon StackEvent Reply IpcCall IpcChoice IpcWait Answer :=
  { own := Daemon.own, serve := Daemon.serve }

abbrev ipcWire : Wire UInt8 IpcCall Answer Result Junk :=
  { request := ipcRequest, receive := ipcReceive, respond := ipcResponse, result := ipcResult }

abbrev DaemonSystem := System Nat Daemon UInt8 IpcCall IpcWait Answer Result

abbrev DaemonEvent := RemoteEv Nat StackEvent IpcCall IpcChoice Junk

def daemonStep : DaemonSystem → DaemonEvent → Option (DaemonSystem × Option Reply) :=
  remoteStep daemonService ipcWire

def callStep : Direct Nat Daemon IpcCall IpcWait Answer → DirectEv Nat StackEvent IpcCall IpcChoice →
    Option (Direct Nat Daemon IpcCall IpcWait Answer × Option Reply) := directStep daemonService

variable {d d' : Daemon} {c : IpcCall} {i : Nat} {r : Reply} {x : IpcEnd}

/-! ### The stack under the calls -/

/- The stack rests or makes a step of its own. -/
def Daemon.Moves (d d' : Daemon) : Prop :=
  d'.stack = d.stack ∨ ∃ e r, stackExec d.stack e = some (d'.stack, r)

namespace Daemon

theorem exec_moves {e : StackEvent} (taken : d.exec e = some (d', r)) : d.Moves d' := by
  obtain ⟨q, here, eq⟩ := Option.map_eq_some_iff.mp taken
  obtain ⟨rfl, rfl⟩ := Prod.mk.inj eq
  exact .inr ⟨e, q.2, here⟩

variable {q : Daemon × IpcEnd}

theorem own_moves {e : StackEvent} (taken : d.own e = some (d', r)) : d.Moves d' := by
  unfold own at taken
  split at taken
  iterate 4 exact exec_moves taken
  cases taken

theorem withSocket_moves {pid fd : UInt32} {f : Nat → Option (Daemon × IpcEnd)}
    (each : ∀ i, f i = some q → d.Moves q.1) (taken : d.withSocket pid fd f = some q) : d.Moves q.1 := by
  unfold withSocket at taken
  split at taken
  · obtain rfl := Option.some.inj taken
    exact .inl rfl
  · exact each _ taken

theorem operate_moves {e : SocketsEvent} {wait : Option IpcWait} (taken : d.operate e wait = some q) :
    d.Moves q.1 := by
  obtain ⟨⟨u, r⟩, here, done⟩ := Option.bind_eq_some_iff.mp taken
  have moves := exec_moves here
  cases r with
  | ret rc =>
    obtain rfl := Option.some.inj done
    exact moves
  | asleep =>
    obtain ⟨w, -, rfl⟩ := Option.map_eq_some_iff.mp done
    exact moves
  | none => cases done

theorem receive_moves {len : Nat} {had : List UInt8} {e : Event} (taken : d.receive i len had e = some q) :
    d.Moves q.1 := by
  obtain ⟨⟨u, r⟩, here, done⟩ := Option.bind_eq_some_iff.mp taken
  have moves := exec_moves here
  cases r with
  | ret rc =>
    obtain rfl := Option.some.inj done
    exact moves
  | asleep =>
    obtain rfl := Option.some.inj done
    exact moves
  | none => cases done

theorem socket_moves {pid domain type : UInt32} (taken : d.socket pid domain type = some q) : d.Moves q.1 := by
  unfold socket at taken
  split at taken
  · cases taken
  · split at taken
    · obtain rfl := Option.some.inj taken
      exact .inl rfl
    · obtain ⟨⟨u, r⟩, here, rfl⟩ := Option.map_eq_some_iff.mp taken
      exact (exec_moves here : d.Moves u)

theorem fcntl_moves {pid fildes cmd arg : UInt32} (taken : d.fcntl pid fildes cmd arg = some q) :
    d.Moves q.1 := by
  unfold fcntl at taken
  split at taken
  · exact withSocket_moves (fun _ => operate_moves) taken
  · split at taken
    · exact withSocket_moves (fun _ => operate_moves) taken
    · obtain rfl := Option.some.inj taken
      exact .inl rfl

theorem begin_moves {choice : IpcChoice} (taken : d.begin c choice = some q) : d.Moves q.1 := by
  obtain ⟨pid, call⟩ := c
  cases call with
  | socket domain type protocol => exact socket_moves taken
  | connect sockfd addr addrlen => exact withSocket_moves (fun _ => operate_moves) taken
  | write sockfd buf => exact withSocket_moves (fun _ => operate_moves) taken
  | read sockfd len => exact withSocket_moves (fun _ => receive_moves) taken
  | close sockfd => exact withSocket_moves (fun _ => operate_moves) taken
  | fcntl sockfd cmd arg => exact fcntl_moves taken
  | getsockopt | getpeername | getsockname =>
    refine withSocket_moves (fun i done => ?_) taken
    obtain rfl := Option.some.inj done
    exact .inl rfl

theorem goOn_moves {w : IpcWait} {choice : IpcChoice} (taken : d.goOn w choice = some q) : d.Moves q.1 := by
  cases w with
  | connect i => exact operate_moves taken
  | read i len got =>
    unfold goOn at taken
    dsimp only at taken
    split at taken
    · exact receive_moves taken
    · cases taken

theorem serve_moves {a : IpcCall ⊕ IpcWait} {choice : IpcChoice} (taken : d.serve a choice = some q) :
    d.Moves q.1 := by
  cases a with
  | inl c => exact begin_moves taken
  | inr w => exact goOn_moves taken

end Daemon

/-! ### What a call comes to -/

/- What the result of a write says that it has given. -/
def SysCall.written (call : SysCall) (r : Result) : List UInt8 :=
  match call with
  | .write _ buf => if r.ret < 0 then [] else buf
  | _ => []

namespace IpcWait

def socket : IpcWait → Nat
  | .connect i | .read i _ _ => i

def held : IpcWait → List UInt8
  | .connect _ => []
  | .read _ _ got => got

end IpcWait

def gotBytes (c : IpcCall) : IpcEnd → List UInt8
  | .inl w => w.held
  | .inr a => (outcome c a).buf

def givenBytes (c : IpcCall) : IpcEnd → List UInt8
  | .inl _ => []
  | .inr a => c.call.written (outcome c a)

def WaitsCall (c : IpcCall) : IpcWait → Prop
  | .connect _ => ∃ fd addr addrlen, c.call = .connect fd addr addrlen
  | .read _ len got => (∃ fd, c.call = .read fd len) ∧ got.length ≤ len

/- The thread sleeps as the call may, or the answer is one to it. -/
def EndsWell (c : IpcCall) (x : IpcEnd) : Prop := x.elim (WaitsCall c) (FitsCall c)

/-- A step of a call on the socket `i`, from which it had got `had`. -/
structure Serves (c : IpcCall) (i : Nat) (had : List UInt8) (d : Daemon) (q : Daemon × IpcEnd) : Prop where
  owners : q.1.owners = d.owners
  fd : q.1.fd = d.fd
  others : ∀ j, j ≠ i → q.1.conn j = d.conn j
  here : ∀ {got given}, Talks (got ++ had) given (d.conn i) →
    Talks (got ++ gotBytes c q.2) (given ++ givenBytes c q.2) (q.1.conn i)
  ends : EndsWell c q.2
  stays : ∀ w, q.2 = .inl w → w.socket = i

/-- The begin of a call: a new socket, an error at once, or a step on the socket that has the descriptor. -/
inductive Began (c : IpcCall) (d : Daemon) : Daemon × IpcEnd → Prop where
  | opened (u : Daemon) (call : ∃ domain type protocol, c.call = .socket domain type protocol)
      (same : ∀ j, u.conn j = d.conn j) (owners : u.owners = d.owners ++ [(c.pid, d.fd)])
      (fd : u.fd = d.fd + 1) : Began c d (u, .inr { rc := d.fd.toInt32 })
  | refused (rc : Int32) (negative : rc < 0) : Began c d (d, .inr { rc := rc })
  | served {q : Daemon × IpcEnd} {fd : UInt32} {i : Nat} (named : c.call.fd = some fd)
      (found : d.getSocket c.pid fd = some i) (serves : Serves c i [] d q) : Began c d q

/- An answer with nothing stored is one to the call. -/
def Plain (c : IpcCall) : Prop := ∀ rc, FitsCall c { rc := rc }

theorem fits_error {rc : Int32} (negative : rc < 0) : FitsCall c { rc := rc } := by
  obtain ⟨pid, call⟩ := c
  cases call with
  | read sockfd len => exact ⟨fun well => absurd negative well, Nat.zero_le len, rfl, rfl⟩
  | getsockopt fd level optname optval => exact ⟨fun _ => negative, fun none => absurd rfl none, rfl, rfl⟩
  | getpeername socket => exact ⟨fun _ => negative, fun none => absurd rfl none, by simp, rfl, rfl⟩
  | getsockname socket => exact ⟨fun _ => negative, fun none => absurd rfl none, by simp, rfl, rfl⟩
  | _ => exact ⟨rfl, rfl, rfl⟩

/- The answers with an option and with a name. -/
theorem fits_option {pid fd level optname : UInt32} {optval : List UInt8} (v : Int32) :
    FitsCall ⟨pid, .getsockopt fd level optname optval⟩ { rc := 0, err := some v } :=
  ⟨fun missing => absurd missing (Option.some_ne_none _), fun _ => rfl, rfl, rfl⟩

theorem fits_name {pid : UInt32} {call : SysCall} {n : SockAddr} (len : n.len = 16)
    (named : ∃ socket, call = .getpeername socket ∨ call = .getsockname socket) :
    FitsCall ⟨pid, call⟩ { rc := 0, name := some n } := by
  obtain ⟨socket, rfl | rfl⟩ := named
  · exact ⟨fun none => absurd none (Option.some_ne_none _), fun _ => rfl, by simpa using len, rfl, rfl⟩
  · exact ⟨fun none => absurd none (Option.some_ne_none _), fun _ => rfl, by simpa using len, rfl, rfl⟩

theorem Began.ends {q : Daemon × IpcEnd} (began : Began c d q) : EndsWell c q.2 := by
  cases began with
  | opened u call =>
    obtain ⟨pid, call'⟩ := c
    obtain ⟨domain, type, protocol, rfl⟩ := call
    exact ⟨rfl, rfl, rfl⟩
  | refused rc negative => exact fits_error negative
  | served named found serves => exact serves.ends

/-! ### Answers -/

theorem int32_negative {rc : Int} (least : -EINPROGRESS ≤ rc) (most : rc < 2 ^ 31) :
    Int32.ofInt rc < 0 ↔ rc < 0 := by
  unfold EINPROGRESS at least
  rw [Int32.lt_iff_toInt_lt, Int32.toInt_ofInt_of_le (by omega) most]
  rfl

theorem outcome_buf (a : Answer) : (outcome c a).buf = if a.rc < 0 then [] else a.bytes := by
  unfold outcome
  split <;> rfl

theorem outcome_negative (a : Answer) : (outcome c a).ret < 0 ↔ a.rc < 0 := by
  unfold outcome
  split
  · rename_i negative
    simpa using negative
  · rename_i well
    refine ⟨fun negative => ?_, fun negative => absurd negative well⟩
    rw [Int32.lt_iff_toInt_lt]
    exact negative

theorem written_outcome (fd : UInt32) (buf : List UInt8) (a : Answer) :
    SysCall.written (.write fd buf) (outcome c a) = if a.rc < 0 then [] else buf := by
  unfold SysCall.written
  simp only [outcome_negative]

theorem written_other {call : SysCall} (other : ∀ fd buf, call ≠ .write fd buf) (r : Result) :
    call.written r = [] := by
  cases call with
  | write fd buf => exact absurd rfl (other fd buf)
  | _ => rfl

theorem written_failed {call : SysCall} {r : Result} (failed : r.ret < 0) : call.written r = [] := by
  cases call with
  | write fd buf => exact if_pos failed
  | _ => rfl

/-! ### Steps of a call -/

section

variable {q : Daemon × IpcEnd}

/- An event that one socket takes part in. -/
def Concerns (n : Sockets) (e : SocketsEvent) (i : Nat) (own : Event) : Prop :=
  ∀ j, Sockets.sees j n e = if i = j then some own else none

namespace Daemon

theorem exec_mirrors {e : SocketsEvent} (taken : d.exec (.call e) = some (d', r)) (i : Nat) :
    Mirrors HfIp.exec (conn · i) id (Sockets.sees i d.stack.sockets e) d d' r := by
  obtain ⟨q, here, eq⟩ := Option.map_eq_some_iff.mp taken
  obtain ⟨rfl, rfl⟩ := Prod.mk.inj eq
  have step : sysExec d.stack.sockets e = some (q.1.sockets, q.2) := stackExec_sockets here
  exact sysExec_follows step

theorem exec_concerns {e : SocketsEvent} (own : Event) (concerns : Concerns d.stack.sockets e i own)
    (taken : d.exec (.call e) = some (d', r)) :
    HfIp.exec (d.conn i) own = some (d'.conn i, r) ∧ ∀ j, j ≠ i → d'.conn j = d.conn j := by
  refine ⟨?_, fun j other => ?_⟩
  · have mirrors := exec_mirrors taken i
    rw [concerns i, if_pos rfl] at mirrors
    exact mirrors
  · have mirrors := exec_mirrors taken j
    rw [concerns j, if_neg (Ne.symm other)] at mirrors
    exact mirrors

theorem exec_keeps {e : StackEvent} (taken : d.exec e = some (d', r)) :
    d'.owners = d.owners ∧ d'.fd = d.fd := by
  obtain ⟨q, here, eq⟩ := Option.map_eq_some_iff.mp taken
  obtain ⟨rfl, -⟩ := Prod.mk.inj eq
  exact ⟨rfl, rfl⟩

/- An operation that neither writes nor reads. -/
theorem operate_serves {e : SocketsEvent} (own : Event) {wait : Option IpcWait}
    (concerns : Concerns d.stack.sockets e i own) (quiet : own.quiet = true) (plain : Plain c)
    (other : ∀ fd buf, c.call ≠ .write fd buf) (waits : ∀ w ∈ wait, WaitsCall c w ∧ w = .connect i)
    (taken : d.operate e wait = some q) : Serves c i [] d q := by
  obtain ⟨⟨u, r⟩, here, done⟩ := Option.bind_eq_some_iff.mp taken
  obtain ⟨step, others⟩ := exec_concerns own concerns here
  obtain ⟨owners, fd⟩ := exec_keeps here
  have talks : ∀ {got given}, Talks (got ++ []) given (d.conn i) →
      Talks (got ++ []) (given ++ []) (u.conn i) := by
    intro got given talks
    rw [List.append_nil given]
    exact exec_talks quiet talks step
  cases r with
  | ret rc =>
    obtain rfl := Option.some.inj done
    refine ⟨owners, fd, others, fun before => ?_, plain _, fun w is => by cases is⟩
    have none : gotBytes c (.inr { rc := Int32.ofInt rc }) = [] := by simp [gotBytes, outcome_buf]
    rw [none, givenBytes, written_other other]
    exact talks before
  | asleep =>
    obtain ⟨w, waiting, rfl⟩ := Option.map_eq_some_iff.mp done
    obtain ⟨ends, rfl⟩ := waits w waiting
    refine ⟨owners, fd, others, talks, ends, fun w is => ?_⟩
    obtain rfl := Sum.inl.inj is
    rfl
  | none => cases done

theorem write_serves {pid sockfd : UInt32} {buf : List UInt8} (small : buf.length < 2 ^ 31)
    (coded : HfIp.Coded (d.conn i)) (taken : d.operate (.call i (.write buf)) none = some q) :
    Serves ⟨pid, .write sockfd buf⟩ i [] d q := by
  obtain ⟨⟨u, r⟩, here, done⟩ := Option.bind_eq_some_iff.mp taken
  obtain ⟨step, others⟩ := exec_concerns (.write buf) (fun _ => rfl) here
  obtain ⟨owners, fd⟩ := exec_keeps here
  obtain ⟨rc, rfl, -⟩ := exec_write coded.talks step
  obtain rfl := Option.some.inj done
  refine ⟨owners, fd, others, ?_, ⟨rfl, rfl, rfl⟩, fun w is => by cases is⟩
  intro got given before
  obtain ⟨rc', eq, wrote⟩ := exec_write before step
  obtain rfl := Reply.ret.inj eq
  have none : gotBytes ⟨pid, .write sockfd buf⟩ (.inr { rc := Int32.ofInt rc }) = [] := by
    simp [gotBytes, outcome_buf]
  have some : givenBytes ⟨pid, .write sockfd buf⟩ (.inr { rc := Int32.ofInt rc }) =
      if Int32.ofInt rc < 0 then [] else buf := written_outcome sockfd buf _
  rw [none, some]
  rcases wrote with ⟨kept, least, negative⟩ | ⟨more, rfl⟩
  · rw [if_pos ((int32_negative least (by omega)).mpr negative), List.append_nil given]
    exact kept
  · have well : ¬(buf.length : Int) < 0 := by omega
    rw [if_neg (fun negative => well ((int32_negative (by unfold EINPROGRESS; omega) (by omega)).mp negative))]
    exact more

theorem receive_serves {len : Nat} {had : List UInt8} {own : Event} {pid sockfd : UInt32} (small : len < 2 ^ 31)
    (room : had.length ≤ len) (coded : HfIp.Coded (d.conn i))
    (told : ∀ {got given t r}, Talks got given (d.conn i) → HfIp.exec (d.conn i) own = some (t, r) →
      ∃ new, Told got given len had.length t r.rc new)
    (taken : d.receive i len had own = some q) : Serves ⟨pid, .read sockfd len⟩ i had d q := by
  obtain ⟨⟨u, r⟩, here, done⟩ := Option.bind_eq_some_iff.mp taken
  obtain ⟨step, others⟩ := exec_concerns own (fun _ => rfl) here
  obtain ⟨owners, fd⟩ := exec_keeps here
  obtain ⟨new, told'⟩ := told coded.talks step
  have drawn : (u.conn i).delivered.drop (d.conn i).delivered.length = new := by
    rw [told'.talks.delivered]
    exact List.drop_left
  have few := told'.room room
  have after : ∀ {got given}, Talks (got ++ had) given (d.conn i) →
      Talks (got ++ (had ++ new)) (given ++ []) (u.conn i) := by
    intro got given before
    obtain ⟨new', again⟩ := told before step
    obtain rfl : new' = new := by
      rw [← drawn, again.talks.delivered, before.delivered]
      exact List.drop_left.symm
    rw [List.append_nil, ← List.append_assoc]
    exact again.talks
  dsimp only at done
  rw [drawn] at done
  cases r with
  | asleep =>
    obtain rfl := Option.some.inj done
    refine ⟨owners, fd, others, after, ⟨⟨sockfd, rfl⟩, ?_⟩, fun w is => ?_⟩
    · rw [List.length_append]
      exact few
    · obtain rfl := Sum.inl.inj is
      rfl
  | ret rc =>
    obtain rfl := Option.some.inj done
    have total : (had ++ new).length ≤ len := by
      rw [List.length_append]
      exact few
    rcases told'.counted rc rfl with ⟨least, negative, nothing⟩ | rfl
    · have negative' : Int32.ofInt rc < 0 := (int32_negative least (by omega)).mpr negative
      have empty : had ++ new = [] := List.eq_nil_of_length_eq_zero (by rw [List.length_append]; exact nothing)
      refine ⟨owners, fd, others, fun before => ?_, ⟨fun well => absurd negative' well, total, rfl, rfl⟩,
        fun w is => by cases is⟩
      have none : gotBytes ⟨pid, .read sockfd len⟩
          (.inr { rc := Int32.ofInt rc, bytes := had ++ new }) = had ++ new := by
        rw [gotBytes, outcome_buf, if_pos negative', empty]
      rw [none]
      exact after before
    · have count : (Int32.ofInt (had.length + new.length : Nat)).toInt = (had ++ new).length := by
        rw [Int32.toInt_ofInt_of_le (by omega) (by omega), List.length_append]
      have well : ¬Int32.ofInt (had.length + new.length : Nat) < 0 := by
        rw [Int32.lt_iff_toInt_lt, count]
        exact Int.not_lt.mpr (Int.natCast_nonneg _)
      refine ⟨owners, fd, others, fun before => ?_, ⟨fun _ => count, total, rfl, rfl⟩,
        fun w is => by cases is⟩
      have all : gotBytes ⟨pid, .read sockfd len⟩
          (.inr { rc := Int32.ofInt (had.length + new.length : Nat), bytes := had ++ new }) = had ++ new := by
        rw [gotBytes, outcome_buf, if_neg well]
      rw [all]
      exact after before
  | none => cases done

/- What only looks at a socket. -/
theorem look_serves {a : Answer} (fits : FitsCall c a) (nothing : a.bytes = [])
    (other : ∀ fd buf, c.call ≠ .write fd buf) (taken : some (d, (.inr a : IpcEnd)) = some q) :
    Serves c i [] d q := by
  obtain rfl := Option.some.inj taken
  refine ⟨rfl, rfl, fun _ _ => rfl, ?_, fits, fun w is => by cases is⟩
  intro got given before
  have none : gotBytes c (.inr a) = [] := by simp [gotBytes, outcome_buf, nothing]
  have unwritten : givenBytes c (.inr a) = [] := written_other other _
  rw [none, unwritten, List.append_nil given]
  exact before

/- An error on a socket, or before there is one. -/
theorem refused_serves {rc : Int32} (negative : rc < 0) : Serves c i [] d (d, .inr { rc := rc }) := by
  refine ⟨rfl, rfl, fun _ _ => rfl, ?_, fits_error negative, fun w is => by cases is⟩
  intro got given before
  have none : gotBytes c (.inr { rc := rc }) = [] := by simp [gotBytes, outcome_buf]
  have unwritten : givenBytes c (.inr { rc := rc }) = [] := written_failed ((outcome_negative _).mpr negative)
  rw [none, unwritten, List.append_nil given]
  exact before

theorem withSocket_began {fd : UInt32} {f : Nat → Option (Daemon × IpcEnd)} (named : c.call.fd = some fd)
    (each : ∀ i, f i = some q → Serves c i [] d q) (taken : d.withSocket c.pid fd f = some q) :
    Began c d q := by
  unfold withSocket at taken
  split at taken
  · obtain rfl := Option.some.inj taken
    exact .refused _ (by decide)
  · rename_i i found
    exact .served named found (each i taken)

theorem socket_began {pid domain type protocol : UInt32}
    (sound : SoundCall ⟨pid, .socket domain type protocol⟩) (taken : d.socket pid domain type = some q) :
    Began ⟨pid, .socket domain type protocol⟩ d q := by
  have supported : isSocketSupported domain type protocol = true := sound
  have inet : domain = AF_INET := by
    by_contra other
    simp [isSocketSupported, other] at supported
  have stream : ¬SOCK_STREAM &&& type = 0 := by
    intro other
    rw [UInt32.and_comm] at other
    simp [isSocketSupported, inet, other] at supported
  unfold socket at taken
  rw [inet, if_neg (by decide), if_neg (by simp [stream])] at taken
  obtain ⟨⟨u, r⟩, here, rfl⟩ := Option.map_eq_some_iff.mp taken
  exact .opened _ ⟨domain, type, protocol, rfl⟩ (fun j => exec_mirrors here j) rfl rfl

end Daemon

end

def Daemon.Coded (d : Daemon) : Prop := ∀ i, HfIp.Coded (d.conn i)

namespace Daemon

variable {q : Daemon × IpcEnd} {choice : IpcChoice}

theorem begin_began (coded : d.Coded) (sound : SoundCall c) (taken : d.begin c choice = some q) :
    Began c d q := by
  obtain ⟨pid, call⟩ := c
  have no_wait : ∀ {c : IpcCall} {i : Nat}, ∀ w ∈ (none : Option IpcWait),
      WaitsCall c w ∧ w = .connect i := by simp
  cases call with
  | socket domain type protocol => exact socket_began sound taken
  | connect sockfd addr addrlen =>
    refine withSocket_began rfl (fun i done => ?_) taken
    refine operate_serves (.connect _ _ _) (fun _ => rfl) rfl (fun _ => ⟨rfl, rfl, rfl⟩) (by simp) ?_ done
    rintro w waits
    obtain rfl := Option.some.inj (Option.mem_def.mp waits)
    exact ⟨⟨sockfd, addr, addrlen, rfl⟩, rfl⟩
  | write sockfd buf =>
    have small : ipcMsgSize + ipcWriteSize + buf.length < 2 ^ 31 := sound
    exact withSocket_began rfl (fun i => write_serves (by omega) (coded i)) taken
  | read sockfd len =>
    have small : ipcMsgSize + ipcErrSize + ipcWriteSize + len < 2 ^ 31 := sound
    refine withSocket_began rfl (fun i => ?_) taken
    exact receive_serves (by omega) (Nat.zero_le len) (coded i) exec_read
  | close sockfd =>
    refine withSocket_began rfl (fun i => ?_) taken
    exact operate_serves .close (fun _ => rfl) rfl (fun _ => ⟨rfl, rfl, rfl⟩) (by simp) no_wait
  | fcntl sockfd cmd arg =>
    have plain : Plain ⟨pid, .fcntl sockfd cmd arg⟩ := fun _ => ⟨rfl, rfl, rfl⟩
    have taken' : d.fcntl pid sockfd cmd arg = some q := taken
    unfold Daemon.fcntl at taken'
    split at taken'
    · refine withSocket_began rfl (fun i => ?_) taken'
      exact operate_serves .fcntlGetfl (fun _ => rfl) rfl plain (by simp) no_wait
    · split at taken'
      · refine withSocket_began rfl (fun i => ?_) taken'
        exact operate_serves (.fcntlSetfl arg) (fun _ => rfl) rfl plain (by simp) no_wait
      · obtain rfl := Option.some.inj taken'
        exact .refused _ (by decide)
  | getsockopt fd level optname optval =>
    refine withSocket_began rfl (fun i done => look_serves ?_ rfl (by simp) done) taken
    unfold HfIp.getsockopt
    split
    · split
      · exact fits_option _
      · exact fits_error (by decide)
    · exact fits_error (by decide)
  | getpeername socket =>
    refine withSocket_began rfl (fun i done => look_serves ?_ rfl (by simp) done) taken
    exact fits_name (n := (inetGetpeername (d.conn i)).2) rfl ⟨socket, .inl rfl⟩
  | getsockname socket =>
    refine withSocket_began rfl (fun i done => look_serves ?_ rfl (by simp) done) taken
    exact fits_name (n := (inetGetsockname (d.conn i)).2) rfl ⟨socket, .inr rfl⟩

theorem goOn_serves {w : IpcWait} (coded : d.Coded) (sound : SoundCall c) (waits : WaitsCall c w)
    (taken : d.goOn w choice = some q) : Serves c w.socket w.held d q := by
  obtain ⟨pid, call⟩ := c
  cases w with
  | connect i =>
    obtain ⟨fd, addr, addrlen, rfl⟩ := waits
    refine operate_serves .connectWakes (fun _ => rfl) rfl (fun _ => ⟨rfl, rfl, rfl⟩) (by simp) ?_ taken
    rintro w waits
    obtain rfl := Option.some.inj (Option.mem_def.mp waits)
    exact ⟨⟨fd, addr, addrlen, rfl⟩, rfl⟩
  | read i len got =>
    obtain ⟨⟨fd, rfl⟩, room⟩ := waits
    have small : ipcMsgSize + ipcErrSize + ipcWriteSize + len < 2 ^ 31 := sound
    unfold Daemon.goOn at taken
    dsimp only at taken
    split at taken
    · rename_i here
      exact receive_serves (by omega) room (coded i) (exec_readWakes here) taken
    · cases taken

end Daemon

theorem Daemon.Moves.coded (moves : d.Moves d') (coded : d.Coded) : d'.Coded := by
  intro i
  unfold Daemon.conn
  rcases moves with rests | ⟨e, r, taken⟩
  · rw [rests]
    exact coded i
  · have follows := stackExec_sockets taken
    unfold Mirrors at follows
    split at follows
    · rw [follows]
      exact coded i
    · have own := sysExec_follows (i := i) follows
      unfold Mirrors at own
      dsimp only [id] at own
      split at own
      · rw [own]
        exact coded i
      · exact exec_coded (coded i) own

/-- The daemon keeps to it. -/
def ipcContract : Contract daemonService ipcWire outcome where
  Sound := SoundCall
  Waits := WaitsCall
  Fits := FitsCall
  Ready buf := buf.length = IPC_BUFLEN
  Kept := Daemon.Coded
  received junk ready sound := ipcReceive_request junk ready sound
  silent _ := rfl
  heard junk junk' sound fits := ipcResult_response junk junk' sound fits
  own kept taken := (Daemon.own_moves taken).coded kept
  begun kept sound taken := by
    have moves := Daemon.begin_moves taken
    exact ⟨moves.coded kept, (Daemon.begin_began kept sound taken).ends⟩
  goesOn kept sound waits taken := by
    have moves := Daemon.goOn_moves taken
    exact ⟨moves.coded kept, (Daemon.goOn_serves kept sound waits taken).ends⟩

/-! ### Runs -/

instance : (c : IpcCall) → Decidable (SoundCall c)
  | ⟨_, .socket _ _ _⟩ => inferInstanceAs (Decidable (_ = _))
  | ⟨_, .connect _ _ _⟩ => inferInstanceAs (Decidable (_ = _))
  | ⟨_, .write _ _⟩ => inferInstanceAs (Decidable (_ < _))
  | ⟨_, .read _ _⟩ => inferInstanceAs (Decidable (_ < _))
  | ⟨_, .fcntl _ _ _⟩ => inferInstanceAs (Decidable (_ ∨ _))
  | ⟨_, .getsockopt _ _ _ _⟩ => inferInstanceAs (Decidable (_ ∧ _))
  | ⟨_, .close _⟩ | ⟨_, .getpeername _⟩ | ⟨_, .getsockname _⟩ => inferInstanceAs (Decidable True)

/- Nothing is asked after `close`, which closes the stream too. -/
def ProgramAsks (_ : List (DaemonEvent × Option Reply)) (y : DaemonSystem) : DaemonEvent → Prop
  | .ask i c _ => SoundCall c ∧ ∀ p ∈ (y.sessions i).told, p.1.call.type ≠ IPC_CLOSE
  | _ => True

instance (trace : List (DaemonEvent × Option Reply)) (y : DaemonSystem) :
    (e : DaemonEvent) → Decidable (ProgramAsks trace y e)
  | .ask _ _ _ => inferInstanceAs (Decidable (_ ∧ _))
  | .own _ | .handle _ _ _ | .resume _ _ _ | .hear _ _ => inferInstanceAs (Decidable True)

/- The threads read into buffers that they do not clear. -/
def daemonStart (tapaddr : UInt32) (buf : Nat → Vector UInt8 IPC_BUFLEN) : DaemonSystem :=
  .start { stack := { tapaddr := tapaddr } } fun i => (buf i).toList

/- Each step of the system is at most one of the daemon. -/
theorem daemonStep_moves {y z : DaemonSystem} {e : DaemonEvent} {r : Option Reply}
    (taken : daemonStep y e = some (z, r)) : y.state.Moves z.state := by
  cases e with
  | own e =>
    obtain ⟨q, here, eq⟩ := Option.map_eq_some_iff.mp taken
    obtain ⟨rfl, -⟩ := Prod.mk.inj eq
    exact Daemon.own_moves here
  | ask j c junk =>
    simp only [daemonStep, remoteStep] at taken
    split at taken
    · cases taken
    · obtain ⟨rfl, -⟩ := by simpa using taken
      exact .inl rfl
  | handle j choice junk =>
    simp only [daemonStep, remoteStep] at taken
    split at taken
    · obtain ⟨q, here, eq⟩ := Option.map_eq_some_iff.mp taken
      obtain ⟨rfl, -⟩ := Prod.mk.inj eq
      exact Daemon.serve_moves here
    · cases taken
  | resume j choice junk =>
    simp only [daemonStep, remoteStep] at taken
    split at taken
    · cases taken
    · obtain ⟨q, here, eq⟩ := Option.map_eq_some_iff.mp taken
      obtain ⟨rfl, -⟩ := Prod.mk.inj eq
      exact Daemon.serve_moves here
  | hear j junk =>
    simp only [daemonStep, remoteStep] at taken
    split at taken
    · obtain ⟨rfl, -⟩ := by simpa using taken
      exact .inl rfl
    · cases taken

theorem daemon_stack_run {y z : DaemonSystem} {trace : List (DaemonEvent × Option Reply)}
    {allowed : List (DaemonEvent × Option Reply) → DaemonSystem → DaemonEvent → Prop}
    (run : Run daemonStep allowed y trace z) :
    ∃ events, Run stackExec (fun _ _ _ => True) y.state.stack events z.state.stack := by
  induction run with
  | start => exact ⟨[], .start⟩
  | next before ok taken ih =>
    obtain ⟨events, run⟩ := ih
    rcases daemonStep_moves taken with rests | ⟨e, r, step⟩
    · rw [rests]
      exact ⟨events, run⟩
    · exact ⟨events ++ [(e, r)], run.next trivial step⟩

/- A program opens a connection without blocking, and reads until there is no more. -/
def countJunk : Junk := fun n => UInt8.ofNat n

def calls (call : SysCall) : List DaemonEvent :=
  [.ask 0 ⟨7, call⟩ countJunk, .handle 0 {} countJunk, .hear 0 countJunk]

def peerName : List UInt8 := [2, 0, 0, 80, 10, 0, 0, 5, 0, 0, 0, 0, 0, 0, 0, 0]

def programReads : List DaemonEvent :=
  [.own (.frame (arpRequest tapPeer.addr tapDev.addr tapPeer))] ++ calls (.socket 2 1 0) ++
  calls (.fcntl 4097 4 0x802) ++ calls (.connect 4097 peerName 16) ++
  [.own (.frame (ipFrame IP_TCP 40 (tcpBytes { peerHdr 5000 1 with syn := true } 0 []))),
    .own (.frame (ipFrame IP_TCP 43 (tcpBytes { peerHdr 5001 1 with psh := true } 0 [104, 105, 33])))] ++
  calls (.read 4097 2) ++ calls (.read 4097 2) ++ calls (.read 4097 2) ++ calls (.getpeername 4097)

def HasRead (y : DaemonSystem) : Prop :=
  (y.sessions 0).told.map (fun p => (p.2.ret, p.2.errno, p.2.buf)) =
    [(4097, none, []), (0, none, []), (-1, some 115, []), (2, none, [104, 105]), (1, none, [33]),
      (-1, some 11, []), (0, none, [])]

instance : DecidablePred HasRead := fun _ => inferInstanceAs (Decidable (_ = _))

end HfIp
