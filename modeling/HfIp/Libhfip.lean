import HfIp.Lib.Calls

/- The registry of the interposer (tools/libhfip.c, tools/libhfip.h): `socket` and `close` of a program,
   the list they keep, and the kernel's descriptors of the process. -/
namespace HfIp

def AF_INET : UInt32 := 2
def SOCK_STREAM : UInt32 := 1
def IPPROTO_TCP : UInt32 := 6

/- `addr` names the allocation. -/
structure HfipSock where
  addr : Nat
  hffd : Nat
  fd : Int
  deriving DecidableEq, Repr

/- What an open descriptor of the process is. -/
inductive FdKind where
  | ipc
  | other
  deriving DecidableEq, Repr

/- `hfip_socks` with the allocations that have been freed, and the kernel's table. Not in the code:
   `live`, the descriptors that `socket` has handed out for hf-ip and that have not been closed. -/
structure Interposer where
  socks : List HfipSock := []
  freed : List Nat := []
  next : Nat := 0
  table : List (Nat × FdKind) := []
  live : List Int := []
  deriving DecidableEq, Repr

/- `reply` is what `transmit_hfip` returns, `accepted` whether the kernel's own call succeeds. A
   `socket` that cannot reach the daemon exits the program and is no call here. -/
inductive LibCall where
  | socket (domain type protocol : UInt32) (reply : Int) (accepted : Bool)
  | close (fd : Int) (reply : Int)
  deriving DecidableEq, Repr

/-! ### The kernel's own calls -/

/- The lowest number that is not open. -/
def lowestFree (table : List (Nat × FdKind)) : Nat :=
  ((List.range (table.length + 1)).find? fun n => n ∉ table.map (·.1)).getD 0

def kernelSocket (table : List (Nat × FdKind)) (kind : FdKind) : List (Nat × FdKind) :=
  table ++ [(lowestFree table, kind)]

def kernelClose (table : List (Nat × FdKind)) (fd : Int) : List (Nat × FdKind) :=
  table.filter fun p => (p.1 : Int) ≠ fd

/-! ### The interposed calls -/

def hfipGetSock (socks : List HfipSock) (fd : Int) : Option HfipSock :=
  socks.find? fun sock => sock.fd = fd

def isSocketSupported (domain type protocol : UInt32) : Bool :=
  if domain ≠ AF_INET then false
  else if type &&& SOCK_STREAM = 0 then false
  else if protocol ≠ 0 ∧ protocol ≠ IPPROTO_TCP then false
  else true

/- The entry is linked before the daemon has answered; when it refuses, the entry is freed. -/
def interposedSocket (s : Interposer) (domain type protocol : UInt32) (reply : Int)
    (accepted : Bool) : Interposer :=
  if isSocketSupported domain type protocol = false then
    if accepted then { s with table := kernelSocket s.table .other } else s
  else
    let hffd := lowestFree s.table
    let sock : HfipSock := { addr := s.next, hffd := hffd, fd := 0 }
    let s := { s with table := kernelSocket s.table .ipc, next := s.next + 1 }
    if reply = -1 then { s with socks := s.socks ++ [sock], freed := s.freed ++ [sock.addr] }
    else { s with socks := s.socks ++ [{ sock with fd := reply }], live := s.live ++ [reply] }

/- The descriptor to the daemon is closed, whatever the daemon has answered. -/
def interposedClose (s : Interposer) (fd : Int) : Interposer :=
  match hfipGetSock s.socks fd with
  | none => { s with table := kernelClose s.table fd, live := s.live.filter (· ≠ fd) }
  | some sock => { s with table := kernelClose s.table sock.hffd, live := s.live.filter (· ≠ fd) }

def interpose (s : Interposer) : LibCall → Interposer
  | .socket domain type protocol reply accepted =>
    interposedSocket s domain type protocol reply accepted
  | .close fd _ => interposedClose s fd

/-! ### The registry -/

/-- The list holds exactly the live descriptors, in entries that have not been freed, each with an
    open descriptor to the daemon. -/
structure Registered (s : Interposer) : Prop where
  found : ∀ fd, (hfipGetSock s.socks fd).isSome = true ↔ fd ∈ s.live
  allocated : ∀ sock ∈ s.socks, sock.addr ∉ s.freed
  ipc : ∀ sock ∈ s.socks, (sock.hffd, FdKind.ipc) ∈ s.table

/-- No supported `socket` is refused, and what is closed is neither a descriptor of hf-ip nor one of
    the library's own descriptors to the daemon. -/
def Spares (s : Interposer) : LibCall → Prop
  | .socket domain type protocol reply _ => isSocketSupported domain type protocol = true → reply ≠ -1
  | .close fd _ => fd ∉ s.live ∧ ∀ sock ∈ s.socks, (sock.hffd : Int) ≠ fd

/- Addresses are handed out in order. -/
def FreedBelow (s : Interposer) : Prop := ∀ a ∈ s.freed, a < s.next

variable {s : Interposer}

theorem hfipGetSock_isSome (socks : List HfipSock) (fd : Int) :
    (hfipGetSock socks fd).isSome = true ↔ ∃ sock ∈ socks, sock.fd = fd := by
  rw [hfipGetSock, List.find?_isSome]
  simp

theorem interposedSocket_unsupported {domain type protocol : UInt32}
    (other : isSocketSupported domain type protocol = false) (reply : Int) (accepted : Bool) :
    interposedSocket s domain type protocol reply accepted =
      if accepted then { s with table := kernelSocket s.table .other } else s := by
  rw [interposedSocket, if_pos other]

theorem interposedSocket_refused {domain type protocol : UInt32}
    (ours : isSocketSupported domain type protocol = true) (accepted : Bool) :
    interposedSocket s domain type protocol (-1) accepted = { s with
      table := kernelSocket s.table .ipc
      next := s.next + 1
      socks := s.socks ++ [{ addr := s.next, hffd := lowestFree s.table, fd := 0 }]
      freed := s.freed ++ [s.next] } := by
  rw [interposedSocket, if_neg (by simp [ours])]
  exact if_pos rfl

theorem interposedSocket_opened {domain type protocol : UInt32}
    (ours : isSocketSupported domain type protocol = true) {reply : Int} (granted : reply ≠ -1)
    (accepted : Bool) : interposedSocket s domain type protocol reply accepted = { s with
      table := kernelSocket s.table .ipc
      next := s.next + 1
      socks := s.socks ++ [{ addr := s.next, hffd := lowestFree s.table, fd := reply }]
      live := s.live ++ [reply] } := by
  rw [interposedSocket, if_neg (by simp [ours])]
  exact if_neg granted

theorem interposedClose_same (s : Interposer) (fd : Int) :
    (interposedClose s fd).freed = s.freed ∧ (interposedClose s fd).next = s.next ∧
      (interposedClose s fd).socks = s.socks := by
  unfold interposedClose
  split
  · exact ⟨rfl, rfl, rfl⟩
  · exact ⟨rfl, rfl, rfl⟩

theorem interpose_freedBelow (s : Interposer) (c : LibCall) (below : FreedBelow s) :
    FreedBelow (interpose s c) := by
  cases c with
  | socket domain type protocol reply accepted =>
    rw [interpose]
    cases ours : isSocketSupported domain type protocol with
    | false =>
      rw [interposedSocket_unsupported ours]
      split
      · exact below
      · exact below
    | true =>
      by_cases refused : reply = -1
      · rw [refused, interposedSocket_refused ours]
        intro a member
        rcases List.mem_append.mp member with old | new
        · exact Nat.lt_succ_of_lt (below a old)
        · obtain rfl := List.mem_singleton.mp new
          exact Nat.lt_succ_self _
      · rw [interposedSocket_opened ours refused]
        exact fun a member => Nat.lt_succ_of_lt (below a member)
  | close fd reply =>
    obtain ⟨freed, next, -⟩ := interposedClose_same s fd
    intro a member
    rw [interpose] at member ⊢
    rw [freed] at member
    rw [next]
    exact below a member

/- One lemma for each way a call can go. -/
theorem Registered.unsupported (registered : Registered s) (accepted : Bool) :
    Registered (if accepted then { s with table := kernelSocket s.table .other } else s) := by
  cases accepted with
  | true => exact ⟨registered.found, registered.allocated, fun sock member =>
      List.mem_append_left _ (registered.ipc sock member)⟩
  | false => exact registered

theorem Registered.opened (registered : Registered s) (below : FreedBelow s) (fd : Int) :
    Registered { s with
      table := kernelSocket s.table .ipc
      next := s.next + 1
      socks := s.socks ++ [{ addr := s.next, hffd := lowestFree s.table, fd := fd }]
      live := s.live ++ [fd] } := by
  constructor
  · intro sought
    rw [hfipGetSock_isSome]
    dsimp only
    rw [List.mem_append, ← registered.found, hfipGetSock_isSome]
    constructor
    · rintro ⟨sock, member, rfl⟩
      rcases List.mem_append.mp member with old | new
      · exact .inl ⟨sock, old, rfl⟩
      · obtain rfl := List.mem_singleton.mp new
        exact .inr (List.mem_singleton_self _)
    · rintro (⟨sock, member, same⟩ | new)
      · exact ⟨sock, List.mem_append_left _ member, same⟩
      · obtain rfl := List.mem_singleton.mp new
        exact ⟨_, List.mem_append_right _ (List.mem_singleton_self _), rfl⟩
  · intro sock member
    rcases List.mem_append.mp member with old | new
    · exact registered.allocated sock old
    · obtain rfl := List.mem_singleton.mp new
      exact fun freed => Nat.lt_irrefl _ (below _ freed)
  · intro sock member
    rcases List.mem_append.mp member with old | new
    · exact List.mem_append_left _ (registered.ipc sock old)
    · obtain rfl := List.mem_singleton.mp new
      exact List.mem_append_right _ (List.mem_singleton_self _)

theorem mem_kernelClose {table : List (Nat × FdKind)} {fd : Int} {n : Nat} {kind : FdKind} :
    (n, kind) ∈ kernelClose table fd ↔ (n, kind) ∈ table ∧ (n : Int) ≠ fd := by
  rw [kernelClose, List.mem_filter]
  simp

theorem Registered.closed_iff (registered : Registered s) (fd : Int) :
    Registered (interposedClose s fd) ↔
      fd ∉ s.live ∧ ∀ sock ∈ s.socks, (sock.hffd : Int) ≠ fd := by
  unfold interposedClose
  cases sought : hfipGetSock s.socks fd with
  | none =>
    have unknown : fd ∉ s.live := by
      rw [← registered.found, sought]
      simp
    have same : s.live.filter (· ≠ fd) = s.live := List.filter_eq_self.mpr fun a member => by
      simpa using fun eq : a = fd => unknown (eq ▸ member)
    dsimp only
    rw [same]
    constructor
    · intro still
      exact ⟨unknown, fun sock member => (mem_kernelClose.mp (still.ipc sock member)).2⟩
    · rintro ⟨-, apart⟩
      exact ⟨registered.found, registered.allocated, fun sock member =>
        mem_kernelClose.mpr ⟨registered.ipc sock member, apart sock member⟩⟩
  | some sock =>
    have known : fd ∈ s.live := by
      rw [← registered.found, sought]
      rfl
    constructor
    · intro still
      -- the entry stays in the list after its descriptor has been closed
      have gone := (still.found fd).mp (by dsimp only; rw [sought]; rfl)
      simp at gone
    · intro spared
      exact absurd known spared.1

theorem interpose_registered (s : Interposer) (c : LibCall) (below : FreedBelow s)
    (registered : Registered s) : Registered (interpose s c) ↔ Spares s c := by
  cases c with
  | close fd reply => exact registered.closed_iff fd
  | socket domain type protocol reply accepted =>
    rw [interpose, Spares]
    cases ours : isSocketSupported domain type protocol with
    | false =>
      rw [interposedSocket_unsupported ours]
      exact iff_of_true (registered.unsupported accepted) (fun h => by cases h)
    | true =>
      by_cases refused : reply = -1
      · rw [refused, interposedSocket_refused ours]
        constructor
        · intro still
          -- the freed entry is still linked
          exact absurd (List.mem_append_right _ (List.mem_singleton_self _))
            (still.allocated _ (List.mem_append_right _ (List.mem_singleton_self _)))
        · intro spared
          exact absurd rfl (spared rfl)
      · rw [interposedSocket_opened ours refused]
        exact iff_of_true (registered.opened below reply) (fun _ => refused)

/- A program that has made no socket yet, with any descriptors open. -/
def Interposer.start (fds : List Nat) : Interposer := { table := fds.map fun n => (n, .other) }

theorem Registered.start (fds : List Nat) : Registered (.start fds) :=
  ⟨fun fd => by simp [Interposer.start, hfipGetSock], fun _ member => (List.not_mem_nil member).elim,
    fun _ member => (List.not_mem_nil member).elim⟩

/-- The registry is right after every call exactly when every call spares it. -/
theorem registry_right_iff (fds : List Nat) (calls : List LibCall) :
    (∀ n, Registered (Calls.after interpose (.start fds) (calls.take n))) ↔
      ∀ n c, calls[n]? = some c → Spares (Calls.after interpose (.start fds) (calls.take n)) c :=
  Calls.right_throughout_iff (fun s => Registered s ∧ FreedBelow s) (fun _ good => good.1)
    (fun s c good spared =>
      ⟨(interpose_registered s c good.2 good.1).mpr spared, interpose_freedBelow s c good.2⟩)
    (fun s c good still => (interpose_registered s c good.2 good.1).mp still)
    ⟨.start fds, fun _ member => (List.not_mem_nil member).elim⟩ calls

/- A refused socket, a socket that is closed again, and a closed descriptor to the daemon. -/
theorem registry_wrong :
    ¬Registered (Calls.after interpose (.start [0, 1, 2]) [.socket 2 1 0 (-1) true]) ∧
      ¬Registered (Calls.after interpose (.start [0, 1, 2])
        [.socket 2 1 0 4097 true, .close 4097 0]) ∧
      ¬Registered (Calls.after interpose (.start [0, 1, 2])
        [.socket 2 1 0 4097 true, .close 3 0]) := by
  refine ⟨fun right => ?_, fun right => ?_, fun right => ?_⟩
  · exact absurd (right.allocated ⟨0, 3, 0⟩ (by decide)) (by decide)
  · exact absurd ((right.found 4097).mp (by decide)) (by decide)
  · exact absurd (right.ipc ⟨0, 3, 4097⟩ (by decide)) (by decide)

end HfIp
